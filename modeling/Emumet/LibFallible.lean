import Mathlib

/-! Rules for computations that can fail. -/

namespace Fallible

variable {e α β γ : Type}

theorem bind_eq_ok {x : Except e α} {f : α → Except e β} {result : β} :
    x >>= f = .ok result ↔ ∃ a, x = .ok a ∧ f a = .ok result := by
  cases x with
  | error _ => simp [bind, Except.bind]
  | ok a => simp [bind, Except.bind]

/-- Checks on all elements succeed if each of them does. -/
theorem forM_eq_ok {f : α → Except e Unit} {l : List α} :
    l.forM f = .ok () ↔ ∀ a ∈ l, f a = .ok () := by
  induction l with
  | nil => simp [pure, Except.pure]
  | cons head l ih =>
      rw [List.forM_eq_forM] at ih
      rw [List.forM_eq_forM, List.forM_cons, bind_eq_ok]
      simp only [List.mem_cons, forall_eq_or_imp, ih]
      constructor
      · rintro ⟨_, hhead, hrest⟩
        exact ⟨hhead, hrest⟩
      · rintro ⟨hhead, hrest⟩
        exact ⟨(), hhead, hrest⟩

/-- A list and its results are paired element by element. -/
theorem eq_ok_of_mem_zip {f : α → Except e β} {l : List α} {results : List β}
    (h : l.mapM f = .ok results) {a : α} {b : β} (hab : (a, b) ∈ l.zip results) : f a = .ok b := by
  induction l generalizing results with
  | nil => cases hab
  | cons head l ih =>
      simp only [List.mapM_cons, bind_eq_ok] at h
      obtain ⟨first, hfirst, rest, hrest, hresults⟩ := h
      cases hresults
      rcases List.mem_cons.mp hab with hhead | htail
      · cases hhead
        exact hfirst
      · exact ih hrest htail

/-- Every element has its result at its place. -/
theorem exists_mem_zip {f : α → Except e β} {l : List α} {results : List β}
    (h : l.mapM f = .ok results) {a : α} (ha : a ∈ l) : ∃ b, (a, b) ∈ l.zip results := by
  induction l generalizing results with
  | nil => cases ha
  | cons head l ih =>
      simp only [List.mapM_cons, bind_eq_ok] at h
      obtain ⟨first, hfirst, rest, hrest, hresults⟩ := h
      cases hresults
      rcases List.mem_cons.mp ha with rfl | htail
      · exact ⟨first, List.mem_cons_self⟩
      · obtain ⟨b, hb⟩ := ih hrest htail
        exact ⟨b, List.mem_cons_of_mem _ hb⟩

/-- A list that is mapped successfully is mapped element by element. -/
theorem exists_of_mapM_eq_ok {f : α → Except e β} {l : List α} {results : List β}
    (h : l.mapM f = .ok results) {a : α} (ha : a ∈ l) : ∃ b ∈ results, f a = .ok b := by
  obtain ⟨b, hb⟩ := exists_mem_zip h ha
  exact ⟨b, (List.of_mem_zip hb).2, eq_ok_of_mem_zip h hb⟩

/-- Every result is the result of an element. -/
theorem exists_of_mem_results {f : α → Except e β} {l : List α} {results : List β}
    (h : l.mapM f = .ok results) {b : β} (hb : b ∈ results) : ∃ a ∈ l, f a = .ok b := by
  induction l generalizing results with
  | nil =>
      cases h
      cases hb
  | cons head l ih =>
      simp only [List.mapM_cons, bind_eq_ok] at h
      obtain ⟨first, hfirst, rest, hrest, hresults⟩ := h
      cases hresults
      rcases List.mem_cons.mp hb with rfl | htail
      · exact ⟨head, List.mem_cons_self, hfirst⟩
      · obtain ⟨a, ha, hok⟩ := ih hrest htail
        exact ⟨a, List.mem_cons_of_mem _ ha, hok⟩

/-- A list is mapped successfully when each of its elements is. -/
theorem mapM_eq_ok_iff {f : α → Except e β} {l : List α} {results : List β} :
    l.mapM f = .ok results ↔ List.Forall₂ (fun a b => f a = .ok b) l results := by
  induction l generalizing results with
  | nil =>
      rw [List.mapM_nil, List.forall₂_nil_left_iff]
      exact ⟨fun h => (Except.ok.inj h).symm, fun h => congrArg Except.ok h.symm⟩
  | cons head l ih =>
      rw [List.mapM_cons, List.forall₂_cons_left_iff, bind_eq_ok]
      refine exists_congr fun first => ?_
      rw [bind_eq_ok]
      constructor
      · rintro ⟨hfirst, rest, hrest, hresults⟩
        exact ⟨rest, hfirst, ih.mp hrest, (Except.ok.inj hresults).symm⟩
      · rintro ⟨rest, hfirst, hrest, rfl⟩
        exact ⟨hfirst, rest, ih.mpr hrest, rfl⟩

/-- Two maps one after the other succeed as the map of both does. -/
theorem mapM_bind_mapM_eq_ok {f : α → Except e β} {g : β → Except e γ} {l : List α}
    {results : List γ} : (l.mapM f >>= fun middle => middle.mapM g) = .ok results ↔
      List.Forall₂ (fun a c => (f a >>= g) = .ok c) l results := by
  simp only [bind_eq_ok, mapM_eq_ok_iff]
  constructor
  · rintro ⟨middle, hf, hg⟩
    induction hf generalizing results with
    | nil =>
        cases hg
        exact .nil
    | cons hfirst _ ih =>
        cases hg with
        | cons hsecond hrest => exact .cons ⟨_, hfirst, hsecond⟩ (ih hrest)
  · intro h
    induction h with
    | nil => exact ⟨[], .nil, .nil⟩
    | cons hboth _ ih =>
        obtain ⟨b, hfirst, hsecond⟩ := hboth
        obtain ⟨middle, hf, hg⟩ := ih
        exact ⟨b :: middle, .cons hfirst hf, .cons hsecond hg⟩

/-- Elements that each have a related one. -/
theorem exists_forall₂ {R : α → β → Prop} {l : List α} (h : ∀ a ∈ l, ∃ b, R a b) :
    ∃ results, List.Forall₂ R l results := by
  induction l with
  | nil => exact ⟨[], .nil⟩
  | cons head l ih =>
      obtain ⟨b, hb⟩ := h head List.mem_cons_self
      obtain ⟨results, hresults⟩ := ih fun a ha => h a (List.mem_cons_of_mem _ ha)
      exact ⟨b :: results, .cons hb hresults⟩

theorem exists_of_forall₂ {R : α → β → Prop} {l : List α} {results : List β}
    (h : List.Forall₂ R l results) {a : α} (ha : a ∈ l) : ∃ b, R a b := by
  induction h with
  | nil => cases ha
  | cons hfirst _ ih =>
      rcases List.mem_cons.mp ha with rfl | hrest
      · exact ⟨_, hfirst⟩
      · exact ih hrest

/-- Two maps of one list have related results when they have for each element. -/
theorem forall₂_of_mapM_eq_ok {f : α → Except e β} {g : α → Except e γ} {R : β → γ → Prop}
    {l : List α} (h : ∀ a ∈ l, ∀ b c, f a = .ok b → g a = .ok c → R b c) {results : List β}
    {others : List γ} (hf : l.mapM f = .ok results) (hg : l.mapM g = .ok others) :
    List.Forall₂ R results others := by
  induction l generalizing results others with
  | nil =>
      cases hf
      cases hg
      exact .nil
  | cons head l ih =>
      simp only [List.mapM_cons, bind_eq_ok] at hf hg
      obtain ⟨b, hb, rest, hrest, hresults⟩ := hf
      obtain ⟨c, hc, rest', hrest', hothers⟩ := hg
      cases hresults
      cases hothers
      exact .cons (h head List.mem_cons_self b c hb hc)
        (ih (fun a ha => h a (List.mem_cons_of_mem _ ha)) hrest hrest')

/-- Two maps of one list with the same results agree on every element. -/
theorem eq_of_mapM_eq_ok {f g : α → Except e β} {l : List α} {results : List β}
    (hf : l.mapM f = .ok results) (hg : l.mapM g = .ok results) {a : α} (ha : a ∈ l) : f a = g a := by
  obtain ⟨b, hb⟩ := exists_mem_zip hf ha
  rw [eq_ok_of_mem_zip hf hb, eq_ok_of_mem_zip hg hb]

/-- What every successful step of a fold preserves, a successful fold preserves. -/
theorem foldlM_invariant {f : β → α → Except e β} {P : β → Prop} {l : List α}
    (hstep : ∀ b, ∀ a ∈ l, ∀ b', P b → f b a = .ok b' → P b') {b result : β} (h : P b)
    (hok : l.foldlM f b = .ok result) : P result := by
  induction l generalizing b with
  | nil =>
      rw [List.foldlM_nil] at hok
      exact Except.ok.inj hok ▸ h
  | cons a l ih =>
      rw [List.foldlM_cons, bind_eq_ok] at hok
      obtain ⟨middle, hfirst, hrest⟩ := hok
      exact ih (fun b a ha => hstep b a (List.mem_cons_of_mem _ ha))
        (hstep b a List.mem_cons_self middle h hfirst) hrest

/-- A fold whose steps are simulated one by one is simulated as a whole. -/
theorem foldlM_simulates {f : β → α → Except e β} {g : γ → α → Except e γ} {R : β → γ → Prop}
    {l : List α} (hstep : ∀ b c, ∀ a ∈ l, ∀ b', R b c → f b a = .ok b' →
      ∃ c', g c a = .ok c' ∧ R b' c') {b result : β} {c : γ} (h : R b c)
    (hok : l.foldlM f b = .ok result) : ∃ other, l.foldlM g c = .ok other ∧ R result other := by
  induction l generalizing b c with
  | nil =>
      rw [List.foldlM_nil] at hok
      exact ⟨c, rfl, Except.ok.inj hok ▸ h⟩
  | cons a l ih =>
      rw [List.foldlM_cons, bind_eq_ok] at hok
      obtain ⟨middle, hfirst, hrest⟩ := hok
      obtain ⟨next, hnext, hrelated⟩ := hstep b c a List.mem_cons_self middle h hfirst
      obtain ⟨other, hother, hresult⟩ :=
        ih (fun b c a ha => hstep b c a (List.mem_cons_of_mem _ ha)) hrelated hrest
      refine ⟨other, ?_, hresult⟩
      rw [List.foldlM_cons, bind_eq_ok]
      exact ⟨next, hnext, hother⟩

end Fallible

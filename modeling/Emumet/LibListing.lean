import Emumet.LibTable

/-! The rows of a table that a query keeps, in the order of their keys. A listing is determined by its
members, so an update of the table is an update of the listing in one place. -/

namespace Table

variable {κ ρ : Type} [LinearOrder κ] {key : ρ → κ}

/-- `SELECT ... WHERE ... ORDER BY` the key. -/
def ordered (t : Table key) (keep : ρ → Bool) : List ρ :=
  (t.select keep).insertionSort fun a b => key a ≤ key b

variable {t : Table key} {keep : ρ → Bool} {l front back : List ρ} {old new : ρ}

theorem ordered_sorted (t : Table key) (keep : ρ → Bool) :
    (t.ordered keep).Pairwise fun a b => key a < key b := by
  have : Std.Total fun a b : ρ => key a ≤ key b := ⟨fun _ _ => le_total _ _⟩
  have : IsTrans ρ fun a b => key a ≤ key b := ⟨fun _ _ _ => le_trans⟩
  have hle : (t.ordered keep).Pairwise fun a b => key a ≤ key b := List.pairwise_insertionSort _ _
  have hkeys : ((t.ordered keep).map key).Nodup := by
    refine (((List.perm_insertionSort _ _).map key).nodup_iff).mpr ?_
    exact t.nodup.sublist (List.filter_sublist.map key)
  have hne : (t.ordered keep).Pairwise fun a b => key a ≠ key b := List.pairwise_map.mp hkeys
  exact hle.imp₂ (fun a b hle hne => lt_of_le_of_ne hle hne) hne

theorem mem_ordered {row : ρ} : row ∈ t.ordered keep ↔ row ∈ t.rows ∧ keep row = true := by
  rw [ordered, List.mem_insertionSort, select, List.mem_filter]

/-- A listing is the one list in key order that has its members. -/
theorem ordered_eq (hsorted : l.Pairwise fun a b => key a < key b)
    (hmem : ∀ row, row ∈ l ↔ row ∈ t.rows ∧ keep row = true) : t.ordered keep = l := by
  have hnodup : ∀ {l : List ρ}, (l.Pairwise fun a b => key a < key b) → l.Nodup := by
    intro l hl
    exact hl.imp fun hlt heq => absurd (congrArg key heq) (ne_of_lt hlt)
  have hperm : (t.ordered keep).Perm l := by
    refine (List.perm_ext_iff_of_nodup (hnodup (ordered_sorted t keep)) (hnodup hsorted)).mpr ?_
    intro row
    rw [mem_ordered, hmem]
  refine hperm.eq_of_pairwise (fun a b _ _ hab hba => ?_) (ordered_sorted t keep) hsorted
  exact absurd (hab.trans hba) (lt_irrefl _)

/-- A row is replaced in its place. -/
theorem ordered_replace (h : t.ordered keep = front ++ old :: back) (hkey : key new = key old)
    (hnew : keep new = true) : (t.put new).ordered keep = front ++ new :: back := by
  have hsorted := ordered_sorted t keep
  rw [h] at hsorted
  refine ordered_eq ?_ fun row => ?_
  · rw [List.pairwise_append, List.pairwise_cons] at hsorted ⊢
    obtain ⟨hfront, ⟨hafter, hback⟩, hbetween⟩ := hsorted
    refine ⟨hfront, ⟨fun row hrow => hkey ▸ hafter row hrow, hback⟩, fun row hrow other hother => ?_⟩
    rcases List.mem_cons.mp hother with rfl | hback
    · exact hkey ▸ hbetween row hrow old List.mem_cons_self
    · exact hbetween row hrow other (List.mem_cons_of_mem _ hback)
  · have hold : ∀ row, row ∈ front ∨ row = old ∨ row ∈ back ↔ row ∈ t.rows ∧ keep row = true := by
      intro row
      rw [← mem_ordered, h, List.mem_append, List.mem_cons]
    have hkeys : ∀ row, row ∈ front ∨ row ∈ back → key row ≠ key old := by
      rw [List.pairwise_append, List.pairwise_cons] at hsorted
      rintro row (hfront | hback)
      · exact ne_of_lt (hsorted.2.2 row hfront old List.mem_cons_self)
      · exact ne_of_gt (hsorted.2.1.1 row hback)
    rw [List.mem_append, List.mem_cons, mem_put, hkey]
    constructor
    · rintro (hfront | rfl | hback)
      · have hrow := (hold row).mp (.inl hfront)
        exact ⟨.inr ⟨hrow.1, hkeys row (.inl hfront)⟩, hrow.2⟩
      · exact ⟨.inl rfl, hnew⟩
      · have hrow := (hold row).mp (.inr (.inr hback))
        exact ⟨.inr ⟨hrow.1, hkeys row (.inr hback)⟩, hrow.2⟩
    · rintro ⟨rfl | ⟨hrow, hne⟩, hkeep⟩
      · exact .inr (.inl rfl)
      · rcases (hold row).mpr ⟨hrow, hkeep⟩ with hfront | rfl | hback
        · exact .inl hfront
        · exact absurd rfl hne
        · exact .inr (.inr hback)

/-- A row is taken out of its place. -/
theorem ordered_erase (h : t.ordered keep = front ++ old :: back) :
    (t.erase (key old)).ordered keep = front ++ back := by
  have hsorted := ordered_sorted t keep
  rw [h] at hsorted
  refine ordered_eq (hsorted.sublist (List.sublist_cons_self old back |>.append_left front)) fun row => ?_
  have hold : row ∈ front ∨ row = old ∨ row ∈ back ↔ row ∈ t.rows ∧ keep row = true := by
    rw [← mem_ordered, h, List.mem_append, List.mem_cons]
  rw [List.pairwise_append, List.pairwise_cons] at hsorted
  obtain ⟨_, ⟨hafter, _⟩, hbetween⟩ := hsorted
  rw [List.mem_append, mem_erase]
  constructor
  · rintro (hfront | hback)
    · have hrow := hold.mp (.inl hfront)
      exact ⟨⟨hrow.1, ne_of_lt (hbetween row hfront old List.mem_cons_self)⟩, hrow.2⟩
    · have hrow := hold.mp (.inr (.inr hback))
      exact ⟨⟨hrow.1, ne_of_gt (hafter row hback)⟩, hrow.2⟩
  · rintro ⟨⟨hrow, hne⟩, hkeep⟩
    rcases hold.mpr ⟨hrow, hkeep⟩ with hfront | rfl | hback
    · exact .inl hfront
    · exact absurd rfl hne
    · exact .inr hback

/-- A row with the greatest key comes last. -/
theorem ordered_append (h : t.ordered keep = l) (hlast : ∀ row ∈ t.rows, key row < key new)
    (hnew : keep new = true) : (t.put new).ordered keep = l ++ [new] := by
  subst h
  refine ordered_eq ?_ fun row => ?_
  · refine List.pairwise_append.mpr ⟨ordered_sorted t keep, List.pairwise_singleton _ _, ?_⟩
    intro row hrow other hother
    rw [List.mem_singleton.mp hother]
    exact hlast row (mem_ordered.mp hrow).1
  · rw [List.mem_append, List.mem_singleton, mem_ordered, mem_put]
    constructor
    · rintro (⟨hrow, hkeep⟩ | rfl)
      · exact ⟨.inr ⟨hrow, ne_of_lt (hlast row hrow)⟩, hkeep⟩
      · exact ⟨.inl rfl, hnew⟩
    · rintro ⟨rfl | ⟨hrow, _⟩, hkeep⟩
      · exact .inr rfl
      · exact .inl ⟨hrow, hkeep⟩

/-- A query that names neither the new row nor the one it replaces. -/
theorem filter_put_of_not (hnew : keep new = false)
    (hold : ∀ row ∈ t.rows, key row = key new → keep row = false) :
    (t.put new).rows.filter keep = t.rows.filter keep := by
  rw [put, List.filter_cons_of_neg (by simp [hnew]), erase, deleteWhere, List.filter_filter]
  refine List.filter_congr fun row hrow => ?_
  by_cases hkey : key row = key new
  · simp [hold row hrow hkey]
  · simp [hkey]

theorem filter_erase_of_not {k : κ} (hold : ∀ row ∈ t.rows, key row = k → keep row = false) :
    (t.erase k).rows.filter keep = t.rows.filter keep := by
  rw [erase, deleteWhere, List.filter_filter]
  refine List.filter_congr fun row hrow => ?_
  by_cases hkey : key row = k
  · simp [hold row hrow hkey]
  · simp [hkey]

end Table

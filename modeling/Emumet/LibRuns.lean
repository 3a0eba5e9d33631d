import Mathlib

/-! Runs of a machine given by a step function. A run is the list of actions taken, and a condition
on a run relates each action to the state it is taken in. -/

namespace Runs

variable {σ α : Type} (step : σ → α → σ)

def run (s : σ) (actions : List α) : σ := actions.foldl step s

/-- Every action of the run meets the condition in the state it is taken in. -/
def Along (allowed : σ → α → Prop) : σ → List α → Prop
  | _, [] => True
  | s, action :: rest => allowed s action ∧ Along allowed (step s action) rest

instance Along.decidable (allowed : σ → α → Prop) [∀ s action, Decidable (allowed s action)] :
    ∀ s actions, Decidable (Along step allowed s actions)
  | _, [] => isTrue trivial
  | s, action :: rest =>
      have := Along.decidable allowed (step s action) rest
      inferInstanceAs (Decidable (_ ∧ _))

variable {step}

@[simp] theorem run_nil (s : σ) : run step s [] = s := rfl

@[simp] theorem run_cons (s : σ) (action : α) (rest : List α) :
    run step s (action :: rest) = run step (step s action) rest := rfl

theorem run_append (s : σ) (front back : List α) :
    run step s (front ++ back) = run step (run step s front) back :=
  List.foldl_append

theorem along_append {allowed : σ → α → Prop} {s : σ} {front back : List α} :
    Along step allowed s (front ++ back) ↔
      Along step allowed s front ∧ Along step allowed (run step s front) back := by
  induction front generalizing s with
  | nil => simp [Along]
  | cons action front ih =>
      simp only [List.cons_append, Along, run_cons, ih, and_assoc]

theorem Along.and {allowed meets : σ → α → Prop} {s : σ} {actions : List α}
    (h : Along step allowed s actions) (h' : Along step meets s actions) :
    Along step (fun s action => allowed s action ∧ meets s action) s actions := by
  induction actions generalizing s with
  | nil => trivial
  | cons action rest ih => exact ⟨⟨h.1, h'.1⟩, ih h.2 h'.2⟩

/-- What every allowed step preserves holds after every allowed run. -/
theorem Along.invariant {allowed : σ → α → Prop} {Inv : σ → Prop}
    (hstep : ∀ s action, Inv s → allowed s action → Inv (step s action)) {s : σ} (hinit : Inv s)
    {actions : List α} (h : Along step allowed s actions) : Inv (run step s actions) := by
  induction actions generalizing s with
  | nil => exact hinit
  | cons action rest ih => exact ih (hstep s action hinit h.1) h.2

/-- What every step preserves holds after every run. -/
theorem run_invariant {Inv : σ → Prop} (hstep : ∀ s action, Inv s → Inv (step s action)) {s : σ}
    (hinit : Inv s) (actions : List α) : Inv (run step s actions) := by
  induction actions generalizing s with
  | nil => exact hinit
  | cons action rest ih => exact ih (hstep s action hinit)

variable (step) in
/-- The cause occurs in the run, and the condition holds in every state since. -/
def Since (Causes : σ → α → Prop) (P : σ → Prop) (s : σ) (actions : List α) : Prop :=
  ∃ front cause back, actions = front ++ cause :: back ∧ Causes (run step s front) cause ∧
    ∀ later, later <+: back → P (run step s (front ++ cause :: later))

section Since

variable {Causes : σ → α → Prop} {P : σ → Prop} {s : σ} {actions : List α}

theorem not_since_nil : ¬Since step Causes P s [] := by
  rintro ⟨front, cause, back, hsplit, _⟩
  simp at hsplit

/-- Before the last action, or with it. -/
theorem since_concat {action : α} :
    Since step Causes P s (actions ++ [action]) ↔
      (Since step Causes P s actions ∨ Causes (run step s actions) action) ∧
        P (run step s (actions ++ [action])) := by
  constructor
  · rintro ⟨front, cause, back, hsplit, hcause, hsince⟩
    have hlast : P (run step s (actions ++ [action])) := hsplit ▸ hsince back List.prefix_rfl
    refine ⟨?_, hlast⟩
    rcases List.eq_nil_or_concat back with rfl | ⟨earlier, last, rfl⟩
    · obtain ⟨rfl, heq⟩ := List.append_inj' hsplit rfl
      rw [List.singleton_inj.mp heq]
      exact .inr hcause
    · rw [List.concat_eq_append, ← List.cons_append, ← List.append_assoc] at hsplit
      obtain ⟨rfl, _⟩ := List.append_inj' hsplit rfl
      refine .inl ⟨front, cause, earlier, rfl, hcause, fun later hlater => ?_⟩
      exact hsince later (hlater.trans (List.prefix_concat last earlier))
  · rintro ⟨⟨front, cause, back, rfl, hcause, hsince⟩ | hcause, hlast⟩
    · refine ⟨front, cause, back ++ [action], by simp, hcause, fun later hlater => ?_⟩
      rcases List.prefix_concat_iff.mp hlater with rfl | hearlier
      · rw [← List.cons_append, ← List.append_assoc]
        exact hlast
      · exact hsince later hearlier
    · refine ⟨actions, action, [], rfl, hcause, fun later hlater => ?_⟩
      rw [List.prefix_nil.mp hlater]
      exact hlast

end Since

/-- What holds after a run and not before it has a cause in the run, and holds ever since. -/
theorem exists_cause {P : σ → Prop} {Causes : σ → α → Prop}
    (hstep : ∀ s action, P (step s action) → P s ∨ Causes s action) {s : σ} (hstart : ¬P s)
    {actions : List α} (h : P (run step s actions)) : Since step Causes P s actions := by
  induction actions using List.reverseRecOn with
  | nil => exact absurd h hstart
  | append_singleton actions action ih =>
      refine since_concat.mpr ⟨?_, h⟩
      rw [run_append] at h
      exact (hstep _ _ h).imp_left ih

end Runs

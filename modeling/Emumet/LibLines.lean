import Mathlib

/-! Texts joined with a separator. Two joined texts of the same number of lines agree line by line when
each line can be told from what follows it. -/

namespace Lines

variable {α : Type} {separator : α}

/-- A text is cut in one way at the first occurrence of a mark. -/
theorem cut_unique {mark : α} {left right rest rest' : List α} (hleft : mark ∉ left)
    (hright : mark ∉ right) (h : left ++ mark :: rest = right ++ mark :: rest') :
    left = right ∧ rest = rest' := by
  induction left generalizing right with
  | nil =>
      cases right with
      | nil => exact ⟨rfl, (List.cons.inj h).2⟩
      | cons head right =>
          have hhead : mark = head := (List.cons.inj h).1
          exact absurd (hhead ▸ List.mem_cons_self) hright
  | cons head left ih =>
      cases right with
      | nil =>
          have hhead : head = mark := (List.cons.inj h).1
          exact absurd (hhead ▸ List.mem_cons_self) hleft
      | cons head' right =>
          obtain ⟨rfl, htail⟩ := List.cons.inj h
          obtain ⟨rfl, hrest⟩ := ih (fun hmem => hleft (List.mem_cons_of_mem _ hmem))
            (fun hmem => hright (List.mem_cons_of_mem _ hmem)) htail
          exact ⟨rfl, hrest⟩

/-- Two lines that start two texts at a separator are the same line if the texts are the same. -/
def Apart (separator : α) (left right : List α) : Prop :=
  ∀ rest rest', left ++ separator :: rest = right ++ separator :: rest' → left = right

/-- Lines without the separator in them. -/
theorem apart_of_notMem {left right : List α} (hleft : separator ∉ left) (hright : separator ∉ right) :
    Apart separator left right := fun _ _ h =>
  (cut_unique hleft hright h).1

/-- Lines that start the same way are told apart by what follows. -/
theorem Apart.append_left {left right : List α} (start : List α) (h : Apart separator left right) :
    Apart separator (start ++ left) (start ++ right) := by
  intro rest rest' heq
  rw [List.append_assoc, List.append_assoc] at heq
  rw [h rest rest' (List.append_cancel_left heq)]

/-- A line of two parts with a mark between them: the first part is free of the mark and the second
of the separator. -/
theorem apart_of_mark {mark : α} {left right left' right' : List α} (hleft : mark ∉ left)
    (hright : mark ∉ right) (h : Apart separator left' right') :
    Apart separator (left ++ mark :: left') (right ++ mark :: right') := by
  intro rest rest' heq
  simp only [List.append_assoc, List.cons_append] at heq
  obtain ⟨rfl, htail⟩ := cut_unique hleft hright heq
  rw [h rest rest' htail]

/-- Joined texts of lines that are pairwise told apart have the same lines. -/
theorem eq_of_intercalate_eq {left right : List (List α)}
    (h : List.Forall₂ (Apart separator) left right)
    (heq : [separator].intercalate left = [separator].intercalate right) : left = right := by
  induction h with
  | nil => rfl
  | @cons line line' lines lines' hline hlines ih =>
      cases hlines with
      | nil =>
          rw [List.intercalate_singleton, List.intercalate_singleton] at heq
          rw [heq]
      | cons hnext hrest =>
          simp only [List.intercalate_cons_cons, List.append_assoc, List.singleton_append] at heq
          obtain rfl := hline _ _ heq
          rw [ih (List.cons.inj (List.append_cancel_left heq)).2]

end Lines

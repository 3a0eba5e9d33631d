import Emumet.LibTable

/-! Tables of relations. A row relates one pair of ends. Read under names for the ends, such a table is
a map from pairs of names, and a statement that inserts, deletes or changes the row of a pair changes
the map at one place. -/

namespace Table

variable {κ ρ τ : Type} {key : ρ → κ} {relates : ρ → τ → τ → Bool} {t : Table key} {a b x y : τ}

variable (relates) in
/-- The row that relates two ends. -/
def between (t : Table key) (x y : τ) : Option ρ := t.rows.find? (relates · x y)

theorem between_eq_some {row : ρ} (h : t.between relates x y = some row) :
    row ∈ t.rows ∧ relates row x y = true :=
  ⟨List.mem_of_find?_eq_some h, List.find?_some (p := (relates · x y)) h⟩

theorem between_modify {change : ρ → ρ} {hkey : ∀ row, key (change row) = key row}
    (hends : ∀ row x y, relates (change row) x y = relates row x y) :
    (t.modify change hkey).between relates x y = (t.between relates x y).map change := by
  rw [between, modify, List.find?_map]
  exact congrArg (Option.map change) (congrArg (t.rows.find? ·) (funext fun row => hends row x y))

/-- Where a pair has one row, deleting it by its key deletes the rows of the pair. -/
theorem erase_eq_deleteWhere [DecidableEq κ] {row : ρ} (hrow : row ∈ t.rows)
    (hrelates : relates row a b = true)
    (honly : ∀ other ∈ t.rows, relates other a b = true → other = row) :
    t.erase (key row) = t.deleteWhere (relates · a b) := by
  refine deleteWhere_congr fun other hother => ?_
  rw [Bool.eq_iff_iff, decide_eq_true_eq]
  constructor
  · intro hkey
    rw [t.eq_of_key_eq hother hrow hkey]
    exact hrelates
  · exact fun h => congrArg key (honly other hother h)

variable [DecidableEq τ]

/-- Without the rows of one pair. -/
theorem between_deleteWhere
    (hends : ∀ row x y x' y', relates row x y = true → relates row x' y' = true → x = x' ∧ y = y') :
    (t.deleteWhere (relates · a b)).between relates x y =
      if x = a ∧ y = b then none else t.between relates x y := by
  rw [between, deleteWhere, List.find?_filter]
  split_ifs with hpair
  · obtain ⟨rfl, rfl⟩ := hpair
    exact List.find?_eq_none.mpr fun row _ => by cases relates row x y <;> simp
  · refine congrArg (t.rows.find? ·) (funext fun row => ?_)
    cases hrelates : relates row x y with
    | false => simp
    | true =>
        have hother : relates row a b = false := by
          rw [← Bool.not_eq_true]
          exact fun hrow => hpair (hends row x y a b hrelates hrow)
        simp [hother]

theorem between_put [DecidableEq κ] {new : ρ} (hfresh : t.get (key new) = none)
    (hnew : ∀ x y, relates new x y = true ↔ x = a ∧ y = b) :
    (t.put new).between relates x y = if x = a ∧ y = b then some new else t.between relates x y := by
  have hrows : (t.put new).rows = new :: t.rows := by
    change new :: (t.erase (key new)).rows = _
    rw [erase_of_get_eq_none hfresh]
  rw [between, hrows, List.find?_cons]
  split_ifs with hpair
  · rw [(hnew x y).mpr hpair]
  · rw [Bool.not_eq_true _ |>.mp fun h => hpair ((hnew x y).mp h), between]

end Table

namespace Names

variable {π τ β : Type} {target target' : π → Option τ} {rows rows' : τ → τ → Option β}

/-- What a table has for a pair of names. -/
def named (target : π → Option τ) (rows : τ → τ → Option β) (pair : π × π) : Option β := do
  rows (← target pair.1) (← target pair.2)

theorem named_eq {p q : π} {x y : τ} (hp : target p = some x) (hq : target q = some y) :
    named target rows (p, q) = rows x y := by
  simp [named, hp, hq]

theorem named_eq_some {p q : π} {value : β} (h : named target rows (p, q) = some value) :
    ∃ x y, target p = some x ∧ target q = some y ∧ rows x y = some value := by
  simp only [named, Option.bind_eq_bind, Option.bind_eq_some_iff] at h
  obtain ⟨x, hx, y, hy, hvalue⟩ := h
  exact ⟨x, y, hx, hy, hvalue⟩

/-- New names for ends that nothing refers to. -/
theorem named_congr (hkept : ∀ p x, target p = some x → target' p = some x)
    (hnew : ∀ p x, target' p = some x → target p = none → ∀ y, rows x y = none ∧ rows y x = none) :
    named target' rows = named target rows := by
  funext ⟨p, q⟩
  cases hp : target p with
  | none =>
      rw [named, named, hp]
      cases hp' : target' p with
      | none => rfl
      | some x => cases target' q <;> simp [hnew p x hp' hp]
  | some x =>
      cases hq : target q with
      | none =>
          rw [named, named, hq, hkept p x hp]
          cases hq' : target' q with
          | none => simp [hp]
          | some y => simp [hp, hnew q y hq' hq]
      | some y => rw [named_eq hp hq, named_eq (hkept p x hp) (hkept q y hq)]

/-- A change at one pair of ends is a change at the names of the two. -/
theorem named_update [DecidableEq π] [DecidableEq τ] {p q : π} {a b : τ} {value : Option β}
    (hinjective : ∀ p p' x, target p = some x → target p' = some x → p = p')
    (hp : target p = some a) (hq : target q = some b)
    (hrows : ∀ x y, rows' x y = if x = a ∧ y = b then value else rows x y) :
    named target rows' = Function.update (named target rows) (p, q) value := by
  funext ⟨p', q'⟩
  rw [Function.update_apply]
  split_ifs with hpair
  · cases hpair
    rw [named_eq hp hq, hrows, if_pos ⟨rfl, rfl⟩]
  · cases hp' : target p' with
    | none => simp [named, hp']
    | some x =>
        cases hq' : target q' with
        | none => simp [named, hp', hq']
        | some y =>
            rw [named_eq hp' hq', named_eq hp' hq', hrows, if_neg]
            rintro ⟨rfl, rfl⟩
            exact hpair (Prod.ext (hinjective _ _ _ hp' hp) (hinjective _ _ _ hq' hq))

end Names

import Mathlib

/-! Finite tables with a primary key. The key is a function of the row, so a row cannot be stored
under a key that is not its own, and the absence of duplicate keys is a field of the table. Row order
carries no meaning: a query that does not name the key is a filter over the rows. -/

/-- A table whose rows have pairwise different keys. -/
structure Table {κ ρ : Type} (key : ρ → κ) where
  rows : List ρ
  nodup : (rows.map key).Nodup

namespace Table

variable {κ ρ : Type} {key : ρ → κ}

theorem eq_of_rows {t u : Table key} (h : t.rows = u.rows) : t = u := by
  cases t
  cases u
  cases h
  rfl

def empty : Table key := ⟨[], List.nodup_nil⟩

/-- The rows a `WHERE` clause keeps. -/
def select (t : Table key) (keep : ρ → Bool) : List ρ := t.rows.filter keep

/-- `DELETE ... WHERE`: the rows the clause does not name stay. -/
def deleteWhere (t : Table key) (gone : ρ → Bool) : Table key where
  rows := t.rows.filter fun row => !gone row
  nodup := t.nodup.sublist (List.filter_sublist.map key)

theorem mem_deleteWhere {t : Table key} {gone : ρ → Bool} {row : ρ} :
    row ∈ (t.deleteWhere gone).rows ↔ row ∈ t.rows ∧ gone row = false := by
  simp [deleteWhere]

theorem deleteWhere_congr {t : Table key} {gone other : ρ → Bool}
    (h : ∀ row ∈ t.rows, gone row = other row) : t.deleteWhere gone = t.deleteWhere other := by
  have hrows : (t.rows.filter fun row => !gone row) = t.rows.filter fun row => !other row :=
    List.filter_congr fun row hrow => by rw [h row hrow]
  simp only [deleteWhere, hrows]

theorem deleteWhere_deleteWhere (t : Table key) (gone other : ρ → Bool) :
    (t.deleteWhere gone).deleteWhere other = t.deleteWhere fun row => gone row || other row := by
  have hrows : ((t.rows.filter fun row => !gone row).filter fun row => !other row) =
      t.rows.filter fun row => !(gone row || other row) := by
    rw [List.filter_filter]
    exact List.filter_congr fun row _ => by rw [Bool.not_or, Bool.and_comm]
  simp only [deleteWhere, hrows]

/-- Two rows of a table with the same key are the same row. -/
theorem eq_of_key_eq (t : Table key) {row other : ρ} (hrow : row ∈ t.rows) (hother : other ∈ t.rows)
    (hkey : key row = key other) : row = other :=
  List.inj_on_of_nodup_map t.nodup hrow hother hkey

/-- A query on a column only one row of the table matches. -/
theorem find_of_only {t : Table key} {matching keep : ρ → Bool} {row : ρ} (hrow : row ∈ t.rows)
    (hmatch : matching row = true) (honly : ∀ other ∈ t.rows, matching other = true → other = row) :
    (t.rows.find? fun other => matching other && keep other) = (some row).filter keep := by
  cases hkeep : keep row with
  | true =>
      rw [Option.filter_some, if_pos hkeep]
      cases hfind : t.rows.find? fun other => matching other && keep other with
      | none => simpa [hmatch, hkeep] using List.find?_eq_none.mp hfind row hrow
      | some found =>
          have hfound := List.find?_some hfind
          rw [Bool.and_eq_true] at hfound
          rw [honly found (List.mem_of_find?_eq_some hfind) hfound.1]
  | false =>
      rw [Option.filter_some, if_neg (by simp [hkeep]), List.find?_eq_none]
      intro other hother hboth
      rw [Bool.and_eq_true] at hboth
      rw [honly other hother hboth.1, hkeep] at hboth
      exact Bool.false_ne_true hboth.2

/-- A clause that names one row only. -/
theorem filter_eq_singleton {t : Table key} {row : ρ} {named : ρ → Bool} (hrow : row ∈ t.rows)
    (hnamed : named row = true) (honly : ∀ other ∈ t.rows, named other = true → other = row) :
    t.rows.filter named = [row] := by
  have hnodup : (t.rows.filter named).Nodup := (List.Nodup.of_map key t.nodup).filter named
  refine List.perm_singleton.mp
    ((List.perm_ext_iff_of_nodup hnodup (List.nodup_singleton row)).mpr fun other => ?_)
  rw [List.mem_filter, List.mem_singleton]
  constructor
  · exact fun h => honly other h.1 h.2
  · rintro rfl
    exact ⟨hrow, hnamed⟩

/-- Change rows without changing their keys. -/
def modify (t : Table key) (change : ρ → ρ) (hkey : ∀ row, key (change row) = key row) :
    Table key where
  rows := t.rows.map change
  nodup := by
    have hkeys : (t.rows.map change).map key = t.rows.map key := by
      rw [List.map_map]
      exact List.map_congr_left fun row _ => hkey row
    rw [hkeys]
    exact t.nodup

/-! ### What an update touches -/

/-- The row is in one of the two tables only: it was inserted, deleted, or is the old or the new form of
a row that was changed. -/
def Touched (before after : Table key) (row : ρ) : Prop := ¬(row ∈ before.rows ↔ row ∈ after.rows)

theorem not_touched_self (t : Table key) (row : ρ) : ¬Touched t t row := fun h => h Iff.rfl

/-- Rows are only taken away. -/
theorem touched_of_kept {before after : Table key} {kept : ρ → Prop} {row : ρ}
    (hrows : ∀ row, row ∈ after.rows ↔ row ∈ before.rows ∧ kept row) (h : Touched before after row) :
    row ∈ before.rows ∧ row ∉ after.rows ∧ ¬kept row := by
  have hafter : row ∉ after.rows := fun hafter =>
    h ⟨fun _ => hafter, fun _ => ((hrows row).mp hafter).1⟩
  have hbefore : row ∈ before.rows := by
    by_contra hnot
    exact h ⟨fun hrow => absurd hrow hnot, fun hrow => absurd hrow hafter⟩
  exact ⟨hbefore, hafter, fun hkept => hafter ((hrows row).mpr ⟨hbefore, hkept⟩)⟩

/-- A row that is changed is touched in both its forms. -/
theorem touched_modify {t : Table key} {change : ρ → ρ} {hkey : ∀ row, key (change row) = key row}
    {row : ρ} (h : Touched t (t.modify change hkey) row) :
    ∃ old ∈ t.rows, change old ≠ old ∧ (row = old ∨ row = change old) := by
  by_cases hrow : row ∈ t.rows
  · refine ⟨row, hrow, fun hsame => h ⟨fun _ => ?_, fun _ => hrow⟩, .inl rfl⟩
    exact List.mem_map.mpr ⟨row, hrow, hsame⟩
  · have hafter : row ∈ (t.modify change hkey).rows := by
      by_contra hnot
      exact h ⟨fun h => absurd h hrow, fun h => absurd h hnot⟩
    obtain ⟨old, hold, rfl⟩ := List.mem_map.mp hafter
    exact ⟨old, hold, fun hsame => hrow (by rw [hsame]; exact hold), .inr rfl⟩

/-! ### Lookup by key -/

variable [DecidableEq κ]

/-- Lookup by primary key. -/
def get (t : Table key) (k : κ) : Option ρ := t.rows.find? fun row => key row = k

def contains (t : Table key) (k : κ) : Bool := (t.get k).isSome

/-- Delete by primary key. -/
def erase (t : Table key) (k : κ) : Table key := t.deleteWhere fun row => key row = k

/-- Insert a row, or replace the row that has its key. -/
def put (t : Table key) (row : ρ) : Table key where
  rows := row :: (t.erase (key row)).rows
  nodup := by
    rw [List.map_cons, List.nodup_cons]
    refine ⟨?_, (t.erase (key row)).nodup⟩
    intro hmem
    obtain ⟨other, hother, hkey⟩ := List.mem_map.mp hmem
    simp [erase, deleteWhere, hkey] at hother

theorem mem_erase {t : Table key} {k : κ} {row : ρ} :
    row ∈ (t.erase k).rows ↔ row ∈ t.rows ∧ key row ≠ k := by
  simp [erase, mem_deleteWhere]

theorem mem_put {t : Table key} {new row : ρ} :
    row ∈ (t.put new).rows ↔ row = new ∨ (row ∈ t.rows ∧ key row ≠ key new) := by
  simp [put, mem_erase]

theorem get_eq_some_iff {t : Table key} {k : κ} {row : ρ} :
    t.get k = some row ↔ row ∈ t.rows ∧ key row = k := by
  constructor
  · intro h
    exact ⟨List.mem_of_find?_eq_some h, by simpa using List.find?_some h⟩
  · rintro ⟨hmem, rfl⟩
    cases hget : t.get (key row) with
    | none =>
        have := List.find?_eq_none.mp hget row hmem
        simp at this
    | some other =>
        have hother := List.mem_of_find?_eq_some hget
        have hkey : key other = key row := by simpa using List.find?_some hget
        rw [t.eq_of_key_eq hother hmem hkey]

theorem get_eq_none_iff {t : Table key} {k : κ} : t.get k = none ↔ ∀ row ∈ t.rows, key row ≠ k := by
  simp [get, List.find?_eq_none]

@[simp] theorem get_empty (k : κ) : (empty : Table key).get k = none := rfl

@[simp] theorem get_put_self (t : Table key) (row : ρ) : (t.put row).get (key row) = some row :=
  get_eq_some_iff.mpr ⟨mem_put.mpr (Or.inl rfl), rfl⟩

theorem get_put_of_ne (t : Table key) (row : ρ) {k : κ} (hk : k ≠ key row) :
    (t.put row).get k = t.get k := by
  apply Option.ext
  intro other
  rw [get_eq_some_iff, get_eq_some_iff, mem_put]
  constructor
  · rintro ⟨rfl | ⟨hmem, _⟩, hkey⟩
    · exact absurd hkey.symm hk
    · exact ⟨hmem, hkey⟩
  · rintro ⟨hmem, rfl⟩
    exact ⟨Or.inr ⟨hmem, hk⟩, rfl⟩

theorem get_erase_of_ne (t : Table key) {erased k : κ} (hk : k ≠ erased) :
    (t.erase erased).get k = t.get k := by
  apply Option.ext
  intro row
  rw [get_eq_some_iff, get_eq_some_iff, mem_erase]
  constructor
  · rintro ⟨⟨hmem, _⟩, hkey⟩
    exact ⟨hmem, hkey⟩
  · rintro ⟨hmem, rfl⟩
    exact ⟨⟨hmem, hk⟩, rfl⟩

theorem get_put (t : Table key) (row : ρ) (k : κ) :
    (t.put row).get k = if k = key row then some row else t.get k := by
  split_ifs with hk
  · rw [hk, get_put_self]
  · exact get_put_of_ne t row hk

/-- A column without duplicates keeps none when the new row's value is new. -/
theorem unique_put {β : Type} {column : ρ → β} {t : Table key} {new : ρ}
    (h : ∀ row ∈ t.rows, ∀ other ∈ t.rows, column row = column other → row = other)
    (hnew : ∀ row ∈ t.rows, column row ≠ column new) :
    ∀ row ∈ (t.put new).rows, ∀ other ∈ (t.put new).rows, column row = column other → row = other := by
  intro row hrow other hother heq
  rcases mem_put.mp hrow with rfl | ⟨hold, _⟩
  · rcases mem_put.mp hother with rfl | ⟨hold, _⟩
    · rfl
    · exact absurd heq.symm (hnew other hold)
  · rcases mem_put.mp hother with rfl | ⟨hold', _⟩
    · exact absurd heq (hnew row hold)
    · exact h row hold other hold' heq

/-- The only row a clause names after an insert is the new one, if it named none before. -/
theorem filter_put {t : Table key} {row : ρ} {named : ρ → Bool} (hrow : named row = true)
    (hnone : ∀ other ∈ t.rows, named other = false) : (t.put row).rows.filter named = [row] := by
  have hrest : (t.erase (key row)).rows.filter named = [] :=
    List.filter_eq_nil_iff.mpr fun other hother => by simp [hnone other (mem_erase.mp hother).1]
  rw [put, List.filter_cons_of_pos hrow, hrest]

theorem erase_of_get_eq_none {t : Table key} {k : κ} (hnone : t.get k = none) : t.erase k = t := by
  have hkept : ∀ other ∈ t.rows, (!decide (key other = k)) = true := by
    simpa using get_eq_none_iff.mp hnone
  obtain ⟨rows, hnodup⟩ := t
  simp only [erase, deleteWhere, mk.injEq]
  exact List.filter_eq_self.mpr hkept

/-- Deleting a row that was new when it was inserted gives the table back. -/
theorem erase_put_of_get_eq_none {t : Table key} {row : ρ} (hnone : t.get (key row) = none) :
    (t.put row).erase (key row) = t := by
  have hkept := erase_of_get_eq_none hnone
  obtain ⟨rows, hnodup⟩ := t
  simp only [put, erase, deleteWhere, mk.injEq] at hkept ⊢
  rw [List.filter_cons_of_neg (by simp), hkept, hkept]

/-- A row is put in the place of the one that has its key. -/
theorem touched_put {t : Table key} {new row : ρ} (h : Touched t (t.put new) row) :
    row = new ∨ t.get (key new) = some row := by
  by_contra hnot
  rw [not_or, get_eq_some_iff] at hnot
  refine h ?_
  rw [mem_put]
  constructor
  · intro hrow
    exact .inr ⟨hrow, fun hkey => hnot.2 ⟨hrow, hkey⟩⟩
  · rintro (hnew | ⟨hrow, _⟩)
    · exact absurd hnew hnot.1
    · exact hrow

theorem touched_put_of_get_eq_none {t : Table key} {new row : ρ} (hnone : t.get (key new) = none)
    (h : Touched t (t.put new) row) : row = new := by
  rcases touched_put h with rfl | hold
  · rfl
  · rw [hnone] at hold
    cases hold

/-- The rows whose key is new. -/
def added (before after : Table key) : List ρ := after.rows.filter fun row => !before.contains (key row)

theorem added_eq_nil {before after : Table key}
    (h : ∀ row ∈ after.rows, ∃ old ∈ before.rows, key old = key row) : before.added after = [] := by
  refine List.filter_eq_nil_iff.mpr fun row hrow => ?_
  obtain ⟨old, hold, hkey⟩ := h row hrow
  simp [contains, get_eq_some_iff.mpr ⟨hold, hkey⟩]

theorem added_put {t : Table key} {row : ρ} (hnone : t.get (key row) = none) :
    t.added (t.put row) = [row] := by
  refine filter_put (by simp [contains, hnone]) fun other hother => ?_
  simp [contains, get_eq_some_iff.mpr ⟨hother, rfl⟩]

end Table

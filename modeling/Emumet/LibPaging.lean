import Mathlib

/-! Paging through a list in the order of a key. A page starts after a cursor, which is the key of the
last row of the page before; the pages asked for that way are the consecutive cuts of the list. -/

namespace Paging

variable {α κ : Type}

/-- The cut of the list that is page number `index`. -/
def page (limit : Nat) (rows : List α) (index : Nat) : List α := (rows.drop (index * limit)).take limit

theorem split_page (limit : Nat) (rows : List α) (index : Nat) :
    rows = rows.take (index * limit) ++ (page limit rows index ++ rows.drop ((index + 1) * limit)) := by
  have hnext : rows.drop ((index + 1) * limit) = (rows.drop (index * limit)).drop limit := by
    rw [List.drop_drop, Nat.add_mul, Nat.one_mul]
  rw [hnext, page, List.take_append_drop, List.take_append_drop]

theorem page_eq_nil_iff {limit : Nat} (hlimit : 0 < limit) {rows : List α} {index : Nat} :
    page limit rows index = [] ↔ rows.length ≤ index * limit := by
  simp [page, hlimit.ne']

/-- The first pages together are the front of the list. -/
theorem flatten_pages (limit : Nat) (rows : List α) (count : Nat) :
    ((List.range count).map (page limit rows)).flatten = rows.take (count * limit) := by
  induction count with
  | zero => simp
  | succ count ih =>
      rw [List.range_succ, List.map_append, List.flatten_append, ih]
      simp only [page, List.map_cons, List.map_nil, List.flatten_cons, List.flatten_nil,
        List.append_nil]
      rw [← List.take_add, Nat.add_mul, Nat.one_mul]

/-- A clause that keeps nothing up to a place and everything from there on. -/
theorem filter_append_eq_right {front back : List α} {keep : α → Bool}
    (hfront : ∀ row ∈ front, keep row = false) (hback : ∀ row ∈ back, keep row = true) :
    (front ++ back).filter keep = back := by
  have hnone : front.filter keep = [] :=
    List.filter_eq_nil_iff.mpr fun row hrow => by simp [hfront row hrow]
  rw [List.filter_append, hnone, List.filter_eq_self.mpr hback, List.nil_append]

section Cursor

variable [LinearOrder κ] (key : α → κ)

/-- The rows after a cursor; all of them without one. -/
def after (rows : List α) (cursor : Option κ) : List α := rows.filter fun row => cursor.all (· < key row)

@[simp] theorem after_none (rows : List α) : after key rows none = rows := by
  simp [after]

theorem after_key {front back : List α} {row : α}
    (hsorted : (front ++ row :: back).Pairwise fun a b => key a < key b) :
    after key (front ++ row :: back) (some (key row)) = back := by
  rw [List.pairwise_append, List.pairwise_cons] at hsorted
  obtain ⟨-, ⟨hback, -⟩, hfront⟩ := hsorted
  rw [after, List.append_cons]
  refine filter_append_eq_right (fun other hother => ?_) fun other hother => ?_
  · rcases List.mem_append.mp hother with hbefore | hself
    · simpa using (hfront other hbefore row List.mem_cons_self).le
    · simp [List.mem_singleton.mp hself]
  · simpa using hback other hother

/-- After the last row of a page come the pages that follow it. -/
theorem after_page {limit : Nat} {rows : List α} {index : Nat} {last : α}
    (hsorted : rows.Pairwise fun a b => key a < key b)
    (hlast : (page limit rows index).getLast? = some last) :
    after key rows (some (key last)) = rows.drop ((index + 1) * limit) := by
  obtain ⟨front, hpage⟩ := List.getLast?_eq_some_iff.mp hlast
  have hrows : rows = (rows.take (index * limit) ++ front) ++
      last :: rows.drop ((index + 1) * limit) := by
    conv_lhs => rw [split_page limit rows index, hpage]
    simp
  rw [hrows] at hsorted
  have hafter := after_key key hsorted
  rwa [← hrows] at hafter

end Cursor

/-! ### Asking for page after page -/

section Walk

/-- Pages asked for one after the other until one is empty, each with a cursor taken from the page
before it. -/
def walk (ask : Option α → List α) (cursorOf : List α → Option α) : Nat → Option α → List (List α)
  | 0, _ => []
  | calls + 1, cursor =>
      if (ask cursor).isEmpty then []
      else ask cursor :: walk ask cursorOf calls (cursorOf (ask cursor))

variable {ask : Option α → List α} {cursorOf : List α → Option α} {limit calls : Nat} {rows : List α}

/-- Pages that are turned around give the cursors of the other end. -/
theorem walk_reverse (ask : Option α → List α) (calls : Nat) (cursor : Option α) :
    walk (fun cursor => (ask cursor).reverse) List.head? calls cursor =
      (walk ask List.getLast? calls cursor).map List.reverse := by
  induction calls generalizing cursor with
  | zero => rfl
  | succ calls ih =>
      simp only [walk, List.isEmpty_reverse, List.head?_reverse, ih]
      split_ifs
      · rfl
      · rfl

theorem page_succ (limit : Nat) (rows : List α) (index : Nat) :
    page limit rows (index + 1) = page limit (rows.drop limit) index := by
  rw [page, page, List.drop_drop, Nat.add_mul, Nat.one_mul, Nat.add_comm]

/-- A list that is not empty has one page more than what follows its first page. -/
theorem ceilDiv_length (hlimit : 0 < limit) (hne : rows ≠ []) :
    rows.length ⌈/⌉ limit = (rows.drop limit).length ⌈/⌉ limit + 1 := by
  have hpos := List.length_pos_iff.mpr hne
  rw [List.length_drop, Nat.ceilDiv_eq_add_pred_div, Nat.ceilDiv_eq_add_pred_div,
    ← Nat.add_div_right _ hlimit]
  by_cases hlong : limit ≤ rows.length
  · congr 1
    omega
  · -- a single page
    have hlast : rows.length - limit = 0 := by omega
    have hone : (rows.length + limit - 1) / limit = 1 := Nat.div_eq_of_lt_le (by omega) (by omega)
    have hnothing : (0 + limit - 1 + limit) / limit = 1 := Nat.div_eq_of_lt_le (by omega) (by omega)
    rw [hlast, hone, hnothing]

/-- Where a page starts after its cursor, the pages asked for are the cuts of the list. -/
theorem walk_eq_pages (hlimit : 0 < limit)
    (hask : ∀ front row back, rows = front ++ row :: back → ask (some row) = back.take limit)
    {front remaining : List α} (hrows : rows = front ++ remaining) {cursor : Option α}
    (hcursor : ask cursor = remaining.take limit) (hcalls : remaining.length ≤ calls * limit) :
    walk ask List.getLast? calls cursor =
      (List.range (remaining.length ⌈/⌉ limit)).map (page limit remaining) := by
  induction calls generalizing front remaining cursor with
  | zero =>
      obtain rfl : remaining = [] := List.length_eq_zero_iff.mp (by omega)
      simp [walk]
  | succ calls ih =>
      by_cases hnone : remaining = []
      · subst hnone
        simp [walk, hcursor]
      · have hpage : remaining.take limit ≠ [] := by simp [hnone, hlimit.ne']
        -- the rest of the walk starts after the last row of this page
        have hsplit : rows = (front ++ remaining.take limit) ++ remaining.drop limit := by
          rw [List.append_assoc, List.take_append_drop, hrows]
        have hnext : ask (remaining.take limit).getLast? = (remaining.drop limit).take limit := by
          rw [List.getLast?_eq_getLast_of_ne_nil hpage]
          refine hask (front ++ (remaining.take limit).dropLast) _ _ ?_
          conv_lhs => rw [hsplit, ← List.dropLast_append_getLast hpage]
          simp
        have hrest : (remaining.drop limit).length ≤ calls * limit := by
          rw [List.length_drop, Nat.sub_le_iff_le_add]
          linarith [Nat.succ_mul calls limit]
        rw [walk, hcursor, if_neg (mt List.isEmpty_iff.mp hpage), ih hsplit hnext hrest,
          ceilDiv_length hlimit hnone, List.range_succ_eq_map, List.map_cons, List.map_map]
        simp only [Function.comp_def, Nat.succ_eq_add_one, page_succ]
        simp [page]

/-- The cuts of a list together are the list. -/
theorem flatten_all_pages (hlimit : 0 < limit) (rows : List α) :
    ((List.range (rows.length ⌈/⌉ limit)).map (page limit rows)).flatten = rows := by
  rw [flatten_pages, List.take_of_length_le]
  rw [Nat.mul_comm]
  exact (ceilDiv_le_iff_le_mul hlimit).mp (le_refl _)

/-- The cuts made from the end, each turned around, are the list from its last cut to its first. -/
theorem flatten_all_pages_reverse (hlimit : 0 < limit) (rows : List α) :
    ((List.range (rows.length ⌈/⌉ limit)).map fun index =>
      (page limit rows.reverse index).reverse).reverse.flatten = rows := by
  have hflat := flatten_all_pages hlimit rows.reverse
  rw [List.length_reverse] at hflat
  rw [← List.reverse_inj, List.reverse_flatten]
  simpa [List.map_reverse, Function.comp_def] using hflat

end Walk

end Paging

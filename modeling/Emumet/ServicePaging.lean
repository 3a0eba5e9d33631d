import Emumet.LibProjection
import Emumet.ServiceAccountListing

/-! Paging in both directions. What is asked for is a cut of the sorted list next to the cursor, so the
pages of a walk are the consecutive cuts of the list from the end where it starts, and a step in one
direction takes back a step in the other. -/

namespace Emumet

namespace MirrorPages

variable {T : Type} [Ord T] {vec front back rows : List T} {limit : Nat} {row : T}

/-- The pages that `NEXT` gives, the cursor being the last element of the page before. -/
def forward (vec : List T) (limit calls : Nat) : List (List T) :=
  Paging.walk (fun cursor => applyPagination vec limit cursor .NEXT) List.getLast? calls none

/-- The pages that `PREV` gives, the cursor being the first element of the page before. -/
def backward (vec : List T) (limit calls : Nat) : List (List T) :=
  Paging.walk (fun cursor => applyPagination vec limit cursor .PREV) List.head? calls none

def Ascending (rows : List T) : Prop := rows.Pairwise fun a b => compare a b = .lt

/-- No two elements compare equal. -/
def Distinct (vec : List T) : Prop := vec.Pairwise fun a b => compare a b ≠ .eq

def sorted (vec : List T) : List T := vec.insertionSort fun a b => (compare a b).isLE

theorem perm_sorted (vec : List T) : (sorted vec).Perm vec := List.perm_insertionSort _ _

theorem lt_of_isLE {a b : T} (hle : (compare a b).isLE = true) (hne : compare a b ≠ .eq) :
    compare a b = .lt := by
  cases hcompare : compare a b with
  | lt => rfl
  | eq => exact absurd hcompare hne
  | gt => simp [hcompare] at hle

theorem Ascending.compare_lt (h : Ascending (front ++ row :: back)) :
    (∀ other ∈ front, compare other row = .lt) ∧ ∀ other ∈ back, compare row other = .lt := by
  obtain ⟨_, hback, hfront⟩ := List.pairwise_append.mp h
  exact ⟨fun other hother => hfront other hother row List.mem_cons_self,
    (List.pairwise_cons.mp hback).1⟩

theorem next_none (vec : List T) (limit : Nat) :
    applyPagination vec limit none .NEXT = (sorted vec).take limit := by
  simp [applyPagination, sorted]

variable [Std.TransOrd T]

theorem isLE_total (a b : T) : (compare a b).isLE = true ∨ (compare b a).isLE = true := by
  rw [Std.OrientedOrd.eq_swap (a := b)]
  cases compare a b with
  | lt => exact .inl rfl
  | eq => exact .inl rfl
  | gt => exact .inr rfl

theorem Distinct.perm (h : Distinct vec) (hperm : rows.Perm vec) : Distinct rows := by
  refine (hperm.pairwise_iff fun {a b} hne heq => hne ?_).mpr h
  exact Std.OrientedCmp.eq_comm.mp heq

theorem ascending_sorted (h : Distinct vec) : Ascending (sorted vec) := by
  have : Std.Total fun a b : T => (compare a b).isLE = true := ⟨isLE_total⟩
  have : IsTrans T fun a b => (compare a b).isLE = true := ⟨fun _ _ _ => Std.TransCmp.isLE_trans⟩
  have hle : (sorted vec).Pairwise fun a b => (compare a b).isLE = true :=
    List.pairwise_insertionSort _ _
  exact hle.imp₂ (fun a b hle hne => lt_of_isLE hle hne) (h.perm (perm_sorted vec))

/-- The other order is the same list read backwards. -/
theorem descending_eq (h : Distinct vec) :
    vec.insertionSort (fun a b => (compare b a).isLE) = (sorted vec).reverse := by
  have : Std.Total fun a b : T => (compare b a).isLE = true := ⟨fun a b => isLE_total b a⟩
  have : IsTrans T fun a b => (compare b a).isLE = true :=
    ⟨fun _ _ _ hab hbc => Std.TransCmp.isLE_trans hbc hab⟩
  have hperm : (vec.insertionSort fun a b => (compare b a).isLE).Perm vec :=
    List.perm_insertionSort _ _
  have hle : (vec.insertionSort fun a b => (compare b a).isLE).Pairwise
      fun a b => (compare b a).isLE = true := List.pairwise_insertionSort _ _
  have hdown : (vec.insertionSort fun a b => (compare b a).isLE).Pairwise
      fun a b => compare b a = .lt :=
    hle.imp₂ (fun a b hle hne => lt_of_isLE hle fun heq => hne (Std.OrientedCmp.eq_comm.mp heq))
      (h.perm hperm)
  have hreverse : (sorted vec).reverse.Pairwise fun a b => compare b a = .lt :=
    List.pairwise_reverse.mpr (ascending_sorted h)
  refine List.Perm.eq_of_pairwise (fun a b _ _ hab hba => ?_) hdown hreverse
    (hperm.trans ((perm_sorted vec).symm.trans (List.reverse_perm _).symm))
  exact absurd hab (Std.OrientedCmp.not_lt_of_lt hba)

/-! ### The page on either side of an element -/

theorem next_after (h : Distinct vec) (hsplit : sorted vec = front ++ row :: back) :
    applyPagination vec limit (some row) .NEXT = back.take limit := by
  have hascending := ascending_sorted h
  rw [hsplit] at hascending
  obtain ⟨hfront, hback⟩ := hascending.compare_lt
  have hsort : (vec.insertionSort fun a b => (compare a b).isLE) = (front ++ [row]) ++ back := by
    rw [← List.append_cons]
    exact hsplit
  rw [applyPagination, hsort, Paging.filter_append_eq_right]
  · intro other hother
    rcases List.mem_append.mp hother with hbefore | hself
    · simp [hfront other hbefore]
    · rw [List.mem_singleton.mp hself]
      simp
  · intro other hother
    simp [Std.OrientedCmp.gt_iff_lt.mpr (hback other hother)]

theorem prev_before (h : Distinct vec) (hsplit : sorted vec = front ++ row :: back) :
    applyPagination vec limit (some row) .PREV = (front.reverse.take limit).reverse := by
  have hascending := ascending_sorted h
  rw [hsplit] at hascending
  obtain ⟨hfront, hback⟩ := hascending.compare_lt
  have hsort : (vec.insertionSort fun a b => (compare b a).isLE) =
      (back.reverse ++ [row]) ++ front.reverse := by
    rw [descending_eq h, hsplit]
    simp
  rw [applyPagination, hsort, Paging.filter_append_eq_right]
  · intro other hother
    rcases List.mem_append.mp hother with hbefore | hself
    · simp [Std.OrientedCmp.gt_iff_lt.mpr (hback other (List.mem_reverse.mp hbefore))]
    · rw [List.mem_singleton.mp hself]
      simp
  · intro other hother
    simp [hfront other (List.mem_reverse.mp hother)]

/-! ### Walks -/

theorem prev_none (h : Distinct vec) (limit : Nat) :
    applyPagination vec limit none .PREV = ((sorted vec).reverse.take limit).reverse := by
  simp [applyPagination, descending_eq h]

theorem forward_eq (h : Distinct vec) (hlimit : 1 ≤ limit) {calls : Nat}
    (hcalls : vec.length ≤ calls * limit) :
    forward vec limit calls =
      (List.range (vec.length ⌈/⌉ limit)).map (Paging.page limit (sorted vec)) := by
  rw [← (perm_sorted vec).length_eq] at hcalls ⊢
  exact Paging.walk_eq_pages hlimit (fun _ _ _ hsplit => next_after h hsplit)
    (List.nil_append _).symm (next_none vec limit) hcalls

theorem backward_eq (h : Distinct vec) (hlimit : 1 ≤ limit) {calls : Nat}
    (hcalls : vec.length ≤ calls * limit) :
    backward vec limit calls = (List.range (vec.length ⌈/⌉ limit)).map fun index =>
      (Paging.page limit (sorted vec).reverse index).reverse := by
  have hlength : (sorted vec).reverse.length = vec.length :=
    List.length_reverse.trans (perm_sorted vec).length_eq
  -- turned around, the pages start after their cursors in the list read backwards
  have hask : ∀ front row back, (sorted vec).reverse = front ++ row :: back →
      (applyPagination vec limit (some row) .PREV).reverse = back.take limit := by
    intro front row back hsplit
    have hsorted : sorted vec = back.reverse ++ row :: front.reverse := by
      rw [← List.reverse_reverse (sorted vec), hsplit]
      simp
    rw [prev_before h hsorted, List.reverse_reverse, List.reverse_reverse]
  have hfirst : (applyPagination vec limit none .PREV).reverse = (sorted vec).reverse.take limit := by
    rw [prev_none h, List.reverse_reverse]
  rw [← hlength] at hcalls ⊢
  have hwalk : Paging.walk (fun cursor => (applyPagination vec limit cursor .PREV).reverse)
      List.getLast? calls none = _ :=
    Paging.walk_eq_pages hlimit hask (List.nil_append _).symm hfirst hcalls
  have hturned := Paging.walk_reverse
    (fun cursor => (applyPagination vec limit cursor .PREV).reverse) calls none
  simp only [List.reverse_reverse] at hturned
  rw [backward, hturned, hwalk, List.map_map]
  rfl

/-! ### There and back -/

/-- What is above an element is an end of the list. -/
theorem exists_next_eq (h : Distinct vec) (limit : Nat) (cursor : Option T) :
    ∃ front rest, sorted vec = front ++ rest ∧
      applyPagination vec limit cursor .NEXT = rest.take limit := by
  cases cursor with
  | none => exact ⟨[], sorted vec, rfl, next_none vec limit⟩
  | some cursor =>
      have hsplit := Projection.filter_append_filter_not (p := fun x => !(compare x cursor).isGT)
        ((ascending_sorted h).imp fun {a b} hlt hbelow => ?_)
      · refine ⟨_, _, hsplit.symm, ?_⟩
        simp [applyPagination, sorted]
      · simp only [Bool.not_eq_true', ← Bool.not_eq_true, Ordering.isGT_iff_eq_gt,
          Std.OrientedCmp.gt_iff_lt] at hbelow ⊢
        exact fun habove => hbelow (Std.TransCmp.lt_trans habove hlt)

/-- After a page comes the one that starts where it ends, and before that one comes the page. -/
theorem prev_of_next (h : Distinct vec) (hlimit : 1 ≤ limit) (cursor : Option T) :
    let first := applyPagination vec limit cursor .NEXT
    let second := applyPagination vec limit first.getLast? .NEXT
    second ≠ [] → applyPagination vec limit second.head? .PREV = first := by
  intro first second hsecond
  obtain ⟨front, rest, hsorted, hfirst⟩ := exists_next_eq h limit cursor
  by_cases hempty : first = []
  · -- without a last element the second page is that of no cursor, and nothing is before it
    have hstart : second = (sorted vec).take limit := by
      simp only [second, hempty, List.getLast?_nil, next_none]
    rw [hstart] at hsecond ⊢
    obtain ⟨row, back, hrows⟩ : ∃ row back, sorted vec = [] ++ row :: back :=
      List.exists_cons_of_ne_nil fun hnil => hsecond (by simp [hnil])
    have hhead : ((sorted vec).take limit).head? = some row := by
      rw [hrows, List.head?_take, if_neg (by omega)]
      rfl
    rw [hhead, prev_before h hrows, hempty]
    simp
  · have hpage : rest.take limit ≠ [] := by
      rw [← hfirst]
      exact hempty
    have hlast : sorted vec =
        (front ++ (rest.take limit).dropLast) ++ (rest.take limit).getLast hpage :: rest.drop limit := by
      conv_lhs => rw [hsorted, ← List.take_append_drop limit rest,
        ← List.dropLast_append_getLast hpage]
      simp
    have hnext : second = (rest.drop limit).take limit := by
      simp only [second, first, hfirst, List.getLast?_eq_getLast_of_ne_nil hpage]
      exact next_after h hlast
    obtain ⟨row, back, hrest⟩ : ∃ row back, rest.drop limit = row :: back :=
      List.exists_cons_of_ne_nil fun hnil => hsecond (by rw [hnext, hnil, List.take_nil])
    have hhead : second.head? = some row := by
      rw [hnext, hrest, List.head?_take, if_neg (by omega)]
      rfl
    have hfull : (rest.take limit).length = limit := by
      have hlength := congrArg List.length hrest
      simp only [List.length_drop, List.length_cons] at hlength
      rw [List.length_take]
      omega
    have hrows : sorted vec = (front ++ rest.take limit) ++ row :: back := by
      rw [hsorted, ← hrest, List.append_assoc, List.take_append_drop]
    rw [hhead, prev_before h hrows, List.reverse_append]
    have hlength : (rest.take limit).reverse.length = limit := by rw [List.length_reverse, hfull]
    rw [List.take_append_of_le_length hlength.ge, List.take_of_length_le hlength.le,
      List.reverse_reverse]
    exact hfirst.symm

/-- For elements of which no two compare equal there is one ascending list. `NEXT` after the last element
of each page walks through its cuts from the start, and `PREV` before the first element of each page
through its cuts from the end, each of them ascending; `PREV` before a page gives back the page that
`NEXT` gave before it. Under a linear order only equal elements compare equal. -/
theorem paging_directions_mirror (vec : List T)
    (hdistinct : vec.Pairwise fun a b => compare a b ≠ .eq) (limit : Nat) (hlimit : 1 ≤ limit) :
    ∃ rows : List T, rows.Perm vec ∧ (rows.Pairwise fun a b => compare a b = .lt) ∧
      (∀ calls, vec.length ≤ calls * limit →
        forward vec limit calls =
            (List.range (vec.length ⌈/⌉ limit)).map (Paging.page limit rows) ∧
          (forward vec limit calls).flatten = rows ∧
          (backward vec limit calls = (List.range (vec.length ⌈/⌉ limit)).map fun index =>
            (Paging.page limit rows.reverse index).reverse) ∧
          (backward vec limit calls).reverse.flatten = rows ∧
          ∀ page ∈ backward vec limit calls, page.Pairwise fun a b => compare a b = .lt) ∧
      ∀ cursor : Option T,
        let first := applyPagination vec limit cursor .NEXT
        let second := applyPagination vec limit first.getLast? .NEXT
        second ≠ [] → applyPagination vec limit second.head? .PREV = first := by
  have hlength : (sorted vec).length = vec.length := (perm_sorted vec).length_eq
  refine ⟨sorted vec, perm_sorted vec, ascending_sorted hdistinct, fun calls hcalls => ?_,
    prev_of_next hdistinct hlimit⟩
  have hforward := forward_eq hdistinct hlimit hcalls
  have hbackward := backward_eq hdistinct hlimit hcalls
  refine ⟨hforward, ?_, hbackward, ?_, ?_⟩
  · rw [hforward, ← hlength]
    exact Paging.flatten_all_pages hlimit _
  · rw [hbackward, ← hlength]
    exact Paging.flatten_all_pages_reverse hlimit _
  · intro page hpage
    rw [hbackward] at hpage
    obtain ⟨index, _, rfl⟩ := List.mem_map.mp hpage
    rw [List.pairwise_reverse]
    have hreverse := List.pairwise_reverse.mpr (ascending_sorted hdistinct)
    exact hreverse.sublist ((List.take_sublist _ _).trans (List.drop_sublist _ _))

end MirrorPages

/-- Accounts are paged by their ids. -/
instance : Std.TransOrd Account := inferInstanceAs (Std.TransCmp (compareOn Account.id))

namespace MirrorPages

/-- An account as it is created with an id. -/
def accountOf (id : AccountId) : Account :=
  ⟨id, "account", false, .Active, none, 1, "nanoid", 0⟩

theorem paging_directions_mirror_accounts :
    ∃ rows, rows.Perm ([5, 9, 7].map accountOf) ∧
      (forward ([5, 9, 7].map accountOf) 2 3).flatten = rows ∧
      (backward ([5, 9, 7].map accountOf) 2 3).reverse.flatten = rows := by
  obtain ⟨rows, hperm, _, hwalks, _⟩ :=
    paging_directions_mirror ([5, 9, 7].map accountOf) (by decide) 2 (by decide)
  obtain ⟨_, hforward, _, hbackward, _⟩ := hwalks 3 (by decide)
  exact ⟨rows, hperm, hforward, hbackward⟩

end MirrorPages

end Emumet

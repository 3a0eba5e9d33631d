import Emumet.ServiceExclusion

/-! What `remove_follows_between` leaves. Each of its two loops lists the follows of one end and deletes
those to the other end by id, with an error for an id that is not there; on a table whose rows can all
be read, no id is missing and the table loses exactly the rows between the ends. -/

namespace Emumet

namespace FollowRemoval

open Relations

/-! ### Deleting one by one -/

/-- Deleting follows by their ids, which are different and all there, deletes the rows with these
ids. -/
theorem deletes_eq_ok {follows : List Follow} {db : Db} (hnodup : (follows.map Follow.id).Nodup)
    (hstored : ∀ follow ∈ follows, db.follows.contains follow.id = true) :
    follows.foldlM (fun db follow => FollowRepository.delete db follow.id) db =
      .ok { db with follows := db.follows.deleteWhere fun row => row.id ∈ follows.map Follow.id } := by
  induction follows generalizing db with
  | nil =>
      have hall : db.follows.deleteWhere (fun row => row.id ∈ ([] : List Follow).map Follow.id) =
          db.follows := by
        simp [Table.deleteWhere]
      rw [hall]
      rfl
  | cons first follows ih =>
      obtain ⟨hnotMem, hrest⟩ := List.nodup_cons.mp hnodup
      have hfirst : FollowRepository.delete db first.id =
          .ok { db with follows := db.follows.erase first.id } :=
        if_pos (hstored first List.mem_cons_self)
      have hstored' : ∀ follow ∈ follows,
          (db.follows.erase first.id).contains follow.id = true := by
        intro follow hfollow
        have hne : follow.id ≠ first.id := fun heq =>
          hnotMem (heq ▸ List.mem_map_of_mem hfollow)
        rw [Table.contains, Table.get_erase_of_ne _ hne]
        exact hstored follow (List.mem_cons_of_mem _ hfollow)
      rw [List.foldlM_cons, hfirst]
      refine (@ih { db with follows := db.follows.erase first.id } hrest hstored').trans ?_
      rw [Table.erase, Table.deleteWhere_deleteWhere]
      simp only [List.map_cons, List.mem_cons, Bool.decide_or]

/-- The follows that are read from rows have the ids of the rows. -/
theorem ids_of_mapM {rows : List FollowRow} {follows : List Follow}
    (h : rows.mapM FollowRow.toFollow = .ok follows) : follows.map Follow.id = rows.map FollowRow.id := by
  have hpaired := Fallible.mapM_eq_ok_iff.mp h
  induction hpaired with
  | nil => rfl
  | cons hfirst _ ih =>
      rw [List.map_cons, List.map_cons, (relates_of_toFollow hfirst).1, ih (Fallible.mapM_eq_ok_iff.mpr ‹_›)]

/-- Every row can be read back as a follow. -/
def Readable (db : Db) : Prop := ∀ row ∈ db.follows.rows, ∃ follow, row.toFollow = .ok follow

variable {db : Db} {source destination a b : FollowTargetId}

/-- The loop over the follows of one end. -/
theorem removeFollows_eq_ok (hreadable : Readable db) :
    removeFollows source destination db =
      .ok { db with follows := db.follows.deleteWhere (·.relates source destination) } := by
  obtain ⟨followings, hfollowings⟩ := Fallible.exists_forall₂ (R := fun row follow =>
    FollowRow.toFollow row = .ok follow) (l := db.follows.select (·.hasFollower source))
    fun row hrow => hreadable row (List.mem_filter.mp hrow).1
  have hfind : FollowRepository.findFollowings db source = .ok followings :=
    Fallible.mapM_eq_ok_iff.mpr hfollowings
  have hids := ids_of_mapM hfind
  have hnodup : ((followings.filter (·.destination = destination)).map Follow.id).Nodup := by
    refine List.Nodup.sublist (List.filter_sublist.map Follow.id) ?_
    rw [hids]
    exact db.follows.nodup.sublist (List.filter_sublist.map FollowRow.id)
  have hstored : ∀ follow ∈ followings.filter (·.destination = destination),
      db.follows.contains follow.id = true := by
    intro follow hfollow
    obtain ⟨row, hrow, hread⟩ := Fallible.exists_of_mem_results hfind (List.mem_filter.mp hfollow).1
    rw [Table.contains, Table.get_eq_some_iff.mpr
      ⟨(List.mem_filter.mp hrow).1, (relates_of_toFollow hread).1.symm⟩]
    rfl
  have hok : removeFollows source destination db = .ok { db with
      follows := db.follows.deleteWhere fun row =>
        row.id ∈ (followings.filter (·.destination = destination)).map Follow.id } := by
    rw [removeFollows, hfind]
    exact deletes_eq_ok hnodup hstored
  rw [hok]
  -- the rows with the ids of the listed follows are those between the two ends
  congr 2
  refine Table.deleteWhere_congr fun row hrow => ?_
  have hkept := (removeFollows_ok hok).2 row
  rw [Table.mem_deleteWhere] at hkept
  rw [Bool.eq_iff_iff, ← not_iff_not, Bool.not_eq_true, Bool.not_eq_true]
  simpa [hrow] using hkept

theorem Readable.deleteWhere (h : Readable db) (gone : FollowRow → Bool) :
    Readable { db with follows := db.follows.deleteWhere gone } :=
  fun row hrow => h row (Table.mem_deleteWhere.mp hrow).1

/-- The removal succeeds and takes away exactly the rows between the two ends, in either order of
them. -/
theorem follows_between_removed (db : Db) (hreadable : Readable db) (a b : FollowTargetId) :
    removeFollowsBetween a b db = .ok { db with
        follows := db.follows.deleteWhere fun row => row.relates a b || row.relates b a } ∧
      removeFollowsBetween b a db = removeFollowsBetween a b db := by
  have hboth : ∀ x y, removeFollowsBetween x y db = .ok { db with
      follows := db.follows.deleteWhere fun row => row.relates x y || row.relates y x } := by
    intro x y
    rw [removeFollowsBetween, removeFollows_eq_ok hreadable]
    refine (removeFollows_eq_ok (hreadable.deleteWhere _)).trans ?_
    rw [Table.deleteWhere_deleteWhere]
  refine ⟨hboth a b, ?_⟩
  rw [hboth a b, hboth b a]
  simp only [Bool.or_comm]

/-- Accounts 7 and 10 follow each other, one of the follows pending; 11 follows 7. -/
def threeFollows : Db :=
  { Db.empty with
    follows := ((Table.empty.put (.ofFollow ⟨1, .Remote 10, .Local 7, some 5, rfl⟩)).put
      (.ofFollow ⟨2, .Local 7, .Remote 10, none, rfl⟩)).put
        (.ofFollow ⟨3, .Remote 11, .Local 7, some 6, rfl⟩) }

theorem readable_threeFollows : Readable threeFollows := by
  intro row hrow
  have hrows : threeFollows.follows.rows = [.ofFollow ⟨3, .Remote 11, .Local 7, some 6, rfl⟩,
      .ofFollow ⟨2, .Local 7, .Remote 10, none, rfl⟩, .ofFollow ⟨1, .Remote 10, .Local 7, some 5, rfl⟩] := by
    decide +kernel
  rw [hrows] at hrow
  fin_cases hrow <;> exact ⟨_, rfl⟩

theorem follows_between_removed_threeFollows :
    threeFollows.follows.rows.length = 3 ∧
      removeFollowsBetween (.Remote 10) (.Local 7) threeFollows = .ok { threeFollows with
        follows := threeFollows.follows.deleteWhere fun row =>
          row.relates (.Remote 10) (.Local 7) || row.relates (.Local 7) (.Remote 10) } :=
  ⟨by decide +kernel,
    (follows_between_removed threeFollows readable_threeFollows (.Remote 10) (.Local 7)).1⟩

end FollowRemoval

end Emumet

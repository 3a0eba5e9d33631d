import Emumet.LibRelation
import Emumet.ServiceAccepts
import Emumet.ServiceFollowRemoval
import Emumet.ServiceSentUndo

/-! The relations of a database under names that mean the same on every instance: a local account is
named by its id and a remote one by the URL of its actor. The ids of remote accounts, which differ from
instance to instance, disappear, and every statement of the relation use cases changes the relations at
one pair of names. -/

namespace Emumet

namespace Links

open Relations Names

inductive Party where
  | here (id : AccountId)
  | there (url : String)
  deriving DecidableEq, Repr

/-- The end a name stands for. -/
def target (db : Db) : Party → Option TargetId
  | .here id => some (.Local id)
  | .there url => (RemoteAccountRepository.findByUrl db url).map fun remote => .Remote remote.id

/-- The follows with their ids and whether they are approved, and the blocks with their ids. -/
structure View where
  follows : Party × Party → Option (FollowId × Bool)
  blocks : Party × Party → Option BlockId

def followRow (db : Db) (x y : TargetId) : Option (FollowId × Bool) :=
  (db.follows.between FollowRow.relates x y).map fun row => (row.id, row.approvedAt.isSome)

def blockRow (db : Db) (x y : TargetId) : Option BlockId :=
  (db.blocks.between BlockRow.relates x y).map BlockRow.id

def view (db : Db) : View where
  follows := named (target db) (followRow db)
  blocks := named (target db) (blockRow db)

namespace View

def setFollow (p q : Party) (value : Option (FollowId × Bool)) (v : View) : View :=
  { v with follows := Function.update v.follows (p, q) value }

def approve (p q : Party) (v : View) : View :=
  v.setFollow p q ((v.follows (p, q)).map fun follow => (follow.1, true))

def setBlock (p q : Party) (value : Option BlockId) (v : View) : View :=
  { v with blocks := Function.update v.blocks (p, q) value }

/-- No follow in either direction. -/
def sever (p q : Party) (v : View) : View := (v.setFollow p q none).setFollow q p none

end View

/-! ### Databases the constraints allow -/

/-- The remote account of an end is stored. -/
def Known (db : Db) : TargetId → Prop
  | .Local _ => True
  | .Remote id => (db.remoteAccounts.get id).isSome = true

/-- What the constraints and the use cases keep of the tables of relations and remote accounts. A handle
that is `listed` with a URL is used by no other remote account. -/
structure Sound (listed : String → String → Prop) (db : Db) : Prop where
  followEnds : ∀ row ∈ db.follows.rows, ∀ x y, row.relates x y = true → Known db x ∧ Known db y
  followPairs : Accepts.UniquePairs db
  readable : FollowRemoval.Readable db
  blockEnds : ∀ row ∈ db.blocks.rows, ∀ x y, row.relates x y = true → Known db x ∧ Known db y
  blockPairs : ∀ row ∈ db.blocks.rows, ∀ other ∈ db.blocks.rows, ∀ x y,
    row.relates x y = true → other.relates x y = true → row = other
  urls : UrlsUnique db
  icons : ∀ remote ∈ db.remoteAccounts.rows, remote.iconId.all db.images.contains = true
  handles : ∀ remote ∈ db.remoteAccounts.rows, ∀ url, listed remote.acct url → remote.url = url

/-- A change of the database that is the given change of its relations. -/
structure Becomes (listed : String → String → Prop) (change : View → View) (before after : Db) :
    Prop where
  sound : Sound listed after
  view : view after = change (view before)
  accounts : after.accounts = before.accounts
  known : ∀ p x, target before p = some x → target after p = some x

variable {listed : String → String → Prop} {db after : Db} {p q : Party} {x y : TargetId}

theorem Becomes.trans {f g : View → View} {before mid after : Db} (h : Becomes listed f before mid)
    (h' : Becomes listed g mid after) : Becomes listed (fun v => g (f v)) before after :=
  ⟨h'.sound, by rw [h'.view, h.view], h'.accounts.trans h.accounts,
    fun p x hp => h'.known p x (h.known p x hp)⟩

theorem Becomes.refl (h : Sound listed db) : Becomes listed id db db := ⟨h, rfl, rfl, fun _ _ hp => hp⟩

/-! ### Names -/

theorem target_injective (db : Db) (p p' : Party) (x : TargetId) (hp : target db p = some x)
    (hp' : target db p' = some x) : p = p' := by
  cases p with
  | here id =>
      cases hp
      cases p' with
      | here id' =>
          cases hp'
          rfl
      | there url => simp [target] at hp'
  | there url =>
      obtain ⟨remote, hremote, rfl⟩ := Option.map_eq_some_iff.mp hp
      cases p' with
      | here id' => simp [target] at hp'
      | there url' =>
          obtain ⟨other, hother, hid⟩ := Option.map_eq_some_iff.mp hp'
          have hsame := db.remoteAccounts.eq_of_key_eq (List.mem_of_find?_eq_some hother)
            (List.mem_of_find?_eq_some hremote) (TargetId.Remote.inj hid)
          have hurl : remote.url = url := by simpa using List.find?_some hremote
          have hurl' : other.url = url' := by simpa using List.find?_some hother
          rw [← hurl, ← hurl', hsame]

theorem known_of_target (h : target db p = some x) : Known db x := by
  cases p with
  | here id =>
      cases h
      trivial
  | there url =>
      obtain ⟨remote, hremote, rfl⟩ := Option.map_eq_some_iff.mp h
      rw [Known, Table.get_eq_some_iff.mpr ⟨List.mem_of_find?_eq_some hremote, rfl⟩]
      rfl

theorem followRow_none_of_unknown (h : Sound listed db) (hx : ¬Known db x) (y : TargetId) :
    followRow db x y = none ∧ followRow db y x = none := by
  simp only [followRow, Option.map_eq_none_iff, Table.between, List.find?_eq_none]
  exact ⟨fun row hrow hrelates => hx (h.followEnds row hrow x y hrelates).1,
    fun row hrow hrelates => hx (h.followEnds row hrow y x hrelates).2⟩

theorem blockRow_none_of_unknown (h : Sound listed db) (hx : ¬Known db x) (y : TargetId) :
    blockRow db x y = none ∧ blockRow db y x = none := by
  simp only [blockRow, Option.map_eq_none_iff, Table.between, List.find?_eq_none]
  exact ⟨fun row hrow hrelates => hx (h.blockEnds row hrow x y hrelates).1,
    fun row hrow hrelates => hx (h.blockEnds row hrow y x hrelates).2⟩

/-! ### Remote accounts -/

theorem known_put {remote : RemoteAccount} (h : Known db x) :
    Known { db with remoteAccounts := db.remoteAccounts.put remote } x := by
  cases x with
  | Local id => trivial
  | Remote id =>
      rw [Known, Table.get_put]
      split_ifs
      · rfl
      · exact h

variable {outside : Outside} {actor : ResolvedRemoteActor} {remote : RemoteAccount}

/-- No other row has the URL that is written. -/
theorem upsert_free (h : upsertRemoteAccount outside actor db = .ok (remote, after))
    {other : RemoteAccount} (hother : other ∈ db.remoteAccounts.rows) (hid : other.id ≠ remote.id) :
    other.url ≠ actor.url := by
  have hmem : other ∈ after.remoteAccounts.rows := by
    rw [(upsertRemoteAccount_ok h).1]
    exact Table.mem_put.mpr (.inr ⟨hother, hid⟩)
  exact fun hsame => hid ((upsertRemoteAccount_url h hmem).mp hsame)

theorem target_upsert (h : upsertRemoteAccount outside actor db = .ok (remote, after)) (url : String) :
    target after (.there url) =
      if url = actor.url then some (.Remote remote.id) else target db (.there url) := by
  obtain ⟨rfl, _, hurl, hold⟩ := upsertRemoteAccount_ok h
  simp only [target, RemoteAccountRepository.findByUrl]
  change ((remote :: (db.remoteAccounts.erase remote.id).rows).find? fun row => row.url = url).map _ = _
  rw [List.find?_cons, hurl]
  split_ifs with hactor
  · rw [decide_eq_true hactor.symm]
    rfl
  · rw [decide_eq_false (Ne.symm hactor), Table.erase, Table.deleteWhere, List.find?_filter]
    refine congrArg (Option.map _) (List.find?_congr fun row hrow => ?_)
    by_cases hid : row.id = remote.id
    · -- the row that is replaced had the URL of the actor
      have hreplaced := hold row (Table.get_eq_some_iff.mpr ⟨hrow, hid⟩)
      simp [hid, hreplaced, Ne.symm hactor]
    · simp [hid]

theorem Sound.upsert (hsound : Sound listed db)
    (h : upsertRemoteAccount outside actor db = .ok (remote, after))
    (hlisted : ∀ url, listed actor.acct url → actor.url = url) : Sound listed after := by
  obtain ⟨hacct, hurl, _, hicon⟩ := upsertRemoteAccount_columns h
  have hfree : ∀ other ∈ db.remoteAccounts.rows, other.id ≠ remote.id → other.url ≠ remote.url := by
    intro other hother hid
    rw [hurl]
    exact upsert_free h hother hid
  obtain ⟨rfl, _⟩ := upsertRemoteAccount_ok h
  refine ⟨fun row hrow x y hrelates => ?_, hsound.followPairs, hsound.readable,
    fun row hrow x y hrelates => ?_, hsound.blockPairs, fun one hone other hother hsame => ?_,
    fun row hrow => ?_, fun row hrow url hrow' => ?_⟩
  · exact (hsound.followEnds row hrow x y hrelates).imp known_put known_put
  · exact (hsound.blockEnds row hrow x y hrelates).imp known_put known_put
  · rcases Table.mem_put.mp hone with rfl | ⟨hone, hid⟩
    · rcases Table.mem_put.mp hother with rfl | ⟨hother, hid⟩
      · rfl
      · exact absurd hsame.symm (hfree other hother hid)
    · rcases Table.mem_put.mp hother with rfl | ⟨hother, _⟩
      · exact absurd hsame (hfree one ‹_› hid)
      · exact hsound.urls one hone other hother hsame
  · rcases Table.mem_put.mp hrow with rfl | ⟨hrow, _⟩
    · rcases hicon with hnone | ⟨old, hold, hkept⟩
      · rw [hnone]
        rfl
      · rw [hkept]
        exact hsound.icons old hold
    · exact hsound.icons row hrow
  · rcases Table.mem_put.mp hrow with rfl | ⟨hrow, _⟩
    · rw [hurl]
      exact hlisted url (hacct ▸ hrow')
    · exact hsound.handles row hrow url hrow'

/-- The row of a listed actor can be stored. -/
theorem exists_upsert (hsound : Sound listed db) (hlisted : listed actor.acct actor.url)
    (hfresh : db.remoteAccounts.get outside.remoteAccountId = none) :
    ∃ remote after, upsertRemoteAccount outside actor db = .ok (remote, after) := by
  have hstoring : Storing outside db := ⟨hsound.urls, hsound.icons, hfresh⟩
  obtain ⟨⟨remote, after⟩, h⟩ := hstoring.exists_upsert_iff.mpr fun other hother hhandle =>
    hsound.handles other hother actor.url (hhandle ▸ hlisted)
  exact ⟨remote, after, h⟩

/-- Storing the row of an actor gives its URL a name and changes no relation. -/
theorem becomes_upsert (hsound : Sound listed db)
    (hlisted : ∀ url, listed actor.acct url → actor.url = url)
    (h : upsertRemoteAccount outside actor db = .ok (remote, after)) : Becomes listed id db after := by
  have htarget := target_upsert h
  obtain ⟨hacct, hurl, _, hicon⟩ := upsertRemoteAccount_columns h
  obtain ⟨htables, hid, _, hold⟩ := upsertRemoteAccount_ok h
  have hkept : ∀ p x, target db p = some x → target after p = some x := by
    intro p x hp
    cases p with
    | here id => exact hp
    | there url =>
        rw [htarget]
        split_ifs with hactor
        · rw [hactor] at hp
          obtain ⟨existing, hexisting, rfl⟩ := Option.map_eq_some_iff.mp hp
          rw [hid, remoteAccountIdOf, hexisting]
          rfl
        · exact hp
  have hnew : ∀ p x, target after p = some x → target db p = none → ¬Known db x := by
    intro p x hp hnone
    cases p with
    | here id => cases hnone
    | there url =>
        rw [htarget] at hp
        split_ifs at hp with hactor
        · cases hp
          rw [hactor, target, Option.map_eq_none_iff, RemoteAccountRepository.findByUrl,
            List.find?_eq_none] at hnone
          intro hknown
          obtain ⟨old, hget⟩ := Option.isSome_iff_exists.mp hknown
          exact hnone old (Table.get_eq_some_iff.mp hget).1 (by simpa using hold old hget)
        · rw [hnone] at hp
          cases hp
  have hfollowRow : followRow after = followRow db := by rw [htables]; rfl
  have hblockRow : blockRow after = blockRow db := by rw [htables]; rfl
  refine ⟨?_, ?_, by rw [htables], hkept⟩
  · exact hsound.upsert h hlisted
  · rw [view, view, hfollowRow, hblockRow,
      named_congr hkept fun p x hp hnone => followRow_none_of_unknown hsound (hnew p x hp hnone),
      named_congr hkept fun p x hp hnone => blockRow_none_of_unknown hsound (hnew p x hp hnone)]
    rfl

/-! ### Follows -/

theorem toFollow_ofFollow (follow : Follow) : (FollowRow.ofFollow follow).toFollow = .ok follow := by
  simp [FollowRow.toFollow, FollowRow.ofFollow, Follow.new, follow.localEnd]

theorem relates_ofFollow_swap (follow : Follow) (x y : TargetId) :
    (FollowRow.ofFollow follow).relates x y = true ↔ x = follow.source ∧ y = follow.destination := by
  rw [relates_ofFollow, eq_comm, @eq_comm _ follow.destination]

theorem follow_ends (row : FollowRow) (x y x' y' : TargetId) (h : row.relates x y = true)
    (h' : row.relates x' y' = true) : x = x' ∧ y = y' :=
  ends_of_relates h h'

/-- Fewer follows, or follows that differ in their approval only. -/
theorem Sound.fewerFollows (h : Sound listed db) {follows : Table FollowRow.id}
    (hrows : ∀ row ∈ follows.rows, ∃ old ∈ db.follows.rows, old.id = row.id ∧
      (∀ x y, row.relates x y = old.relates x y) ∧
      ∀ follow, old.toFollow = .ok follow → ∃ changed, row.toFollow = .ok changed) :
    Sound listed { db with follows } := by
  refine ⟨fun row hrow x y hrelates => ?_, fun row hrow other hother x y hrelates hrelates' => ?_,
    fun row hrow => ?_, h.blockEnds, h.blockPairs, h.urls, h.icons, h.handles⟩
  · obtain ⟨old, hold, _, hends, _⟩ := hrows row hrow
    exact h.followEnds old hold x y (hends x y ▸ hrelates)
  · obtain ⟨old, hold, hid, hends, _⟩ := hrows row hrow
    obtain ⟨old', hold', hid', hends', _⟩ := hrows other hother
    have hsame := h.followPairs old hold old' hold' x y (hends x y ▸ hrelates) (hends' x y ▸ hrelates')
    exact follows.eq_of_key_eq hrow hother (by rw [← hid, ← hid', hsame])
  · obtain ⟨old, hold, _, _, hread⟩ := hrows row hrow
    obtain ⟨follow, hfollow⟩ := h.readable old hold
    exact hread follow hfollow

theorem Sound.deleteFollows (h : Sound listed db) (gone : FollowRow → Bool) :
    Sound listed { db with follows := db.follows.deleteWhere gone } :=
  h.fewerFollows fun row hrow => ⟨row, (Table.mem_deleteWhere.mp hrow).1, rfl, fun _ _ => rfl,
    fun follow hfollow => ⟨follow, hfollow⟩⟩

theorem becomes_insertFollow {follow : Follow} (h : Sound listed db)
    (hp : target db p = some follow.source) (hq : target db q = some follow.destination)
    (hinsert : FollowRepository.insert db follow = .inserted after) :
    Becomes listed (View.setFollow p q (some (follow.id, follow.approvedAt.isSome))) db after ∧
      (view db).follows (p, q) = none := by
  have hfresh := FollowRepository.insert_fresh hinsert
  have hfree := FollowRepository.insert_unrelated hinsert
  obtain rfl := FollowRepository.insert_inserted hinsert
  have hends := relates_ofFollow_swap follow
  refine ⟨⟨⟨fun row hrow x y hrelates => ?_, fun row hrow other hother x y hrelates hrelates' => ?_,
    fun row hrow => ?_, h.blockEnds, h.blockPairs, h.urls, h.icons, h.handles⟩, ?_, rfl,
    fun _ _ hp => hp⟩, ?_⟩
  · rcases Table.mem_put.mp hrow with rfl | ⟨hrow, _⟩
    · obtain ⟨rfl, rfl⟩ := (hends x y).mp hrelates
      exact ⟨known_of_target hp, known_of_target hq⟩
    · exact h.followEnds row hrow x y hrelates
  · rcases Table.mem_put.mp hrow with rfl | ⟨hrow, _⟩
    · rcases Table.mem_put.mp hother with rfl | ⟨hother, _⟩
      · rfl
      · obtain ⟨rfl, rfl⟩ := (hends x y).mp hrelates
        exact absurd hrelates' (hfree other hother)
    · rcases Table.mem_put.mp hother with rfl | ⟨hother, _⟩
      · obtain ⟨rfl, rfl⟩ := (hends x y).mp hrelates'
        exact absurd hrelates (hfree row ‹_›)
      · exact h.followPairs row ‹_› other hother x y hrelates hrelates'
  · rcases Table.mem_put.mp hrow with rfl | ⟨hrow, _⟩
    · exact ⟨follow, toFollow_ofFollow follow⟩
    · exact h.readable row hrow
  · change View.mk _ (view db).blocks = View.mk _ (view db).blocks
    congr 1
    refine named_update (target_injective db) hp hq fun x y => ?_
    change Option.map _ ((db.follows.put (.ofFollow follow)).between FollowRow.relates x y) = _
    rw [Table.between_put hfresh hends, apply_ite (Option.map _)]
    rfl
  · change named (target db) (followRow db) (p, q) = none
    rw [named_eq hp hq, followRow, Option.map_eq_none_iff]
    exact List.find?_eq_none.mpr hfree

/-- The follows of a pair are deleted. -/
theorem becomes_deleteFollows (h : Sound listed db) (hp : target db p = some x)
    (hq : target db q = some y) : Becomes listed (View.setFollow p q none) db
      { db with follows := db.follows.deleteWhere (·.relates x y) } := by
  refine ⟨h.deleteFollows _, ?_, rfl, fun _ _ hp => hp⟩
  change View.mk _ (view db).blocks = View.mk _ (view db).blocks
  congr 1
  refine named_update (target_injective db) hp hq fun x' y' => ?_
  change Option.map _ ((db.follows.deleteWhere (·.relates x y)).between FollowRow.relates x' y') = _
  rw [Table.between_deleteWhere follow_ends, apply_ite (Option.map _)]
  rfl

/-- A follow of the view is that of a row. -/
theorem row_of_follow {id : FollowId} {approved : Bool}
    (h : (view db).follows (p, q) = some (id, approved)) : ∃ x y, target db p = some x ∧
      target db q = some y ∧ ∃ row ∈ db.follows.rows, row.relates x y = true ∧ row.id = id ∧
        row.approvedAt.isSome = approved := by
  obtain ⟨x, y, hx, hy, hrow⟩ := named_eq_some h
  obtain ⟨row, hbetween, heq⟩ := Option.map_eq_some_iff.mp hrow
  cases heq
  obtain ⟨hmem, hrelates⟩ := Table.between_eq_some hbetween
  exact ⟨x, y, hx, hy, row, hmem, hrelates, rfl, rfl⟩

theorem becomes_deleteFollow {id : FollowId} {approved : Bool} (h : Sound listed db)
    (hfollow : (view db).follows (p, q) = some (id, approved)) :
    ∃ after, FollowRepository.delete db id = .ok after ∧
      Becomes listed (View.setFollow p q none) db after := by
  obtain ⟨x, y, hp, hq, row, hrow, hrelates, rfl, _⟩ := row_of_follow hfollow
  have herase : db.follows.erase row.id = db.follows.deleteWhere (·.relates x y) :=
    Table.erase_eq_deleteWhere hrow hrelates fun other hother hother' =>
      h.followPairs other hother row hrow x y hother' hrelates
  refine ⟨{ db with follows := db.follows.erase row.id }, ?_, ?_⟩
  · rw [FollowRepository.delete, Table.contains, Table.get_eq_some_iff.mpr ⟨hrow, rfl⟩]
    rfl
  · rw [herase]
    exact becomes_deleteFollows h hp hq

theorem toFollow_approve {now : OffsetDateTime} {row : FollowRow} {follow : Follow}
    (h : row.toFollow = .ok follow) : ∃ changed, (FollowRepository.approve now x y row).toFollow =
      .ok changed := by
  unfold FollowRepository.approve
  split_ifs
  · unfold FollowRow.toFollow at h ⊢
    split at h
    · next source destination hsource hdestination =>
        simp only [Follow.new, reject] at h
        split_ifs at h with hlocal
        refine ⟨⟨row.id, source, destination, some now, hlocal⟩, ?_⟩
        simp only [hsource, hdestination, Follow.new, dif_pos hlocal]
    · cases h
  · exact ⟨follow, h⟩

theorem followRow_approve {now : OffsetDateTime} {row : FollowRow} (hrelates : row.relates x y = true) :
    ((FollowRepository.approve now x y row).id,
      (FollowRepository.approve now x y row).approvedAt.isSome) = (row.id, true) := by
  unfold FollowRepository.approve
  rw [hrelates, Bool.true_and]
  cases happroved : row.approvedAt with
  | none => rfl
  | some instant => simp [happroved]

theorem becomes_approve (now : OffsetDateTime) (h : Sound listed db) (hp : target db p = some x)
    (hq : target db q = some y) : Becomes listed (View.approve p q) db
      (FollowRepository.approveFollowIfPending db now x y).2 := by
  have hends : ∀ row x' y', (FollowRepository.approve now x y row).relates x' y' = row.relates x' y' := by
    intro row x' y'
    unfold FollowRepository.approve
    split_ifs <;> rfl
  refine ⟨h.fewerFollows fun row hrow => ?_, ?_, rfl, fun _ _ hp => hp⟩
  · obtain ⟨old, hold, rfl⟩ := List.mem_map.mp hrow
    exact ⟨old, hold, (FollowRepository.approve_id ..).symm, hends old, fun _ => toFollow_approve⟩
  · change View.mk _ (view db).blocks = View.mk _ (view db).blocks
    congr 1
    refine named_update (target_injective db) hp hq fun x' y' => ?_
    have hview : (view db).follows (p, q) = followRow db x y := named_eq hp hq
    rw [hview]
    change Option.map _ ((db.follows.modify (FollowRepository.approve now x y)
      (FollowRepository.approve_id now x y)).between FollowRow.relates x' y') = _
    rw [Table.between_modify hends, followRow, followRow]
    cases hbetween : db.follows.between FollowRow.relates x' y' with
    | none =>
        split_ifs with hpair
        · obtain ⟨rfl, rfl⟩ := hpair
          rw [hbetween]
          rfl
        · rfl
    | some row =>
        have hrelates := (Table.between_eq_some hbetween).2
        split_ifs with hpair
        · obtain ⟨rfl, rfl⟩ := hpair
          rw [hbetween]
          exact congrArg some (followRow_approve hrelates)
        · have hother : FollowRepository.approve now x y row = row := by
            refine if_neg fun happrove => hpair (follow_ends row x' y' x y hrelates ?_)
            exact (Bool.and_eq_true_iff.mp happrove).1
          rw [Option.map_some, hother]

/-- The follows between two ends are deleted. -/
theorem becomes_removeFollowsBetween (h : Sound listed db) (hp : target db p = some x)
    (hq : target db q = some y) : ∃ after, removeFollowsBetween x y db = .ok after ∧
      Becomes listed (View.sever p q) db after := by
  have hfirst := becomes_deleteFollows h hp hq
  have hsecond := becomes_deleteFollows hfirst.sound hq hp
  refine ⟨_, ?_, hfirst.trans hsecond⟩
  rw [removeFollowsBetween, FollowRemoval.removeFollows_eq_ok h.readable]
  exact FollowRemoval.removeFollows_eq_ok hfirst.sound.readable

/-! ### Blocks -/

theorem block_ends (row : BlockRow) (x y x' y' : TargetId) (h : row.relates x y = true)
    (h' : row.relates x' y' = true) : x = x' ∧ y = y' :=
  block_ends_of_relates h h'

theorem Sound.deleteBlocks (h : Sound listed db) (gone : BlockRow → Bool) :
    Sound listed { db with blocks := db.blocks.deleteWhere gone } where
  followEnds := h.followEnds
  followPairs := h.followPairs
  readable := h.readable
  blockEnds row hrow := h.blockEnds row (Table.mem_deleteWhere.mp hrow).1
  blockPairs row hrow other hother :=
    h.blockPairs row (Table.mem_deleteWhere.mp hrow).1 other (Table.mem_deleteWhere.mp hother).1
  urls := h.urls
  icons := h.icons
  handles := h.handles

theorem becomes_insertBlock {block : Block} (h : Sound listed db)
    (hp : target db p = some block.source) (hq : target db q = some block.destination)
    (hinsert : BlockRepository.insert db block = .inserted after) :
    Becomes listed (View.setBlock p q (some block.id)) db after ∧ (view db).blocks (p, q) = none := by
  have hfresh := BlockRepository.insert_fresh hinsert
  have hfree := BlockRepository.insert_unrelated hinsert
  obtain rfl := BlockRepository.insert_inserted hinsert
  have hends : ∀ x y, (BlockRow.ofBlock block).relates x y = true ↔
      x = block.source ∧ y = block.destination := by
    intro x y
    rw [relates_ofBlock, eq_comm, @eq_comm _ block.destination]
  refine ⟨⟨⟨h.followEnds, h.followPairs, h.readable, fun row hrow x y hrelates => ?_,
    fun row hrow other hother x y hrelates hrelates' => ?_, h.urls, h.icons, h.handles⟩, ?_, rfl,
    fun _ _ hp => hp⟩, ?_⟩
  · rcases Table.mem_put.mp hrow with rfl | ⟨hrow, _⟩
    · obtain ⟨rfl, rfl⟩ := (hends x y).mp hrelates
      exact ⟨known_of_target hp, known_of_target hq⟩
    · exact h.blockEnds row hrow x y hrelates
  · rcases Table.mem_put.mp hrow with rfl | ⟨hrow, _⟩
    · rcases Table.mem_put.mp hother with rfl | ⟨hother, _⟩
      · rfl
      · obtain ⟨rfl, rfl⟩ := (hends x y).mp hrelates
        exact absurd hrelates' (hfree other hother)
    · rcases Table.mem_put.mp hother with rfl | ⟨hother, _⟩
      · obtain ⟨rfl, rfl⟩ := (hends x y).mp hrelates'
        exact absurd hrelates (hfree row ‹_›)
      · exact h.blockPairs row ‹_› other hother x y hrelates hrelates'
  · change View.mk (view db).follows _ = View.mk (view db).follows _
    congr 1
    refine named_update (target_injective db) hp hq fun x y => ?_
    change Option.map _ ((db.blocks.put (.ofBlock block)).between BlockRow.relates x y) = _
    rw [Table.between_put hfresh hends, apply_ite (Option.map _)]
    rfl
  · change named (target db) (blockRow db) (p, q) = none
    rw [named_eq hp hq, blockRow, Option.map_eq_none_iff]
    exact List.find?_eq_none.mpr hfree

/-- The blocks of a pair are deleted. -/
theorem becomes_deleteBlocks (h : Sound listed db) (hp : target db p = some x)
    (hq : target db q = some y) : Becomes listed (View.setBlock p q none) db
      { db with blocks := db.blocks.deleteWhere (·.relates x y) } := by
  refine ⟨h.deleteBlocks _, ?_, rfl, fun _ _ hp => hp⟩
  change View.mk (view db).follows _ = View.mk (view db).follows _
  congr 1
  refine named_update (target_injective db) hp hq fun x' y' => ?_
  change Option.map _ ((db.blocks.deleteWhere (·.relates x y)).between BlockRow.relates x' y') = _
  rw [Table.between_deleteWhere block_ends, apply_ite (Option.map _)]
  rfl

theorem becomes_eraseBlock {row : BlockRow} (h : Sound listed db) (hp : target db p = some x)
    (hq : target db q = some y) (hrow : row ∈ db.blocks.rows) (hrelates : row.relates x y = true) :
    Becomes listed (View.setBlock p q none) db { db with blocks := db.blocks.erase row.id } := by
  have herase : db.blocks.erase row.id = db.blocks.deleteWhere (·.relates x y) :=
    Table.erase_eq_deleteWhere hrow hrelates fun other hother hother' =>
      h.blockPairs other hother row hrow x y hother' hrelates
  rw [herase]
  exact becomes_deleteBlocks h hp hq

/-! ### The outbox -/

theorem becomes_outbox (h : Sound listed db) (honly : Undo.OnlyOutbox db after) :
    Becomes listed id db after := by
  rw [Undo.OnlyOutbox] at honly
  rw [honly]
  exact ⟨⟨h.followEnds, h.followPairs, h.readable, h.blockEnds, h.blockPairs, h.urls, h.icons,
    h.handles⟩, rfl, rfl, fun _ _ hp => hp⟩

theorem becomes_storeDelivery {accountId : AccountId} {delivery : Option Delivery}
    {outboxId : Option OutboxActivityId} (h : Sound listed db)
    (hstore : storeDelivery outside accountId delivery db = .ok (outboxId, after)) :
    Becomes listed id db after :=
  becomes_outbox h (storeDelivery_tables hstore)

/-! ### Transactions -/

/-- A block is stored and the follows between the two ends are gone. -/
def View.block (p q : Party) (id : BlockId) (v : View) : View :=
  (v.setBlock p q (some id)).sever p q

theorem becomes_blockTransaction {accountId : AccountId} {block : Block} {delivery : Option Delivery}
    {outboxId : Option OutboxActivityId} (h : Sound listed db)
    (hp : target db p = some block.source) (hq : target db q = some block.destination)
    (hok : blockTransaction outside accountId block delivery db = .ok (outboxId, after)) :
    Becomes listed (View.block p q block.id) db after ∧ (view db).blocks (p, q) = none ∧
      outboxId.isSome = delivery.isSome := by
  simp only [blockTransaction, Fallible.bind_eq_ok] at hok
  obtain ⟨existing, _, hok⟩ := hok
  split_ifs at hok
  · cases hok
  · simp only [Fallible.bind_eq_ok] at hok
    obtain ⟨inserted, hcreate, removed, hremove, hstore⟩ := hok
    obtain ⟨hinserted, hnone⟩ := becomes_insertBlock h hp hq (Insertion.orReject_ok hcreate)
    have htarget : target inserted = target db := by
      rw [BlockRepository.insert_inserted (Insertion.orReject_ok hcreate)]
      rfl
    obtain ⟨severed, hsevered, hbecomes⟩ := becomes_removeFollowsBetween hinserted.sound
      (p := p) (q := q) (by rw [htarget]; exact hp) (by rw [htarget]; exact hq)
    obtain rfl : severed = removed := Except.ok.inj (hsevered.symm.trans hremove)
    refine ⟨(hinserted.trans hbecomes).trans (becomes_storeDelivery hbecomes.sound hstore), hnone, ?_⟩
    rcases storeDelivery_ok hstore with ⟨rfl, rfl, _⟩ | ⟨_, _, rfl, rfl, _⟩ <;> rfl

/-- An inbound block between known ends that is not there yet is stored. -/
theorem exists_inboundBlock {block : Block} (h : Sound listed db)
    (hp : target db p = some block.source) (hq : target db q = some block.destination)
    (hnone : (view db).blocks (p, q) = none) (hfresh : db.blocks.get block.id = none)
    (hexists : db.targetExists block.source = true ∧ db.targetExists block.destination = true) :
    ∃ after, inboundBlockTransaction block db = .ok after ∧
      Becomes listed (View.block p q block.id) db after := by
  have hfree : db.blocks.rows.any (·.relates block.source block.destination) = false := by
    change named (target db) (blockRow db) (p, q) = none at hnone
    rw [named_eq hp hq, blockRow, Option.map_eq_none_iff, Table.between, List.find?_eq_none] at hnone
    exact List.any_eq_false.mpr hnone
  obtain ⟨inserted, hinsert⟩ : ∃ inserted, BlockRepository.insert db block = .inserted inserted := by
    have hkey : db.blocks.contains block.id = false := by rw [Table.contains, hfresh]; rfl
    refine ⟨_, (if_neg ?_).trans (if_pos ?_)⟩
    · rw [Bool.or_eq_true, not_or, Bool.not_eq_true, Bool.not_eq_true]
      exact ⟨hkey, hfree⟩
    · rw [hexists.1, hexists.2]
      rfl
  have hinserted := (becomes_insertBlock h hp hq hinsert).1
  have htarget : target inserted = target db := by
    rw [BlockRepository.insert_inserted hinsert]
    rfl
  obtain ⟨severed, hsevered, hbecomes⟩ := becomes_removeFollowsBetween hinserted.sound
    (p := p) (q := q) (by rw [htarget]; exact hp) (by rw [htarget]; exact hq)
  refine ⟨severed, ?_, hinserted.trans hbecomes⟩
  rw [inboundBlockTransaction, BlockRepository.insertIfAbsent, hinsert]
  exact hsevered

theorem becomes_unblockTransaction {server : Server} {account : Account} {resolved : BlockTarget}
    {outboxId : Option OutboxActivityId} {delivery : Option Delivery} (h : Sound listed db)
    (hq : target db q = some resolved.id)
    (hok : unblockTransaction server outside account resolved db = .ok ((outboxId, delivery), after)) :
    Becomes listed (View.setBlock (.here account.id) q none) db after ∧
      ∃ blockId, delivery = resolved.undoDelivery server outside blockId
        (localActorUrl server.publicBaseUrl account.nanoid) ∧ outboxId.isSome = delivery.isSome := by
  obtain ⟨blocks, block, hblock, hblocks, hdestination, rfl, hstore⟩ :=
    SentUndo.unblockTransaction_ok server outside hok
  obtain ⟨row, hselected, hread⟩ := Fallible.exists_of_mem_results hblocks hblock
  obtain ⟨hrow, hblocker⟩ := List.mem_filter.mp hselected
  obtain ⟨read, hread', hid, hrelates⟩ := RelationLists.toBlock_of_hasBlocker hblocker
  obtain rfl : read = block := Except.ok.inj (hread'.symm.trans hread)
  rw [hdestination] at hrelates
  have herased := becomes_eraseBlock (p := .here account.id) h rfl hq hrow hrelates
  rw [← hid] at herased
  refine ⟨herased.trans (becomes_storeDelivery herased.sound hstore), read.id, rfl, ?_⟩
  rcases storeDelivery_ok hstore with ⟨hnone, rfl, _⟩ | ⟨_, _, hsome, rfl, _⟩
  · rw [hnone]
    rfl
  · rw [hsome]
    rfl

/-- An inbound Follow: nothing is stored for a follow that is there, and otherwise the follow is stored
with its Accept. -/
theorem becomes_followTransaction {accountId : AccountId} {follow : Follow} {accept : Delivery}
    {outboxId : Option OutboxActivityId} (h : Sound listed db)
    (hp : target db p = some follow.source) (hq : target db q = some follow.destination)
    (hfresh : db.follows.get follow.id = none)
    (hok : followTransaction outside accountId follow accept db = .ok (outboxId, after)) :
    (outboxId = none ∧ after = db ∧ (view db).follows (p, q) ≠ none) ∨
      (outboxId.isSome = true ∧ (view db).follows (p, q) = none ∧
        Becomes listed (View.setFollow p q (some (follow.id, follow.approvedAt.isSome))) db after) := by
  simp only [followTransaction, Fallible.bind_eq_ok] at hok
  obtain ⟨⟨inserted, mid⟩, hinsert, hok⟩ := hok
  rcases Insertion.orAbsent_ok hinsert with ⟨rfl, hinserted⟩ | ⟨rfl, rfl⟩
  · rw [if_pos rfl] at hok
    obtain ⟨hfollow, hnone⟩ := becomes_insertFollow h hp hq hinserted
    refine .inr ⟨?_, hnone, hfollow.trans (becomes_storeDelivery hfollow.sound hok)⟩
    rcases storeDelivery_ok hok with ⟨hnone, _⟩ | ⟨_, _, _, rfl, _⟩
    · cases hnone
    · rfl
  · cases hok
    refine .inl ⟨rfl, rfl, fun hnone => ?_⟩
    obtain ⟨_, row, hrow, hrelates⟩ := Undo.insertIfAbsent_follow hfresh hinsert
    change named (target mid) (followRow mid) (p, q) = none at hnone
    rw [named_eq hp hq, followRow, Option.map_eq_none_iff, Table.between, List.find?_eq_none] at hnone
    exact hnone row hrow hrelates

end Links

end Emumet

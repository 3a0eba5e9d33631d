import Emumet.DriverReadModel
import Emumet.LibFallible

/-! The repositories of follows, blocks and mutes. An insert that meets a uniqueness constraint is reported
by its error code and handled by the caller; any other failure is internal. -/

namespace Emumet

namespace FollowRow

/-- `Follow::try_from`; the source also prints the columns. -/
def toFollow (row : FollowRow) : Result Follow :=
  match TargetId.ofColumns row.followerLocalId row.followerRemoteId,
      TargetId.ofColumns row.followeeLocalId row.followeeRemoteId with
  | some source, some destination => Follow.new row.id source destination row.approvedAt
  | _, _ => reject .Internal "Invalid follow data."

theorem toFollow_id {row : FollowRow} {follow : Follow} (h : row.toFollow = .ok follow) :
    follow.id = row.id := by
  unfold toFollow at h
  split at h
  · simp only [Follow.new, reject] at h
    split_ifs at h
    cases h
    rfl
  · cases h

/-- The columns bound for a follow. -/
def ofFollow (follow : Follow) : FollowRow where
  id := follow.id
  followerLocalId := follow.source.localId
  followerRemoteId := follow.source.remoteId
  followeeLocalId := follow.destination.localId
  followeeRemoteId := follow.destination.remoteId
  approvedAt := follow.approvedAt
  chkFollowerExclusive := follow.source.exclusive
  chkFolloweeExclusive := follow.destination.exclusive

/-- The four id columns are those of the two ends. -/
def relates (row : FollowRow) (source destination : FollowTargetId) : Bool :=
  row.followerLocalId = source.localId && row.followerRemoteId = source.remoteId &&
    row.followeeLocalId = destination.localId && row.followeeRemoteId = destination.remoteId

theorem relates_iff {row : FollowRow} {source destination : FollowTargetId} :
    row.relates source destination = true ↔
      (row.followerLocalId = source.localId ∧ row.followerRemoteId = source.remoteId) ∧
      (row.followeeLocalId = destination.localId ∧ row.followeeRemoteId = destination.remoteId) := by
  simp only [relates, Bool.and_eq_true, decide_eq_true_eq, and_assoc]

/-- The column of an end's kind holds its id. -/
def hasFollower (row : FollowRow) : FollowTargetId → Bool
  | .Local accountId => row.followerLocalId = some accountId
  | .Remote remoteAccountId => row.followerRemoteId = some remoteAccountId

def hasFollowee (row : FollowRow) : FollowTargetId → Bool
  | .Local accountId => row.followeeLocalId = some accountId
  | .Remote remoteAccountId => row.followeeRemoteId = some remoteAccountId

end FollowRow

namespace BlockRow

/-- `Block::try_from`; the source also prints the columns. -/
def toBlock (row : BlockRow) : Result Block :=
  match TargetId.ofColumns row.blockerLocalId row.blockerRemoteId,
      TargetId.ofColumns row.blockedLocalId row.blockedRemoteId with
  | some source, some destination => Block.new row.id source destination
  | _, _ => reject .Internal "Invalid block data."

/-- The columns bound for a block. -/
def ofBlock (block : Block) : BlockRow where
  id := block.id
  blockerLocalId := block.source.localId
  blockerRemoteId := block.source.remoteId
  blockedLocalId := block.destination.localId
  blockedRemoteId := block.destination.remoteId
  chkBlockerExclusive := block.source.exclusive
  chkBlockedExclusive := block.destination.exclusive

/-- The four id columns are those of the two ends. -/
def relates (row : BlockRow) (source destination : BlockTargetId) : Bool :=
  row.blockerLocalId = source.localId && row.blockerRemoteId = source.remoteId &&
    row.blockedLocalId = destination.localId && row.blockedRemoteId = destination.remoteId

theorem relates_iff {row : BlockRow} {source destination : BlockTargetId} :
    row.relates source destination = true ↔
      (row.blockerLocalId = source.localId ∧ row.blockerRemoteId = source.remoteId) ∧
      (row.blockedLocalId = destination.localId ∧ row.blockedRemoteId = destination.remoteId) := by
  simp only [relates, Bool.and_eq_true, decide_eq_true_eq, and_assoc]

/-- The column of an end's kind holds its id. -/
def hasBlocker (row : BlockRow) : BlockTargetId → Bool
  | .Local accountId => row.blockerLocalId = some accountId
  | .Remote remoteAccountId => row.blockerRemoteId = some remoteAccountId

end BlockRow

namespace MuteRow

/-- `Mute::try_from`; the source also prints the columns. -/
def toMute (row : MuteRow) : Result Mute :=
  match TargetId.ofColumns row.muterLocalId row.muterRemoteId,
      TargetId.ofColumns row.mutedLocalId row.mutedRemoteId with
  | some source, some destination => Mute.new row.id source destination
  | _, _ => reject .Internal "Invalid mute data."

/-- The columns bound for a mute. -/
def ofMute (mute : Mute) : MuteRow where
  id := mute.id
  muterLocalId := mute.source.localId
  muterRemoteId := mute.source.remoteId
  mutedLocalId := mute.destination.localId
  mutedRemoteId := mute.destination.remoteId
  chkMuterExclusive := mute.source.exclusive
  chkMutedExclusive := mute.destination.exclusive

/-- The four id columns are those of the two ends. -/
def relates (row : MuteRow) (source destination : MuteTargetId) : Bool :=
  row.muterLocalId = source.localId && row.muterRemoteId = source.remoteId &&
    row.mutedLocalId = destination.localId && row.mutedRemoteId = destination.remoteId

theorem relates_iff {row : MuteRow} {source destination : MuteTargetId} :
    row.relates source destination = true ↔
      (row.muterLocalId = source.localId ∧ row.muterRemoteId = source.remoteId) ∧
      (row.mutedLocalId = destination.localId ∧ row.mutedRemoteId = destination.remoteId) := by
  simp only [relates, Bool.and_eq_true, decide_eq_true_eq, and_assoc]

/-- The column of an end's kind holds its id. -/
def hasMuter (row : MuteRow) : MuteTargetId → Bool
  | .Local accountId => row.muterLocalId = some accountId
  | .Remote remoteAccountId => row.muterRemoteId = some remoteAccountId

end MuteRow

/-- The account a relation's end refers to exists. -/
def Db.targetExists (db : Db) : TargetId → Bool
  | .Local accountId => db.accounts.contains accountId
  | .Remote remoteAccountId => db.remoteAccounts.contains remoteAccountId

/-- What an insert of a relation meets. -/
inductive Insertion where
  | inserted (db : Db)
  | uniqueViolation
  | failed

namespace Insertion

/-- `create`: a duplicate is rejected with the given text. -/
def orReject (duplicate : String) : Insertion → Result Db
  | .inserted db => .ok db
  | .uniqueViolation => reject .Rejected duplicate
  | .failed => foreignKeyViolation

/-- `insert_if_absent`: whether a row was inserted. In Postgres a duplicate aborts the surrounding
transaction, so a caller may run no statement after it. -/
def orAbsent (before : Db) : Insertion → Result (Bool × Db)
  | .inserted db => .ok (true, db)
  | .uniqueViolation => .ok (false, before)
  | .failed => foreignKeyViolation

theorem orReject_ok {duplicate : String} {insertion : Insertion} {db : Db}
    (h : insertion.orReject duplicate = .ok db) : insertion = .inserted db := by
  cases insertion <;> cases h
  rfl

theorem orAbsent_ok {before db : Db} {insertion : Insertion} {inserted : Bool}
    (h : insertion.orAbsent before = .ok (inserted, db)) :
    (inserted = true ∧ insertion = .inserted db) ∨ (inserted = false ∧ db = before) := by
  cases insertion <;> cases h
  · exact Or.inl ⟨rfl, rfl⟩
  · exact Or.inr ⟨rfl, rfl⟩

end Insertion

section Insert

variable {κ ρ : Type} [DecidableEq κ] {key : ρ → κ}

/-- `INSERT INTO` a table of relations: the key, the unique index of the pair's kind, then the foreign
keys. -/
def insertRelation (db : Db) (table : Table key) (row : ρ) (source destination : TargetId)
    (relates : ρ → TargetId → TargetId → Bool) (store : Table key → Db) : Insertion :=
  if table.contains (key row) || table.rows.any (relates · source destination) then .uniqueViolation
  else if db.targetExists source && db.targetExists destination then .inserted (store (table.put row))
  else .failed

variable {db after : Db} {table : Table key} {row : ρ} {source destination : TargetId}
  {relates : ρ → TargetId → TargetId → Bool} {store : Table key → Db}

/-- The inserted row has a new key and a new pair, and both ends exist. -/
theorem insertRelation_inserted
    (h : insertRelation db table row source destination relates store = .inserted after) :
    table.get (key row) = none ∧ (∀ other ∈ table.rows, ¬relates other source destination = true) ∧
      (db.targetExists source = true ∧ db.targetExists destination = true) ∧
      after = store (table.put row) := by
  simp only [insertRelation] at h
  split_ifs at h with hduplicate hends
  rw [Bool.or_eq_true, not_or, Bool.not_eq_true, Table.contains, Option.isSome_eq_false_iff,
    List.any_eq_true] at hduplicate
  cases h
  exact ⟨Option.isNone_iff_eq_none.mp hduplicate.1,
    fun other hother hrelates => hduplicate.2 ⟨other, hother, hrelates⟩,
    (Bool.and_eq_true _ _).mp hends, rfl⟩

/-- Under a new id an insert fails for a duplicate only when the relation is there already. -/
theorem insertRelation_orAbsent {inserted : Bool}
    (h : (insertRelation db table row source destination relates store).orAbsent db =
      .ok (inserted, after))
    (hfresh : table.get (key row) = none) (hrelates : relates row source destination = true)
    (hstore : store table = db) :
    ∃ stored : Table key, after = store stored ∧
      ∃ other ∈ stored.rows, relates other source destination = true := by
  simp only [insertRelation, Table.contains, hfresh] at h
  split_ifs at h with hduplicate hends
  · cases h
    obtain ⟨other, hother, hpair⟩ := List.any_eq_true.mp (by simpa using hduplicate)
    exact ⟨table, hstore.symm, other, hother, hpair⟩
  · cases h
    exact ⟨table.put row, rfl, row, Table.mem_put.mpr (.inl rfl), hrelates⟩
  · cases h

end Insert

namespace FollowRepository

def findFollowings (db : Db) (source : FollowTargetId) : Result (List Follow) :=
  (db.follows.select (·.hasFollower source)).mapM FollowRow.toFollow

/-- Approved follows only. -/
def findFollowers (db : Db) (destination : FollowTargetId) : Result (List Follow) :=
  (db.follows.select fun row => row.hasFollowee destination && row.approvedAt.isSome).mapM
    FollowRow.toFollow

def insert (db : Db) (follow : Follow) : Insertion :=
  insertRelation db db.follows (.ofFollow follow) follow.source follow.destination FollowRow.relates
    fun follows => { db with follows }

theorem insert_inserted {db after : Db} {follow : Follow} (h : insert db follow = .inserted after) :
    after = { db with follows := db.follows.put (.ofFollow follow) } :=
  (insertRelation_inserted h).2.2.2

theorem insert_fresh {db after : Db} {follow : Follow} (h : insert db follow = .inserted after) :
    db.follows.get follow.id = none :=
  (insertRelation_inserted h).1

theorem insert_unrelated {db after : Db} {follow : Follow} (h : insert db follow = .inserted after) :
    ∀ row ∈ db.follows.rows, ¬row.relates follow.source follow.destination = true :=
  (insertRelation_inserted h).2.1

def create (db : Db) (follow : Follow) : Result Db :=
  (insert db follow).orReject "Duplicate follow: this follow relationship already exists"

def insertIfAbsent (db : Db) (follow : Follow) : Result (Bool × Db) := (insert db follow).orAbsent db

def delete (db : Db) (id : FollowId) : Result Db :=
  if db.follows.contains id then .ok { db with follows := db.follows.erase id }
  else reject .NotFound "Target follow not found for delete"

/-- Set the approval of a pending follow. -/
def approve (now : OffsetDateTime) (source destination : FollowTargetId) (row : FollowRow) :
    FollowRow :=
  if row.relates source destination && row.approvedAt.isNone then
    { row with approvedAt := some now }
  else row

theorem approve_id (now : OffsetDateTime) (source destination : FollowTargetId) (row : FollowRow) :
    (approve now source destination row).id = row.id := by
  unfold approve
  split_ifs <;> rfl

def approveFollowIfPending (db : Db) (now : OffsetDateTime) (source destination : FollowTargetId) :
    Bool × Db :=
  let pending := db.follows.rows.any fun row => row.relates source destination && row.approvedAt.isNone
  let follows := db.follows.modify (approve now source destination) (approve_id now source destination)
  (pending, { db with follows })

def deleteIfExists (db : Db) (source destination : FollowTargetId) : Bool × Db :=
  (db.follows.rows.any (·.relates source destination),
    { db with follows := db.follows.deleteWhere (·.relates source destination) })

theorem mem_deleteIfExists (db : Db) (source destination : FollowTargetId) (row : FollowRow) :
    row ∈ (deleteIfExists db source destination).2.follows.rows ↔
      row ∈ db.follows.rows ∧ row.relates source destination = false :=
  Table.mem_deleteWhere

theorem delete_ok {db after : Db} {id : FollowId} (h : delete db id = .ok after) :
    after = { db with follows := db.follows.erase id } := by
  simp only [delete, reject] at h
  split_ifs at h
  cases h
  rfl

/-- Exactly the follows with the given ids are gone, and no other table has changed. -/
theorem deletes_ok {follows : List Follow} {db after : Db}
    (h : follows.foldlM (fun db follow => delete db follow.id) db = .ok after) :
    after = { db with follows := after.follows } ∧ ∀ row, row ∈ after.follows.rows ↔
      row ∈ db.follows.rows ∧ ∀ follow ∈ follows, row.id ≠ follow.id := by
  induction follows generalizing db with
  | nil =>
      cases h
      exact ⟨rfl, fun row => by simp⟩
  | cons first follows ih =>
      rw [List.foldlM_cons, Fallible.bind_eq_ok] at h
      obtain ⟨middle, hfirst, hrest⟩ := h
      obtain ⟨htables, hrows⟩ := ih hrest
      rw [delete_ok hfirst] at htables hrows
      refine ⟨htables, fun row => ?_⟩
      rw [hrows, Table.mem_erase, List.forall_mem_cons, and_assoc]

end FollowRepository

namespace BlockRepository

def findBlocks (db : Db) (source : BlockTargetId) : Result (List Block) :=
  (db.blocks.select (·.hasBlocker source)).mapM BlockRow.toBlock

def insert (db : Db) (block : Block) : Insertion :=
  insertRelation db db.blocks (.ofBlock block) block.source block.destination BlockRow.relates
    fun blocks => { db with blocks }

theorem insert_inserted {db after : Db} {block : Block} (h : insert db block = .inserted after) :
    after = { db with blocks := db.blocks.put (.ofBlock block) } :=
  (insertRelation_inserted h).2.2.2

theorem insert_fresh {db after : Db} {block : Block} (h : insert db block = .inserted after) :
    db.blocks.get block.id = none :=
  (insertRelation_inserted h).1

theorem insert_unrelated {db after : Db} {block : Block} (h : insert db block = .inserted after) :
    ∀ row ∈ db.blocks.rows, ¬row.relates block.source block.destination = true :=
  (insertRelation_inserted h).2.1

def create (db : Db) (block : Block) : Result Db :=
  (insert db block).orReject "Duplicate block: this block relationship already exists"

def insertIfAbsent (db : Db) (block : Block) : Result (Bool × Db) := (insert db block).orAbsent db

def delete (db : Db) (id : BlockId) : Result Db :=
  if db.blocks.contains id then .ok { db with blocks := db.blocks.erase id }
  else reject .NotFound "Target block not found for delete"

def deleteIfExists (db : Db) (source destination : BlockTargetId) : Bool × Db :=
  (db.blocks.rows.any (·.relates source destination),
    { db with blocks := db.blocks.deleteWhere (·.relates source destination) })

theorem mem_deleteIfExists (db : Db) (source destination : BlockTargetId) (row : BlockRow) :
    row ∈ (deleteIfExists db source destination).2.blocks.rows ↔
      row ∈ db.blocks.rows ∧ row.relates source destination = false :=
  Table.mem_deleteWhere

end BlockRepository

namespace MuteRepository

def findMutes (db : Db) (source : MuteTargetId) : Result (List Mute) :=
  (db.mutes.select (·.hasMuter source)).mapM MuteRow.toMute

def insert (db : Db) (mute : Mute) : Insertion :=
  insertRelation db db.mutes (.ofMute mute) mute.source mute.destination MuteRow.relates
    fun mutes => { db with mutes }

def insertIfAbsent (db : Db) (mute : Mute) : Result (Bool × Db) := (insert db mute).orAbsent db

def deleteIfExists (db : Db) (source destination : MuteTargetId) : Bool × Db :=
  (db.mutes.rows.any (·.relates source destination),
    { db with mutes := db.mutes.deleteWhere (·.relates source destination) })

end MuteRepository

end Emumet

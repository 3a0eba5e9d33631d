import Emumet.LibTable
import Emumet.KernelAccount
import Emumet.KernelProfile
import Emumet.KernelRelation

/-! The Postgres tables of the driver crate. The CHECK constraints of a table are fields of its rows.
A `timestamptz` column keeps microseconds; what the client library does to an instant is a parameter,
of which only idempotence is used. -/

namespace Emumet

/-- What a `timestamptz` column keeps of an instant. -/
structure Timestamptz where
  store : OffsetDateTime → OffsetDateTime
  store_store : ∀ instant, store (store instant) = store instant

/-- Whole microseconds. -/
def Timestamptz.microseconds : Timestamptz where
  store instant := instant / 1000 * 1000
  store_store instant := by rw [Int.mul_ediv_cancel _ (by decide)]

/-- A row of `accounts`. -/
structure AccountRow where
  id : AccountId
  name : String
  isBot : Bool
  deletedAt : Option OffsetDateTime
  version : EventVersion
  nanoid : Nanoid
  createdAt : OffsetDateTime
  suspendedAt : Option OffsetDateTime
  suspendExpiresAt : Option OffsetDateTime
  suspendReason : Option String
  bannedAt : Option OffsetDateTime
  banReason : Option String
  chkSuspendFields : (suspendedAt.isNone ∧ suspendReason.isNone ∧ suspendExpiresAt.isNone) ∨
    (suspendedAt.isSome ∧ suspendReason.isSome)
  chkBanFields : (bannedAt.isNone ∧ banReason.isNone) ∨ (bannedAt.isSome ∧ banReason.isSome)
  chkNotBothSuspendedAndBanned : ¬(suspendedAt.isSome ∧ bannedAt.isSome)
  deriving DecidableEq, Repr

namespace AccountRow

/-- The columns bound for an account by `upsert` and by the read model's `update`. -/
def ofAccount (tz : Timestamptz) (account : Account) : AccountRow :=
  let base : AccountRow :=
    { id := account.id, name := account.name, isBot := account.isBot
      deletedAt := account.deletedAt.map tz.store, version := account.version
      nanoid := account.nanoid, createdAt := tz.store account.createdAt
      suspendedAt := none, suspendExpiresAt := none, suspendReason := none
      bannedAt := none, banReason := none
      chkSuspendFields := by simp, chkBanFields := by simp
      chkNotBothSuspendedAndBanned := by simp }
  match account.status with
  | .Active => base
  | .Suspended reason suspendedAt expiresAt =>
      { base with
        suspendedAt := some (tz.store suspendedAt), suspendExpiresAt := expiresAt.map tz.store
        suspendReason := some reason
        chkSuspendFields := by simp, chkNotBothSuspendedAndBanned := by simp [base] }
  | .Banned reason bannedAt =>
      { base with
        bannedAt := some (tz.store bannedAt), banReason := some reason
        chkBanFields := by simp, chkNotBothSuspendedAndBanned := by simp [base] }

/-- The status decoded from the moderation columns. -/
def status (row : AccountRow) (checkSuspendExpiry : Bool) (now : OffsetDateTime) : AccountStatus :=
  match row.bannedAt, row.banReason with
  | some bannedAt, some reason => .Banned reason bannedAt
  | _, _ =>
      match row.suspendedAt, row.suspendReason with
      | some suspendedAt, some reason =>
          if checkSuspendExpiry then
            match row.suspendExpiresAt with
            | some expiresAt =>
                if expiresAt ≤ now then .Active
                else .Suspended reason suspendedAt (some expiresAt)
            | none => .Suspended reason suspendedAt none
          else .Suspended reason suspendedAt row.suspendExpiresAt
      | _, _ => .Active

/-- `account_from_row`. -/
def toAccount (row : AccountRow) (checkSuspendExpiry : Bool) (now : OffsetDateTime) : Account :=
  { id := row.id, name := row.name, isBot := row.isBot
    status := row.status checkSuspendExpiry now, deletedAt := row.deletedAt
    version := row.version, nanoid := row.nanoid, createdAt := row.createdAt }

/-- The `WHERE` clause of the filtered lookups, apart from the column they look up. -/
def visible (row : AccountRow) (now : OffsetDateTime) : Bool :=
  row.deletedAt.isNone && row.bannedAt.isNone &&
    (row.suspendedAt.isNone || row.suspendExpiresAt.any (· ≤ now))

variable (tz : Timestamptz) (account : Account)

@[simp] theorem ofAccount_id : (ofAccount tz account).id = account.id := by
  unfold ofAccount
  cases account.status <;> rfl

@[simp] theorem ofAccount_name : (ofAccount tz account).name = account.name := by
  unfold ofAccount
  cases account.status <;> rfl

@[simp] theorem ofAccount_isBot : (ofAccount tz account).isBot = account.isBot := by
  unfold ofAccount
  cases account.status <;> rfl

@[simp] theorem ofAccount_version : (ofAccount tz account).version = account.version := by
  unfold ofAccount
  cases account.status <;> rfl

@[simp] theorem ofAccount_nanoid : (ofAccount tz account).nanoid = account.nanoid := by
  unfold ofAccount
  cases account.status <;> rfl

@[simp] theorem ofAccount_deletedAt :
    (ofAccount tz account).deletedAt = account.deletedAt.map tz.store := by
  unfold ofAccount
  cases account.status <;> rfl

end AccountRow

/-- A row of `follows`. -/
structure FollowRow where
  id : FollowId
  followerLocalId : Option AccountId
  followerRemoteId : Option RemoteAccountId
  followeeLocalId : Option AccountId
  followeeRemoteId : Option RemoteAccountId
  approvedAt : Option OffsetDateTime
  chkFollowerExclusive : followerLocalId.isSome ≠ followerRemoteId.isSome
  chkFolloweeExclusive : followeeLocalId.isSome ≠ followeeRemoteId.isSome
  deriving DecidableEq, Repr

/-- A row of `blocks`. -/
structure BlockRow where
  id : BlockId
  blockerLocalId : Option AccountId
  blockerRemoteId : Option RemoteAccountId
  blockedLocalId : Option AccountId
  blockedRemoteId : Option RemoteAccountId
  chkBlockerExclusive : blockerLocalId.isSome ≠ blockerRemoteId.isSome
  chkBlockedExclusive : blockedLocalId.isSome ≠ blockedRemoteId.isSome
  deriving DecidableEq, Repr

/-- A row of `mutes`. -/
structure MuteRow where
  id : MuteId
  muterLocalId : Option AccountId
  muterRemoteId : Option RemoteAccountId
  mutedLocalId : Option AccountId
  mutedRemoteId : Option RemoteAccountId
  chkMuterExclusive : muterLocalId.isSome ≠ muterRemoteId.isSome
  chkMutedExclusive : mutedLocalId.isSome ≠ mutedRemoteId.isSome
  deriving DecidableEq, Repr

/-- A row of `images`. -/
structure Image where
  id : ImageId
  url : String
  deriving DecidableEq, Repr

/-- The event-sourced aggregates. Each has an event table, a read model and a projector, whose name
is its key in `projection_checkpoints`. -/
inductive Aggregate where
  | account
  | profile
  | metadata
  deriving DecidableEq, Repr

/-- The committed contents of the database. -/
structure Db where
  accountEvents : List (SeqEvent AccountEvent)
  profileEvents : List (SeqEvent ProfileEvent)
  metadataEvents : List (SeqEvent MetadataEvent)
  checkpoints : Aggregate → Option Int
  accounts : Table AccountRow.id
  profiles : Table Profile.id
  metadatas : Table Metadata.id
  authAccounts : List AuthAccountId
  authEmumetAccounts : List (AccountId × AuthAccountId)
  images : Table Image.id
  follows : Table FollowRow.id
  blocks : Table BlockRow.id
  mutes : Table MuteRow.id
  remoteAccounts : Table RemoteAccount.id
  outboxActivities : Table OutboxActivity.id

/-- The database right after the migrations. -/
def Db.empty : Db where
  accountEvents := []
  profileEvents := []
  metadataEvents := []
  checkpoints := fun _ => none
  accounts := .empty
  profiles := .empty
  metadatas := .empty
  authAccounts := []
  authEmumetAccounts := []
  images := .empty
  follows := .empty
  blocks := .empty
  mutes := .empty
  remoteAccounts := .empty
  outboxActivities := .empty

end Emumet

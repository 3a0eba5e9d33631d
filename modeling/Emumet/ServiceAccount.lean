import Emumet.LibSession
import Emumet.DriverRepository

/-! The commands on local accounts. A command looks the account up in the read model, asks for the
permission and then runs one transaction, which loads the account from its events, checks it and saves
one event. The relations of the permission service are written after the commit. -/

namespace Emumet

/-! ### Permissions -/

inductive AccountRelation where
  | Owner
  | Editor
  | Signer
  deriving DecidableEq, Repr

/-- `check_permission`, given the answer of the permission service. -/
def checkPermission (answer : Result Bool) : Result Unit := do
  if ← answer then pure ()
  else reject .PermissionDenied "Insufficient permissions"

/-- What a metadata event gets. -/
structure FieldStamp where
  id : MetadataId
  nanoid : Nanoid
  stamp : Stamp

/-- What one call meets outside the database: a reading of the clock, the answers of the permission
service, the outcome of generating and storing a signing key, and the values generated for it. -/
structure Call where
  now : OffsetDateTime
  permission : Result Bool
  writeRelation : AccountRelation → Result Unit
  signingKey : Result Unit
  accountId : AccountId
  accountNanoid : Nanoid
  accountStamp : Stamp
  profileId : ProfileId
  profileNanoid : Nanoid
  profileStamp : Stamp
  field : Nat → FieldStamp

/-- Write all three relations of the caller, in this order. -/
def writeRelations (call : Call) : Result Unit :=
  [AccountRelation.Owner, .Editor, .Signer].forM call.writeRelation

/-! ### Creation -/

inductive ModerationDto where
  | Suspended (reason : String) (suspendedAt : OffsetDateTime) (expiresAt : Option OffsetDateTime)
  | Banned (reason : String) (bannedAt : OffsetDateTime)
  deriving DecidableEq, Repr

structure AccountDto where
  nanoid : String
  name : String
  isBot : Bool
  createdAt : OffsetDateTime
  moderation : Option ModerationDto
  deriving DecidableEq, Repr

def AccountDto.ofAccount (account : Account) : AccountDto where
  nanoid := account.nanoid
  name := account.name
  isBot := account.isBot
  createdAt := account.createdAt
  moderation :=
    match account.status with
    | .Active => none
    | .Suspended reason suspendedAt expiresAt => some (.Suspended reason suspendedAt expiresAt)
    | .Banned reason bannedAt => some (.Banned reason bannedAt)

structure CreateAccountDto where
  name : String
  isBot : Bool

/-- The entity a `Created` event was applied for. -/
def constructed {A : Type} (entity : String) : Option A → Result A
  | some value => .ok value
  | none => reject .Internal ("Failed to construct " ++ entity ++ " from created event")

def createTransaction (tz : Timestamptz) (call : Call) (authAccountId : AuthAccountId)
    (dto : CreateAccountDto) (db : Db) : Result (Account × Db) := do
  let (created, db) ← AccountRepository.save db
    (Account.create call.accountId dto.name dto.isBot call.accountNanoid authAccountId)
    call.accountStamp
  let account ← constructed "account" (← Account.apply call.now none created)
  let db ← AccountReadModel.create tz db account
  let db ← AccountReadModel.linkAuthAccount db call.accountId authAccountId
  let (created, db) ← ProfileRepository.save db
    (Profile.create call.profileId account.id (some dto.name) none none none call.profileNanoid)
    call.profileStamp
  let profile ← constructed "profile" (← Profile.apply none created)
  let db ← ProfileReadModel.create db profile
  call.signingKey
  pure (account, db)

def createAccount (tz : Timestamptz) (call : Call) (authAccountId : AuthAccountId)
    (dto : CreateAccountDto) : Session Db Report AccountDto := do
  let account ← Session.atomically (createTransaction tz call authAccountId dto)
  Session.lift (call.writeRelation .Owner)
  pure (.ofAccount account)

/-! ### Commands on an account that exists -/

def accountFound (nanoid : String) : Option Account → Result Account
  | some account => .ok account
  | none => reject .NotFound ("Account not found with nanoid: " ++ nanoid)

/-- Load the account, check it and save the event at the version it was loaded at. -/
def commandTransaction (call : Call) (id : AccountId) (check : Account → Result Unit)
    (command : EventVersion → CommandEnvelope AccountEvent) (db : Db) : Result Db := do
  let loaded ← AccountRepository.load db call.now id
  check loaded.aggregate
  let (_, db) ← AccountRepository.save db (command loaded.version) call.accountStamp
  pure db

/-- The loaded account is not looked at. -/
def deactivateAccount (call : Call) (accountNanoid : String) : Session Db Report Unit := do
  let projection ← Session.read fun db =>
    accountFound accountNanoid (AccountReadModel.findByNanoid db call.now accountNanoid)
  Session.lift (checkPermission call.permission)
  Session.exec (commandTransaction call projection.id (fun _ => .ok ())
    (Account.deactivate projection.id))
  Session.lift (writeRelations call)

def reactivateAccount (call : Call) (authAccountId : AuthAccountId) (accountNanoid : String) :
    Session Db Report Unit := do
  let projection ← Session.read fun db => accountFound accountNanoid
    (AccountReadModel.findByNanoidIncludingDeleted db call.now accountNanoid)
  Session.read fun db =>
    if AccountReadModel.isLinkedIncludingDeleted db authAccountId projection.id then .ok ()
    else reject .PermissionDenied "Account is not linked to the authenticated principal"
  Session.exec (commandTransaction call projection.id
    (fun account =>
      if account.deletedAt.isNone then reject .Rejected "Account is not deactivated" else .ok ())
    (Account.reactivate projection.id))
  Session.lift (writeRelations call)

/-! ### Moderation -/

/-- The shape of the four moderation commands; `precondition` is checked before the transaction. -/
def moderate (call : Call) (accountNanoid : String) (precondition : Result Unit)
    (check : Account → Result Unit)
    (command : AccountId → EventVersion → CommandEnvelope AccountEvent) :
    Session Db Report Unit := do
  let projection ← Session.read fun db =>
    accountFound accountNanoid (AccountReadModel.findByNanoidUnfiltered db call.now accountNanoid)
  Session.lift (checkPermission call.permission)
  Session.lift precondition
  Session.exec (commandTransaction call projection.id check (command projection.id))

def suspendAccount (call : Call) (accountNanoid reason : String)
    (expiresAt : Option OffsetDateTime) : Session Db Report Unit := do
  Session.lift (ModerationReason.validate reason)
  moderate call accountNanoid
    (if expiresAt.any (· ≤ call.now) then reject .Rejected "expires_at must be in the future"
      else .ok ())
    (fun account =>
      if !account.status.isActive then reject .Rejected "Account is not active"
      else if account.deletedAt.isSome then reject .Rejected "Account is deactivated"
      else .ok ())
    (fun id => Account.suspend call.now id reason expiresAt)

def unsuspendAccount (call : Call) (accountNanoid : String) : Session Db Report Unit :=
  moderate call accountNanoid (.ok ())
    (fun account =>
      if !account.status.isSuspended then reject .Rejected "Account is not suspended" else .ok ())
    Account.unsuspend

def banAccount (call : Call) (accountNanoid reason : String) : Session Db Report Unit := do
  Session.lift (ModerationReason.validate reason)
  moderate call accountNanoid (.ok ())
    (fun account =>
      if account.status.isBanned then reject .Rejected "Account is already banned"
      else if account.deletedAt.isSome then reject .Rejected "Account is deactivated"
      else .ok ())
    (fun id => Account.ban call.now id reason)

def unbanAccount (call : Call) (accountNanoid : String) : Session Db Report Unit :=
  moderate call accountNanoid (.ok ())
    (fun account =>
      if !account.status.isBanned then reject .Rejected "Account is not banned" else .ok ())
    Account.unban

end Emumet

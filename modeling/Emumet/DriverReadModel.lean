import Emumet.DriverEventStore

/-! Queries and writes on the read-model tables. A write returns the database after it, or the error
of the constraint it violates. -/

namespace Emumet

/-- A statement rejected by a foreign key, as `convert_error` reports it. -/
def foreignKeyViolation {α : Type} : Result α :=
  reject .Internal "insert or update violates foreign key constraint"

/-- Links are compared column by column. -/
instance : LawfulBEq (AccountId × AuthAccountId) := inferInstance

/-! ### Accounts -/

/-- Another account holds the name or the nanoid of the row. -/
def Db.accountConflict (db : Db) (row : AccountRow) : Bool :=
  db.accounts.rows.any fun other =>
    other.id ≠ row.id && (other.name = row.name || other.nanoid = row.nanoid)

namespace AccountReadModel

/-- Rows whose deletion is not recorded; the name is the source's, suspended and banned accounts are
returned. -/
def findByIdUnfiltered (db : Db) (now : OffsetDateTime) (id : AccountId) : Option Account :=
  ((db.accounts.get id).filter (·.deletedAt.isNone)).map (·.toAccount true now)

def findByIdIncludingDeleted (db : Db) (now : OffsetDateTime) (id : AccountId) : Option Account :=
  (db.accounts.get id).map (·.toAccount true now)

/-- A row that is visible to everyone: not deleted, not banned, not under a suspension in force. -/
def findVisible (db : Db) (now : OffsetDateTime) (matching : AccountRow → Bool) : Option Account :=
  (db.accounts.rows.find? fun row => matching row && row.visible now).map (·.toAccount false now)

def findByName (db : Db) (now : OffsetDateTime) (name : String) : Option Account :=
  findVisible db now fun row => row.name = name

def findByNanoid (db : Db) (now : OffsetDateTime) (nanoid : Nanoid) : Option Account :=
  findVisible db now fun row => row.nanoid = nanoid

def findById (db : Db) (now : OffsetDateTime) (id : AccountId) : Option Account :=
  findVisible db now fun row => row.id = id

def findByNanoidUnfiltered (db : Db) (now : OffsetDateTime) (nanoid : Nanoid) : Option Account :=
  (db.accounts.rows.find? fun row => row.nanoid = nanoid && row.deletedAt.isNone).map
    (·.toAccount true now)

/-- The accounts linked to the caller, suspended and banned ones included. -/
def findByAuthId (db : Db) (now : OffsetDateTime) (authId : AuthAccountId) : List Account :=
  (db.accounts.select fun row => (row.id, authId) ∈ db.authEmumetAccounts && row.deletedAt.isNone).map
    (·.toAccount true now)

def findByNanoidIncludingDeleted (db : Db) (now : OffsetDateTime) (nanoid : Nanoid) :
    Option Account :=
  (db.accounts.rows.find? fun row => row.nanoid = nanoid).map (·.toAccount true now)

def isLinkedIncludingDeleted (db : Db) (authId : AuthAccountId) (accountId : AccountId) : Bool :=
  (accountId, authId) ∈ db.authEmumetAccounts

/-- The columns of moderation and deletion are left null. -/
def create (tz : Timestamptz) (db : Db) (account : Account) : Result Db :=
  let row := AccountRow.ofAccount tz { account with status := .Active, deletedAt := none }
  if db.accounts.contains row.id || db.accountConflict row then uniqueViolation
  else .ok { db with accounts := db.accounts.put row }

/-- The nanoid and the creation time of the stored row are kept. -/
def update (tz : Timestamptz) (db : Db) (account : Account) : Result Db :=
  match db.accounts.get account.id with
  | none => reject .NotFound "Target account not found for update"
  | some stored =>
      let row : AccountRow :=
        { AccountRow.ofAccount tz account with nanoid := stored.nanoid, createdAt := stored.createdAt }
      if db.accountConflict row then uniqueViolation
      else .ok { db with accounts := db.accounts.put row }

/-- `ON CONFLICT DO NOTHING`: the foreign keys are checked for a row that is inserted. -/
def linkAuthAccount (db : Db) (accountId : AccountId) (authId : AuthAccountId) : Result Db :=
  if (accountId, authId) ∈ db.authEmumetAccounts then .ok db
  else if db.accounts.contains accountId && authId ∈ db.authAccounts then
    .ok { db with authEmumetAccounts := (accountId, authId) :: db.authEmumetAccounts }
  else foreignKeyViolation

end AccountReadModel

namespace AccountProjectionWriter

/-- Insert the row, or replace the stored one when its version is older. -/
def upsert (tz : Timestamptz) (db : Db) (account : Account) : Result Db :=
  let row := AccountRow.ofAccount tz account
  if (db.accounts.get row.id).all (·.version < row.version) then
    if db.accountConflict row then uniqueViolation
    else .ok { db with accounts := db.accounts.put row }
  else .ok db

end AccountProjectionWriter

/-! ### Profiles and metadata

The columns of `profiles` and `metadatas` are the fields of the entities. -/

/-- Another profile holds the account or the nanoid. -/
def Db.profileConflict (db : Db) (profile : Profile) : Bool :=
  db.profiles.rows.any fun other =>
    other.id ≠ profile.id && (other.accountId = profile.accountId || other.nanoid = profile.nanoid)

/-- The account and the images of the profile exist. -/
def Db.profileReferences (db : Db) (profile : Profile) : Bool :=
  db.accounts.contains profile.accountId && profile.icon.all db.images.contains &&
    profile.banner.all db.images.contains

def Db.metadataConflict (db : Db) (metadata : Metadata) : Bool :=
  db.metadatas.rows.any fun other => other.id ≠ metadata.id && other.nanoid = metadata.nanoid

namespace ProfileReadModel

def findById (db : Db) (id : ProfileId) : Option Profile := db.profiles.get id

def findByIdUnfiltered (db : Db) (id : ProfileId) : Option Profile := findById db id

def findByAccountId (db : Db) (accountId : AccountId) : Option Profile :=
  db.profiles.rows.find? fun row => row.accountId = accountId

def findByAccountIds (db : Db) (accountIds : List AccountId) : List Profile :=
  db.profiles.select fun row => row.accountId ∈ accountIds

def create (db : Db) (profile : Profile) : Result Db :=
  if db.profiles.contains profile.id || db.profileConflict profile then uniqueViolation
  else if !db.profileReferences profile then foreignKeyViolation
  else .ok { db with profiles := db.profiles.put profile }

/-- The account and the nanoid of the stored row are kept. -/
def update (db : Db) (profile : Profile) : Result Db :=
  match db.profiles.get profile.id with
  | none => reject .NotFound "Target profile not found for update"
  | some stored =>
      let row : Profile := { profile with accountId := stored.accountId, nanoid := stored.nanoid }
      if !db.profileReferences row then foreignKeyViolation
      else .ok { db with profiles := db.profiles.put row }

def delete (db : Db) (id : ProfileId) : Result Db :=
  if db.profiles.contains id then .ok { db with profiles := db.profiles.erase id }
  else reject .NotFound "Target profile not found for delete"

end ProfileReadModel

namespace MetadataReadModel

def findById (db : Db) (id : MetadataId) : Option Metadata := db.metadatas.get id

def findByIdUnfiltered (db : Db) (id : MetadataId) : Option Metadata := findById db id

def findByAccountId (db : Db) (accountId : AccountId) : List Metadata :=
  db.metadatas.select fun row => row.accountId = accountId

def findByAccountIds (db : Db) (accountIds : List AccountId) : List Metadata :=
  db.metadatas.select fun row => row.accountId ∈ accountIds

def create (db : Db) (metadata : Metadata) : Result Db :=
  if db.metadatas.contains metadata.id || db.metadataConflict metadata then uniqueViolation
  else if !db.accounts.contains metadata.accountId then foreignKeyViolation
  else .ok { db with metadatas := db.metadatas.put metadata }

/-- The account and the nanoid of the stored row are kept. -/
def update (db : Db) (metadata : Metadata) : Result Db :=
  match db.metadatas.get metadata.id with
  | none => reject .NotFound "Target metadata not found for update"
  | some stored =>
      let row : Metadata := { metadata with accountId := stored.accountId, nanoid := stored.nanoid }
      .ok { db with metadatas := db.metadatas.put row }

def delete (db : Db) (id : MetadataId) : Result Db :=
  if db.metadatas.contains id then .ok { db with metadatas := db.metadatas.erase id }
  else reject .NotFound "Target metadata not found for delete"

end MetadataReadModel

namespace ImageRepository

def findByUrl (db : Db) (url : String) : Option Image := db.images.rows.find? fun row => row.url = url

def findByIds (db : Db) (ids : List ImageId) : List Image := db.images.select fun row => row.id ∈ ids

end ImageRepository

namespace ProfileProjectionWriter

/-- Insert the row, or replace the stored one when its version is older. -/
def upsert (db : Db) (profile : Profile) : Result Db :=
  if (db.profiles.get profile.id).all (·.version < profile.version) then
    if db.profileConflict profile then uniqueViolation
    else if !db.profileReferences profile then foreignKeyViolation
    else .ok { db with profiles := db.profiles.put profile }
  else .ok db

def delete (db : Db) (id : ProfileId) : Db := { db with profiles := db.profiles.erase id }

end ProfileProjectionWriter

namespace MetadataProjectionWriter

/-- Insert the row, or replace the stored one when its version is older. -/
def upsert (db : Db) (metadata : Metadata) : Result Db :=
  if (db.metadatas.get metadata.id).all (·.version < metadata.version) then
    if db.metadataConflict metadata then uniqueViolation
    else if !db.accounts.contains metadata.accountId then foreignKeyViolation
    else .ok { db with metadatas := db.metadatas.put metadata }
  else .ok db

def delete (db : Db) (id : MetadataId) : Db := { db with metadatas := db.metadatas.erase id }

end MetadataProjectionWriter

end Emumet

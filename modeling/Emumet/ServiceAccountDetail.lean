import Emumet.ServiceAccount

/-! Updating the details of an account: its bot flag, its profile and its fields, in one transaction.
Delivering the changed actor to its followers afterwards touches no table, and its failure is only
logged. -/

namespace Emumet

structure AccountFieldDto where
  label : String
  content : String
  deriving DecidableEq, Repr

structure UpdateAccountDto where
  accountNanoid : String
  isBot : FieldAction Bool
  displayName : FieldAction String
  summary : FieldAction String
  iconUrl : FieldAction String
  bannerUrl : FieldAction String
  fields : Option (List AccountFieldDto)

structure AccountDetailDto where
  nanoid : String
  name : String
  displayName : Option String
  summary : Option String
  iconUrl : Option String
  bannerUrl : Option String
  isBot : Bool
  fields : List AccountFieldDto
  createdAt : OffsetDateTime
  moderation : Option ModerationDto
  deriving DecidableEq, Repr

/-! ### Validation -/

/-- Validate the value an action sets. -/
def validateSet (validate : String → Result Unit) : FieldAction String → Result Unit
  | .Set value => validate value
  | _ => .ok ()

def validateUpdateAccountDto (dto : UpdateAccountDto) : Result Unit := do
  validateSet ProfileDisplayName.validate dto.displayName
  validateSet ProfileSummary.validate dto.summary
  (dto.fields.getD []).forM fun field => do
    MetadataLabel.validate field.label
    MetadataContent.validate field.content

/-! ### The account -/

def applyIsBot (current : Bool) : FieldAction Bool → Bool
  | .Unchanged => current
  | .Clear => false
  | .Set value => value

/-- An event is saved, and the row updated, only when the flag changes. -/
def updateIsBot (tz : Timestamptz) (call : Call) (accountId : AccountId) (action : FieldAction Bool)
    (db : Db) : Result Db := do
  let loaded ← AccountRepository.load db call.now accountId
  let isBot := applyIsBot loaded.aggregate.isBot action
  if isBot = loaded.aggregate.isBot then pure db
  else
    let (updated, db) ← AccountRepository.save db (Account.update accountId isBot loaded.version)
      call.accountStamp
    match ← Account.apply call.now (some loaded.aggregate) updated with
    | some account => AccountReadModel.update tz db account
    | none => reject .Internal ""

/-! ### The profile -/

def resolveImageId (db : Db) (url : String) : Result ImageId := do
  ImageUrl.validate url
  match ImageRepository.findByUrl db url with
  | some image => .ok image.id
  | none => reject .NotFound ("Image not found with URL: " ++ url)

def resolveFieldActionImageId (db : Db) : FieldAction String → Result (FieldAction ImageId)
  | .Unchanged => .ok .Unchanged
  | .Clear => .ok .Clear
  | .Set url => do pure (.Set (← resolveImageId db url))

/-- Save the update, reload the stream and write what it folds to. -/
def updateProfile (call : Call) (id : ProfileId) (displayName summary : FieldAction String)
    (icon banner : FieldAction ImageId) (db : Db) : Result Db := do
  if displayName.isUnchanged && summary.isUnchanged && icon.isUnchanged && banner.isUnchanged then
    pure db
  else
    let (_, db) ← ProfileRepository.save db (Profile.update id displayName summary icon banner)
      call.profileStamp
    let rehydrated ← ProfileRepository.load db id
    ProfileReadModel.update db rehydrated.aggregate

/-! ### The fields -/

inductive FieldUpdate where
  | Update (metadataId : MetadataId) (label content : String)
  | Delete (metadataId : MetadataId)
  | Create (label content : String)
  deriving DecidableEq, Repr

/-- Fields are paired by index; a pair is updated if it differs, and the rest is deleted or created. -/
def planFieldUpdates : List Metadata → List AccountFieldDto → List FieldUpdate
  | current :: existing, next :: submitted =>
      (if current.label ≠ next.label ∨ current.content ≠ next.content then
        [.Update current.id next.label next.content] else []) ++ planFieldUpdates existing submitted
  | existing, [] => existing.map fun field => .Delete field.id
  | [], submitted => submitted.map fun field => .Create field.label field.content

def applyFieldUpdate (accountId : AccountId) (field : FieldStamp) (db : Db) :
    FieldUpdate → Result Db
  | .Update metadataId label content => do
      let loaded ← MetadataRepository.load db metadataId
      let (_, db) ← MetadataRepository.save db (Metadata.update metadataId label content loaded.version)
        field.stamp
      let reloaded ← MetadataRepository.load db metadataId
      MetadataReadModel.update db reloaded.aggregate
  | .Delete metadataId => do
      let loaded ← MetadataRepository.load db metadataId
      let (_, db) ← MetadataRepository.save db (Metadata.delete metadataId loaded.version) field.stamp
      MetadataReadModel.delete db metadataId
  | .Create label content => do
      let (created, db) ← MetadataRepository.save db
        (Metadata.create field.id accountId label content field.nanoid) field.stamp
      let metadata ← constructed "metadata" (← Metadata.apply none created)
      MetadataReadModel.create db metadata

def applyFieldUpdates (call : Call) (accountId : AccountId) (existing : List Metadata)
    (submitted : List AccountFieldDto) (db : Db) : Result Db :=
  (planFieldUpdates existing submitted).zipIdx.foldlM
    (fun db (operation, index) => applyFieldUpdate accountId (call.field index) db operation) db

/-- Fields that are not submitted stay as they are. -/
def updateFields (call : Call) (accountId : AccountId) (existing : List Metadata)
    (submitted : Option (List AccountFieldDto)) (db : Db) : Result Db :=
  match submitted with
  | some fields => applyFieldUpdates call accountId existing fields db
  | none => .ok db

/-! ### The use case -/

/-- The image a field holds after the action, resolved again from its URL. -/
def imageAfter (db : Db) (action : FieldAction String) (current : Option ImageId) :
    Result (Option ImageId) :=
  match action with
  | .Unchanged => .ok current
  | .Clear => .ok none
  | .Set url => do pure (some (← resolveImageId db url))

/-- The answer: the request where it sets a value, and the rows read before the update elsewhere. -/
def accountDetail (call : Call) (accountId : AccountId) (dto : UpdateAccountDto) (profile : Profile)
    (existing : List Metadata) (db : Db) : Result AccountDetailDto := do
  match AccountReadModel.findById db call.now accountId with
  | none => reject .NotFound ""
  | some account =>
      let iconId ← imageAfter db dto.iconUrl profile.icon
      let bannerId ← imageAfter db dto.bannerUrl profile.banner
      let images := ImageRepository.findByIds db (iconId.toList ++ bannerId.toList)
      let urlOf (id : ImageId) : Option String := (images.find? (·.id = id)).map Image.url
      let base := AccountDto.ofAccount account
      pure {
        nanoid := base.nanoid
        name := base.name
        displayName := dto.displayName.applyTo profile.displayName
        summary := dto.summary.applyTo profile.summary
        iconUrl := iconId.bind urlOf
        bannerUrl := bannerId.bind urlOf
        isBot := base.isBot
        fields := dto.fields.getD (existing.map fun field => ⟨field.label, field.content⟩)
        createdAt := base.createdAt
        moderation := base.moderation }

/-- The answer, and whether the actor's images changed. -/
def updateDetailTransaction (tz : Timestamptz) (call : Call) (accountId : AccountId)
    (dto : UpdateAccountDto) (db : Db) : Result ((AccountDetailDto × Bool) × Db) := do
  let db ← updateIsBot tz call accountId dto.isBot db
  match ProfileReadModel.findByAccountId db accountId with
  | none => reject .NotFound ""
  | some profile =>
      let icon ← resolveFieldActionImageId db dto.iconUrl
      let banner ← resolveFieldActionImageId db dto.bannerUrl
      let mediaChanged := icon.applyTo profile.icon ≠ profile.icon ∨
        banner.applyTo profile.banner ≠ profile.banner
      let db ← updateProfile call profile.id dto.displayName dto.summary icon banner db
      let existing := (MetadataReadModel.findByAccountId db accountId).insertionSort
        fun a b => a.id ≤ b.id
      let db ← updateFields call accountId existing dto.fields db
      pure ((← accountDetail call accountId dto profile existing db, decide mediaChanged), db)

def updateAccountDetail (tz : Timestamptz) (call : Call) (dto : UpdateAccountDto) :
    Session Db Report AccountDetailDto := do
  Session.lift (validateUpdateAccountDto dto)
  let projection ← Session.read fun db =>
    match AccountReadModel.findByNanoidUnfiltered db call.now dto.accountNanoid with
    | some account => .ok account
    | none => reject .NotFound ""
  Session.lift (checkPermission call.permission)
  Session.lift <|
    if projection.status.isActive then .ok ()
    else reject .Rejected "Cannot modify a suspended or banned account"
  -- If the images changed, the actor is delivered to its followers here.
  let (updated, _) ← Session.atomically (updateDetailTransaction tz call projection.id dto)
  pure updated

end Emumet

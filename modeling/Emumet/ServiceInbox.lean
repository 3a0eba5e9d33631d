import Emumet.ServiceFollow

/-! The handlers of inbox activities. A Follow is accepted as soon as it arrives, an Accept approves a
pending follow, a Block removes the follows between the two accounts, and an Undo deletes the follow or
block it names. Any other activity is ignored. -/

namespace Emumet

structure InboxActivityDto where
  accountId : AccountId
  accountNanoid : String
  activity : Activity

namespace Activity

/-- The id of an activity's object, given as text or as an object with an id. -/
def objectId (activity : Activity) : Option String :=
  match activity.object with
  | some (.string value) => some value
  | some (.object fields) => (fields.lookup "id").bind Json.asStr?
  | _ => none

/-- The object as an activity of the given type. -/
def objectOfType (activity : Activity) (type_ : String) : Option Activity :=
  (activity.object.bind fromJson).filter (·.type_ = type_)

end Activity

/-- A part of an activity that has to be there. -/
def required {α : Type} (value : Option α) (missing : String) : Result α :=
  match value with
  | some value => .ok value
  | none => reject .Rejected missing

def ensureLocalActorMatches (server : Server) (accountNanoid objectId : String) : Result Unit :=
  let expected := localActorUrl server.publicBaseUrl accountNanoid
  if trimEndSlashes objectId = expected then .ok ()
  else reject .Rejected
    ("Follow object does not match local actor: expected " ++ expected ++ ", got " ++ objectId)

/-! ### Follow and Accept -/

def acceptActivity (publicBaseUrl : String) (followId : FollowId) (actor : String)
    (originalFollow : Activity) : Activity where
  context := some (.string activitystreamsContext)
  id := activityUrl publicBaseUrl followId
  type_ := "Accept"
  actor := actor
  object := some originalFollow.toJson
  target := none
  to_ := some [originalFollow.actor]
  cc := none

/-- The transaction of an inbound Follow; nothing is stored for one that is already there. -/
def followTransaction (outside : Outside) (accountId : AccountId) (follow : Follow)
    (accept : Delivery) (db : Db) : Result (Option OutboxActivityId × Db) := do
  let (inserted, db) ← FollowRepository.insertIfAbsent db follow
  if inserted then storeDelivery outside accountId (some accept) db else pure (none, db)

def handleFollowActivity (server : Server) (outside : Outside) (dto : InboxActivityDto) :
    Session Db Report Unit := do
  let followedActorUrl ← Session.lift
    (required dto.activity.objectId "Follow activity object must be an actor id")
  Session.lift (ensureLocalActorMatches server dto.accountNanoid followedActorUrl)
  let actor ← Session.lift (resolveRemoteActor server outside dto.activity.actor)
  let remoteAccount ← Session.atomically (upsertRemoteAccount outside actor)
  let follow ← Session.lift
    (Follow.new outside.relationId (.Remote remoteAccount.id) (.Local dto.accountId) (some outside.now))
  let accept := acceptActivity server.publicBaseUrl follow.id
    (localActorUrl server.publicBaseUrl dto.accountNanoid) dto.activity
  let delivery : Delivery := (accept, remoteAccount.inboxUrl)
  let outboxId ← Session.atomically (followTransaction outside dto.accountId follow delivery)
  deliverStored outside outboxId (some delivery)

/-- The follow an Accept answers: the URL of the remote actor, unless the Accept is not about a follow
of the local actor or not by the followed one. -/
def acceptedActorUrl (server : Server) (dto : InboxActivityDto) : Result (Option String) := do
  let nestedFollow ← required (dto.activity.objectOfType "Follow")
    "Accept object must be a Follow activity"
  if trimEndSlashes nestedFollow.actor ≠
      trimEndSlashes (localActorUrl server.publicBaseUrl dto.accountNanoid) then pure none
  else
    let remoteActorUrl ← required nestedFollow.objectId "Accept Follow object must have an actor id"
    if trimEndSlashes dto.activity.actor ≠ trimEndSlashes remoteActorUrl then pure none
    else pure (some remoteActorUrl)

def handleAcceptActivity (server : Server) (outside : Outside) (dto : InboxActivityDto) :
    Session Db Report Unit := do
  match ← Session.lift (acceptedActorUrl server dto) with
  | none => pure ()
  | some remoteActorUrl => do
      let remoteAccount ← Session.read fun db =>
        match RemoteAccountRepository.findByUrl db remoteActorUrl with
        | some remoteAccount => .ok remoteAccount
        | none => reject .NotFound ("Remote account not found for " ++ remoteActorUrl)
      Session.exec fun db => .ok (FollowRepository.approveFollowIfPending db outside.now
        (.Local dto.accountId) (.Remote remoteAccount.id)).2

/-! ### Block -/

/-- The transaction of an inbound Block. A duplicate aborts the transaction at its first statement, so
the follows are left alone. -/
def inboundBlockTransaction (block : Block) (db : Db) : Result Db := do
  let (inserted, db) ← BlockRepository.insertIfAbsent db block
  if inserted then removeFollowsBetween block.source block.destination db else pure db

def handleBlockActivity (server : Server) (outside : Outside) (dto : InboxActivityDto) :
    Session Db Report Unit := do
  let blockedActorUrl ← Session.lift
    (required dto.activity.objectId "Block activity object must be an actor id")
  Session.lift (ensureLocalActorMatches server dto.accountNanoid blockedActorUrl)
  let actor ← Session.lift (resolveRemoteActor server outside dto.activity.actor)
  let remoteAccount ← Session.atomically (upsertRemoteAccount outside actor)
  let block ← Session.lift
    (Block.new outside.relationId (.Remote remoteAccount.id) (.Local dto.accountId))
  Session.exec (inboundBlockTransaction block)

/-! ### Undo -/

/-- What the two handlers of an Undo do: the object has to be an activity of the given type about the
local actor, and the relation is deleted if the remote account is stored. -/
def undoRelation (type_ notActivity notActor : String)
    (deleteIfExists : Db → TargetId → TargetId → Bool × Db) (server : Server) (dto : InboxActivityDto) :
    Session Db Report Unit := do
  let activity ← Session.lift (required (dto.activity.objectOfType type_) notActivity)
  let actorUrl ← Session.lift (required activity.objectId notActor)
  Session.lift (ensureLocalActorMatches server dto.accountNanoid actorUrl)
  match ← Session.read fun db => .ok (RemoteAccountRepository.findByUrl db dto.activity.actor) with
  | none => pure ()
  | some remoteAccount =>
      Session.exec fun db =>
        .ok (deleteIfExists db (.Remote remoteAccount.id) (.Local dto.accountId)).2

def handleUndoFollow (server : Server) (dto : InboxActivityDto) : Session Db Report Unit :=
  undoRelation "Follow" "Undo activity object must be a Follow activity"
    "Undo Follow object must target an actor id" FollowRepository.deleteIfExists server dto

def handleUndoBlockActivity (server : Server) (dto : InboxActivityDto) : Session Db Report Unit :=
  undoRelation "Block" "Undo activity object must be a Block activity"
    "Undo Block object must target an actor id" BlockRepository.deleteIfExists server dto

/-! ### Dispatch -/

def handleInboxActivity (server : Server) (outside : Outside) (dto : InboxActivityDto) :
    Session Db Report Unit :=
  if dto.activity.type_ = "Follow" then handleFollowActivity server outside dto
  else if dto.activity.type_ = "Accept" then handleAcceptActivity server outside dto
  else if dto.activity.type_ = "Block" then handleBlockActivity server outside dto
  else if dto.activity.type_ = "Undo" ∧ (dto.activity.objectOfType "Follow").isSome then
    handleUndoFollow server dto
  else if dto.activity.type_ = "Undo" ∧ (dto.activity.objectOfType "Block").isSome then
    handleUndoBlockActivity server dto
  else pure ()

end Emumet

import Emumet.DriverRelations
import Emumet.ServiceRemoteActor

/-! Blocking and unblocking an account on behalf of a local one. The block, the removal of the follows
between the two and the activity to be delivered are one transaction; resolving a remote target writes
its row before it, and delivery comes after it. -/

namespace Emumet

/-- The account an outbound request is made for. -/
def findAccount (db : Db) (now : OffsetDateTime) (accountNanoid : String) : Result Account :=
  match AccountReadModel.findByNanoid db now accountNanoid with
  | some account => .ok account
  | none => reject .NotFound ("Account not found with nanoid: " ++ accountNanoid)

/-! ### Outbox -/

/-- An activity that is stored to be delivered, or that is already delivered. -/
def outboxEntry (outside : Outside) (accountId : AccountId) (activity : Activity)
    (deliveredAt : Option OffsetDateTime) : OutboxActivity where
  id := 0
  accountId := accountId
  activityId := activity.id
  activityType := activity.type_
  objectJson := activity.render
  createdAt := outside.now
  deliveredAt := deliveredAt
  attemptedAt := none
  error := none

/-- An activity and the inbox it goes to, if there is one. -/
abbrev Delivery := Activity × Option String

/-- Store the activity of a remote target. -/
def storeDelivery (outside : Outside) (accountId : AccountId)
    (delivery : Option Delivery) (db : Db) : Result (Option OutboxActivityId × Db) :=
  match delivery with
  | none => .ok (none, db)
  | some (activity, _) => do
      let (outboxId, db) ← OutboxActivityRepository.create db outside.outboxId
        (outboxEntry outside accountId activity none)
      pure (some outboxId, db)

/-- `deliver_outbox_activity`: deliver and record the outcome. -/
def deliverOutboxActivity (outside : Outside) (outboxId : OutboxActivityId) (inboxUrl : String)
    (activity : Activity) : Session Db Report Unit :=
  match outside.deliver inboxUrl activity with
  | .ok _ => Session.exec fun db => .ok (OutboxActivityRepository.markDelivered db outside.now outboxId)
  | .error report => do
      Session.exec fun db => .ok (OutboxActivityRepository.markDeliveryAttempt db outside.now outboxId
        (some report.printable))
      Session.lift (.error report)

/-- Deliver what was stored; a failure is only logged. -/
def deliverStored (outside : Outside) (outboxId : Option OutboxActivityId)
    (delivery : Option Delivery) : Session Db Report Unit :=
  match outboxId, delivery with
  | some outboxId, some (activity, some inboxUrl) => do
      let _ ← Session.attempt (deliverOutboxActivity outside outboxId inboxUrl activity)
      pure ()
  | _, _ => pure ()

/-! ### Targets and activities -/

inductive BlockTarget where
  | Local (account : Account)
  | Remote (remoteAccount : RemoteAccount)

namespace BlockTarget

def id : BlockTarget → BlockTargetId
  | .Local account => .Local account.id
  | .Remote remoteAccount => .Remote remoteAccount.id

def name : BlockTarget → String
  | .Local account => account.nanoid
  | .Remote remoteAccount => remoteAccount.url

def typeName : BlockTarget → String
  | .Local _ => "local"
  | .Remote _ => "remote"

end BlockTarget

def resolveBlockTarget (server : Server) (outside : Outside) (target : String) :
    Session Db Report BlockTarget := do
  match ← Session.read fun db => .ok (AccountReadModel.findByNanoid db outside.now target) with
  | some account => pure (.Local account)
  | none => do
      let actor ← Session.lift (resolveRemoteActorIdentifier server outside target)
      let remoteAccount ← Session.atomically (upsertRemoteAccount outside actor)
      pure (.Remote remoteAccount)

def blockActivity (publicBaseUrl : String) (blockId : BlockId) (actorUrl remoteActorUrl : String) :
    Activity where
  context := some (.string activitystreamsContext)
  id := activityUrl publicBaseUrl blockId
  type_ := "Block"
  actor := actorUrl
  object := some (.string remoteActorUrl)
  target := none
  to_ := some [remoteActorUrl]
  cc := none

def undoBlockActivity (publicBaseUrl : String) (activityId : Int) (originalBlock : Activity)
    (remoteActorUrl : String) : Activity where
  context := some (.string activitystreamsContext)
  id := activityUrl publicBaseUrl activityId
  type_ := "Undo"
  actor := originalBlock.actor
  object := some originalBlock.toJson
  target := none
  to_ := some [remoteActorUrl]
  cc := none

/-- The Block to be delivered to a remote target. -/
def BlockTarget.blockDelivery (server : Server) (blockId : BlockId) (actorUrl : String) :
    BlockTarget → Option Delivery
  | .Local _ => none
  | .Remote remoteAccount =>
      some (blockActivity server.publicBaseUrl blockId actorUrl remoteAccount.url, remoteAccount.inboxUrl)

/-- The Undo of a Block to be delivered to a remote target. -/
def BlockTarget.undoDelivery (server : Server) (outside : Outside) (blockId : BlockId)
    (actorUrl : String) : BlockTarget → Option Delivery
  | .Local _ => none
  | .Remote remoteAccount =>
      some (undoBlockActivity server.publicBaseUrl outside.activityId
        (blockActivity server.publicBaseUrl blockId actorUrl remoteAccount.url) remoteAccount.url,
        remoteAccount.inboxUrl)

/-! ### The use cases -/

/-- Delete the follows from one end to another. -/
def removeFollows (source destination : FollowTargetId) (db : Db) : Result Db := do
  let followings ← FollowRepository.findFollowings db source
  (followings.filter (·.destination = destination)).foldlM
    (fun db follow => FollowRepository.delete db follow.id) db

/-- `remove_follows_between`. -/
def removeFollowsBetween (a b : FollowTargetId) (db : Db) : Result Db := do
  let db ← removeFollows a b db
  removeFollows b a db

/-- The transaction of `block_account`. -/
def blockTransaction (outside : Outside) (accountId : AccountId) (block : Block)
    (delivery : Option Delivery) (db : Db) : Result (Option OutboxActivityId × Db) := do
  let existing ← BlockRepository.findBlocks db block.source
  if existing.any (·.destination = block.destination) then reject .Rejected "Already blocked"
  else
    let db ← BlockRepository.create db block
    let db ← removeFollowsBetween block.source block.destination db
    storeDelivery outside accountId delivery db

structure RelationDto where
  id : String
  targetType : String
  target : String
  deriving DecidableEq, Repr

def blockAccount (server : Server) (outside : Outside) (accountNanoid target : String) :
    Session Db Report RelationDto := do
  let account ← Session.read fun db => findAccount db outside.now accountNanoid
  Session.lift (checkPermission outside.permission)
  let resolved ← resolveBlockTarget server outside target
  let block ← Session.lift <|
    if TargetId.Local account.id = resolved.id then reject .Rejected "Cannot block yourself"
    else Block.new outside.relationId (.Local account.id) resolved.id
  let delivery := resolved.blockDelivery server block.id
    (localActorUrl server.publicBaseUrl account.nanoid)
  let outboxId ← Session.atomically (blockTransaction outside account.id block delivery)
  deliverStored outside outboxId delivery
  pure { id := toString block.id, targetType := resolved.typeName, target := resolved.name }

/-- The transaction of `unblock_account`. -/
def unblockTransaction (server : Server) (outside : Outside) (account : Account)
    (resolved : BlockTarget) (db : Db) : Result ((Option OutboxActivityId × Option Delivery) × Db) := do
  let blocks ← BlockRepository.findBlocks db (.Local account.id)
  match blocks.find? (·.destination = resolved.id) with
  | none => reject .NotFound "Block relationship not found"
  | some block =>
      let delivery := resolved.undoDelivery server outside block.id
        (localActorUrl server.publicBaseUrl account.nanoid)
      let db ← BlockRepository.delete db block.id
      let (outboxId, db) ← storeDelivery outside account.id delivery db
      pure ((outboxId, delivery), db)

/-- `unblock_account` up to its transaction. -/
def beginUnblock (server : Server) (outside : Outside) (accountNanoid target : String) :
    Session Db Report (Account × BlockTarget) := do
  let account ← Session.read fun db => findAccount db outside.now accountNanoid
  Session.lift (checkPermission outside.permission)
  let resolved ← resolveBlockTarget server outside target
  pure (account, resolved)

def unblockAccount (server : Server) (outside : Outside) (accountNanoid target : String) :
    Session Db Report Unit := do
  let (account, resolved) ← beginUnblock server outside accountNanoid target
  let (outboxId, delivery) ← Session.atomically (unblockTransaction server outside account resolved)
  deliverStored outside outboxId delivery

end Emumet

import Emumet.ServiceBlock

/-! Following and unfollowing on behalf of a local account. These use cases run outside a transaction:
every statement takes effect on its own, and a failed delivery is answered by deleting the follow. -/

namespace Emumet

/-- `find_existing_following`. -/
def findExistingFollowing (db : Db) (source destination : FollowTargetId) : Result (Option Follow) := do
  let followings ← FollowRepository.findFollowings db source
  pure (followings.find? fun follow => follow.source = source ∧ follow.destination = destination)

def followActivity (publicBaseUrl : String) (followId : FollowId) (actorUrl remoteActorUrl : String) :
    Activity where
  context := some (.string activitystreamsContext)
  id := activityUrl publicBaseUrl followId
  type_ := "Follow"
  actor := actorUrl
  object := some (.string remoteActorUrl)
  target := none
  to_ := some [remoteActorUrl]
  cc := none

def undoFollowActivity (publicBaseUrl : String) (activityId : Int) (originalFollow : Activity)
    (remoteActorUrl : String) : Activity where
  context := some (.string activitystreamsContext)
  id := activityUrl publicBaseUrl activityId
  type_ := "Undo"
  actor := originalFollow.actor
  object := some originalFollow.toJson
  target := none
  to_ := some [remoteActorUrl]
  cc := none

/-- Deliver to the inbox of a remote account. -/
def deliverTo (outside : Outside) (remoteAccount : RemoteAccount) (activity : Activity) : Result Unit :=
  match remoteAccount.inboxUrl with
  | none => reject .Rejected "Remote actor does not expose an inbox URL"
  | some inboxUrl => outside.deliver inboxUrl activity

/-- Store an activity that is already delivered. -/
def storeDelivered (outside : Outside) (accountId : AccountId)
    (activity : Activity) : Session Db Report Unit :=
  Session.exec fun db =>
    match OutboxActivityRepository.create db outside.outboxId
        (outboxEntry outside accountId activity (some outside.now)) with
    | .ok (_, db) => .ok db
    | .error _ => reject .Internal "Failed to store outbox activity"

structure SendFollowResultDto where
  followId : String
  remoteActorUrl : String
  activityId : String
  approved : Bool
  deriving DecidableEq, Repr

/-- The Follow that is delivered. -/
def outboundFollow (server : Server) (account : Account) (remoteAccount : RemoteAccount)
    (follow : Follow) : Activity :=
  followActivity server.publicBaseUrl follow.id
    (localActorUrl server.publicBaseUrl account.nanoid) remoteAccount.url

def sendFollow (server : Server) (outside : Outside) (accountNanoid target : String) :
    Session Db Report SendFollowResultDto := do
  let account ← Session.read fun db => findAccount db outside.now accountNanoid
  Session.lift (checkPermission outside.permission)
  let actor ← Session.lift (resolveRemoteActorIdentifier server outside target)
  let remoteAccount ← Session.atomically (upsertRemoteAccount outside actor)
  let source := TargetId.Local account.id
  let destination := TargetId.Remote remoteAccount.id
  let existing ← Session.read fun db => findExistingFollowing db source destination
  let follow ← Session.lift <|
    if existing.isSome then reject .Rejected ("Already following " ++ remoteAccount.url)
    else Follow.new outside.relationId source destination none
  Session.exec fun db => FollowRepository.create db follow
  let activity := outboundFollow server account remoteAccount follow
  match deliverTo outside remoteAccount activity with
  | .error _ => do
      Session.exec fun db => FollowRepository.delete db follow.id
      Session.lift (reject .Rejected "Follow delivery failed, rolled back follow record")
  | .ok _ => do
      storeDelivered outside account.id activity
      pure { followId := toString follow.id, remoteActorUrl := remoteAccount.url
             activityId := activity.id, approved := false }

/-! ### Unfollowing -/

/-- The nanoid of a local actor URL. -/
def localActorNanoid (server : Server) (target : String) : Option String := do
  let base ← server.parseUrl server.publicBaseUrl
  let actor ← server.parseUrl target
  if base.scheme ≠ actor.scheme ∨ base.host ≠ actor.host ∨
      base.portOrKnownDefault ≠ actor.portOrKnownDefault then none
  else
    let nanoid ← stripStart "/ap/accounts/" actor.path
    if nanoid ≠ "" ∧ '/' ∉ nanoid.toList then some nanoid else none

/-- The name of a local account handle. -/
def localAcctName (server : Server) (target : String) : Option String := do
  let (name, domain) ← splitOnce '@' ((stripStart "acct:" target).getD target)
  let base ← server.parseUrl server.publicBaseUrl
  let host ← base.host
  let localDomain := match base.port with
    | some port => host ++ ":" ++ toString port
    | none => host
  if name ≠ "" ∧ toAsciiLowercase domain = toAsciiLowercase localDomain then some name else none

/-- The local account a target names, by nanoid, by actor URL or by handle. -/
def findLocalTarget (server : Server) (outside : Outside) (target : String) (db : Db) :
    Option Account :=
  AccountReadModel.findByNanoid db outside.now target <|>
    (localActorNanoid server target).bind (AccountReadModel.findByNanoid db outside.now) <|>
    (localAcctName server target).bind (AccountReadModel.findByName db outside.now)

def resolveUnfollowTarget (server : Server) (outside : Outside) (target : String) :
    Session Db Report BlockTarget := do
  match ← Session.read fun db => .ok (findLocalTarget server outside target db) with
  | some account => pure (.Local account)
  | none => do
      let actor ← Session.lift (resolveRemoteActorIdentifier server outside target)
      let remoteAccount ← Session.atomically (upsertRemoteAccount outside actor)
      pure (.Remote remoteAccount)

def findApprovedFollow (db : Db) (source destination : FollowTargetId) : Result Follow := do
  match (← findExistingFollowing db source destination).filter (·.approvedAt.isSome) with
  | some follow => pure follow
  | none => reject .NotFound "Approved follow relationship not found"

/-- `send_undo_follow` up to the lookup of the follow. -/
def beginUndoFollow (server : Server) (outside : Outside) (accountNanoid target : String) :
    Session Db Report (Account × BlockTarget × Follow) := do
  let account ← Session.read fun db => findAccount db outside.now accountNanoid
  Session.lift (checkPermission outside.permission)
  let resolved ← resolveUnfollowTarget server outside target
  let follow ← Session.read fun db => findApprovedFollow db (.Local account.id) resolved.id
  pure (account, resolved, follow)

/-- The Undo that is delivered. -/
def outboundUndo (server : Server) (outside : Outside) (account : Account)
    (remoteAccount : RemoteAccount) (follow : Follow) : Activity :=
  undoFollowActivity server.publicBaseUrl outside.activityId
    (outboundFollow server account remoteAccount follow) remoteAccount.url

def sendUndoFollow (server : Server) (outside : Outside) (accountNanoid target : String) :
    Session Db Report Unit := do
  let (account, resolved, follow) ← beginUndoFollow server outside accountNanoid target
  match resolved with
  | .Local _ => Session.exec fun db => FollowRepository.delete db follow.id
  | .Remote remoteAccount => do
      let activity := outboundUndo server outside account remoteAccount follow
      Session.lift (deliverTo outside remoteAccount activity)
      Session.exec fun db => FollowRepository.delete db follow.id
      storeDelivered outside account.id activity

end Emumet

import Emumet.LibExchange
import Emumet.ServiceInbox

/-! The use cases that deliver an activity, cut where they wait for the delivery. While one of them
waits, the receiver handles the activity and may deliver one of its own to the sender, so the database
can change in between. -/

namespace Emumet

namespace Exchange

open Session

/-- An activity and the inbox it is delivered to. -/
abbrev Message := String × Activity

/-- A use case that waits for its delivery. -/
abbrev Waiting (α : Type) : Type := Pending Db Report Message α

/-- The answer to a delivery that has to be made. -/
def answerOf : Option (Result Unit) → Result Unit
  | some answer => answer
  | none => reject .Rejected "Remote actor does not expose an inbox URL"

/-- Record the outcome of a stored delivery. -/
def recordOutcome (outside : Outside) (outboxId : OutboxActivityId) :
    Option (Result Unit) → Session Db Report Unit
  | some (.ok _) =>
      Session.exec fun db => .ok (OutboxActivityRepository.markDelivered db outside.now outboxId)
  | some (.error report) =>
      Session.exec fun db => .ok (OutboxActivityRepository.markDeliveryAttempt db outside.now outboxId
        (some report.printable))
  | none => pure ()

variable (server : Server) (outside : Outside)

/-- Deliver what was stored and return the result of the use case. -/
def deliverStoredCall {α : Type} (outboxId : Option OutboxActivityId) (delivery : Option Delivery)
    (result : α) : Session Db Report (Waiting α) :=
  match outboxId, delivery with
  | some outboxId, some (activity, some inboxUrl) =>
      pure { message := some (inboxUrl, activity), resume := fun answer => do
        recordOutcome outside outboxId answer
        pure result }
  | _, _ => pure { message := none, resume := fun _ => pure result }

/-! ### Requests -/

/-- What `send_follow` does with the answer. -/
def resumeFollow (account : Account) (remoteAccount : RemoteAccount) (follow : Follow)
    (activity : Activity) (answer : Option (Result Unit)) : Session Db Report SendFollowResultDto :=
  match answerOf answer with
  | .error _ => do
      Session.exec fun db => FollowRepository.delete db follow.id
      Session.lift (reject .Rejected "Follow delivery failed, rolled back follow record")
  | .ok _ => do
      storeDelivered outside account.id activity
      pure { followId := toString follow.id, remoteActorUrl := remoteAccount.url
             activityId := activity.id, approved := false }

def sendFollowCall (accountNanoid target : String) : Session Db Report (Waiting SendFollowResultDto) := do
  let account ← Session.read fun db => findAccount db outside.now accountNanoid
  Session.lift (checkPermission outside.permission)
  let actor ← Session.lift (resolveRemoteActorIdentifier server outside target)
  let remoteAccount ← Session.atomically (upsertRemoteAccount outside actor)
  let source := TargetId.Local account.id
  let destination := TargetId.Remote remoteAccount.id
  let existing ← Session.read fun db => findExistingFollowing db source destination
  let follow ← Session.lift <|
    if existing.isSome then reject .Rejected ("Already following " ++ remoteAccount.url)
    else Follow.new outside.relationId source destination none
  Session.exec fun db => FollowRepository.create db follow
  let activity := followActivity server.publicBaseUrl follow.id
    (localActorUrl server.publicBaseUrl account.nanoid) remoteAccount.url
  pure { message := remoteAccount.inboxUrl.map (·, activity)
         resume := resumeFollow outside account remoteAccount follow activity }

/-- What `send_undo_follow` does with the answer. -/
def resumeUndoFollow (account : Account) (follow : Follow) (activity : Activity)
    (answer : Option (Result Unit)) : Session Db Report Unit := do
  Session.lift (answerOf answer)
  Session.exec fun db => FollowRepository.delete db follow.id
  storeDelivered outside account.id activity

def sendUndoFollowCall (accountNanoid target : String) : Session Db Report (Waiting Unit) := do
  let (account, resolved, follow) ← beginUndoFollow server outside accountNanoid target
  match resolved with
  | .Local _ => silent (Session.exec fun db => FollowRepository.delete db follow.id)
  | .Remote remoteAccount =>
      let activity := outboundUndo server outside account remoteAccount follow
      pure { message := remoteAccount.inboxUrl.map (·, activity)
             resume := resumeUndoFollow outside account follow activity }

def blockAccountCall (accountNanoid target : String) : Session Db Report (Waiting RelationDto) := do
  let account ← Session.read fun db => findAccount db outside.now accountNanoid
  Session.lift (checkPermission outside.permission)
  let resolved ← resolveBlockTarget server outside target
  let block ← Session.lift <|
    if TargetId.Local account.id = resolved.id then reject .Rejected "Cannot block yourself"
    else Block.new outside.relationId (.Local account.id) resolved.id
  let delivery := resolved.blockDelivery server block.id
    (localActorUrl server.publicBaseUrl account.nanoid)
  let outboxId ← Session.atomically (blockTransaction outside account.id block delivery)
  deliverStoredCall outside outboxId delivery
    { id := toString block.id, targetType := resolved.typeName, target := resolved.name }

def unblockAccountCall (accountNanoid target : String) : Session Db Report (Waiting Unit) := do
  let (account, resolved) ← beginUnblock server outside accountNanoid target
  let (outboxId, delivery) ← Session.atomically (unblockTransaction server outside account resolved)
  deliverStoredCall outside outboxId delivery ()

/-! ### Inbound activities -/

def handleFollowCall (dto : InboxActivityDto) : Session Db Report (Waiting Unit) := do
  let followedActorUrl ← Session.lift
    (required dto.activity.objectId "Follow activity object must be an actor id")
  Session.lift (ensureLocalActorMatches server dto.accountNanoid followedActorUrl)
  let actor ← Session.lift (resolveRemoteActor server outside dto.activity.actor)
  let remoteAccount ← Session.atomically (upsertRemoteAccount outside actor)
  let follow ← Session.lift
    (Follow.new outside.relationId (.Remote remoteAccount.id) (.Local dto.accountId) (some outside.now))
  let accept := acceptActivity server.publicBaseUrl follow.id
    (localActorUrl server.publicBaseUrl dto.accountNanoid) dto.activity
  let delivery : Delivery := (accept, remoteAccount.inboxUrl)
  let outboxId ← Session.atomically (followTransaction outside dto.accountId follow delivery)
  deliverStoredCall outside outboxId (some delivery) ()

/-- Only a Follow is answered by an activity. -/
def handleInboxCall (dto : InboxActivityDto) : Session Db Report (Waiting Unit) :=
  if dto.activity.type_ = "Follow" then handleFollowCall server outside dto
  else silent (handleInboxActivity server outside dto)

/-! ### With the answers of the network as given, these are the use cases -/

theorem answered_deliverStoredCall {α : Type} (outboxId : Option OutboxActivityId)
    (delivery : Option Delivery) (result : α) :
    answered (fun message => outside.deliver message.1 message.2)
        (deliverStoredCall outside outboxId delivery result) =
      deliverStored outside outboxId delivery >>= fun _ => pure result := by
  rcases outboxId with _ | outboxId
  · rfl
  rcases delivery with _ | ⟨activity, _ | inboxUrl⟩
  · rfl
  · rfl
  · change (recordOutcome outside outboxId (some (outside.deliver inboxUrl activity)) >>= fun _ =>
      pure result) = _
    cases hdeliver : outside.deliver inboxUrl activity <;>
      simp only [deliverStored, deliverOutboxActivity, hdeliver] <;> rfl

theorem answered_sendFollowCall (accountNanoid target : String) :
    answered (fun message => outside.deliver message.1 message.2)
        (sendFollowCall server outside accountNanoid target) =
      sendFollow server outside accountNanoid target := by
  simp only [sendFollowCall, answered_bind, sendFollow]
  congr 1; funext account
  congr 1; funext _
  congr 1; funext actor
  congr 1; funext remoteAccount
  congr 1; funext existing
  congr 1; funext follow
  congr 1; funext _
  cases hinbox : remoteAccount.inboxUrl <;> simp only [deliverTo, hinbox] <;> rfl

theorem answered_sendUndoFollowCall (accountNanoid target : String) :
    answered (fun message => outside.deliver message.1 message.2)
        (sendUndoFollowCall server outside accountNanoid target) =
      sendUndoFollow server outside accountNanoid target := by
  simp only [sendUndoFollowCall, answered_bind, sendUndoFollow]
  congr 1; funext begun
  obtain ⟨account, resolved, follow⟩ := begun
  cases resolved with
  | Local _ => exact answered_silent _ _
  | Remote remoteAccount =>
      cases hinbox : remoteAccount.inboxUrl <;> simp only [deliverTo, hinbox] <;> rfl

theorem answered_blockAccountCall (accountNanoid target : String) :
    answered (fun message => outside.deliver message.1 message.2)
        (blockAccountCall server outside accountNanoid target) =
      blockAccount server outside accountNanoid target := by
  simp only [blockAccountCall, answered_bind, blockAccount, answered_deliverStoredCall]

theorem answered_unblockAccountCall (accountNanoid target : String) :
    answered (fun message => outside.deliver message.1 message.2)
        (unblockAccountCall server outside accountNanoid target) =
      unblockAccount server outside accountNanoid target := by
  simp only [unblockAccountCall, answered_bind, unblockAccount, answered_deliverStoredCall]
  congr 1; funext begun
  congr 1; funext stored
  exact bind_pure _

theorem answered_handleInboxCall (dto : InboxActivityDto) :
    answered (fun message => outside.deliver message.1 message.2)
        (handleInboxCall server outside dto) =
      handleInboxActivity server outside dto := by
  unfold handleInboxCall
  split_ifs with hfollow
  · rw [handleInboxActivity, if_pos hfollow]
    simp only [handleFollowCall, answered_bind, handleFollowActivity, answered_deliverStoredCall]
    congr 1; funext followedActorUrl
    congr 1; funext _
    congr 1; funext actor
    congr 1; funext remoteAccount
    congr 1; funext follow
    congr 1; funext outboxId
    exact bind_pure _
  · exact answered_silent _ _

end Exchange

end Emumet

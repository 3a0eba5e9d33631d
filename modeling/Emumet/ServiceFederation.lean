import Emumet.LibRuns
import Emumet.ProjectorAccount
import Emumet.RouteInbox
import Emumet.ServiceActor
import Emumet.ServiceLinkInbox

/-! Several instances that serve each other their actors and deliver to each other's inboxes. A request of
one of them runs to its end with the deliveries it causes: while the sender of a Follow waits, the receiver
stores it and delivers its Accept, which the sender handles before it goes on. Deliveries between instances
arrive; what other servers answer is an input. -/

namespace Emumet

namespace Federation

open Session Exchange Links

/-- Who an account is, in whatever state its row is. -/
structure Holder where
  id : AccountId
  nanoid : Nanoid
  name : String
  deriving DecidableEq, Repr

def holderOf (row : AccountRow) : Holder := ⟨row.id, row.nanoid, row.name⟩

/-- The instances, the addresses their servers answer for, and the accounts they have or will have. -/
structure Network (ι : Type) where
  publicBaseUrl : ι → String
  parseUrl : String → Option Url
  isAlphanumeric : Char → Bool
  actorAt : String → Option (ι × Nanoid)
  inboxAt : String → Option (ι × Nanoid)
  holders : ι → List Holder

/-- What one request and the deliveries it causes meet. The request is at level 2, a delivery it causes at
level 1 and one that this causes at level 0. -/
structure Round (ι : Type) where
  clock : Nat → ι → OffsetDateTime
  signingKeys : ι → List SigningKey
  outside : Nat → Outside

/-- The requests of local accounts, activities from other servers, and the projector's writes. -/
inductive Request (ι : Type) where
  | follow (i : ι) (accountNanoid target : String)
  | unfollow (i : ι) (accountNanoid target : String)
  | block (i : ι) (accountNanoid target : String)
  | unblock (i : ι) (accountNanoid target : String)
  | inbox (i : ι) (accountNanoid : String) (activity : Activity)
  | project (i : ι) (tz : Timestamptz) (account : Account) (created : Option AuthAccountId)

namespace Network

variable {ι : Type} (net : Network ι)

def server (i : ι) : Server where
  publicBaseUrl := net.publicBaseUrl i
  parseUrl := net.parseUrl
  isAlphanumeric := net.isAlphanumeric

def actorUrl (i : ι) (nanoid : Nanoid) : String := localActorUrl (net.publicBaseUrl i) nanoid

def inboxUrl (i : ι) (nanoid : Nanoid) : String := ActorUrlBuilder.inbox (net.publicBaseUrl i) nanoid

/-- The actor an instance serves. -/
def servedActor (round : Round ι) (level : Nat) (s : ι → Db) (i : ι) (nanoid : Nanoid) :
    Result Actor := do
  let document ← getActor (net.publicBaseUrl i) (round.signingKeys i) (s i) (round.clock level i) nanoid
  pure document.toActor

/-- What a call of an instance meets: the actors of the instances are fetched from them. -/
def outside (round : Round ι) (level : Nat) (s : ι → Db) (i : ι) : Outside :=
  { round.outside level with
    now := round.clock level i
    fetchActor := fun url =>
      match net.actorAt url with
      | some (j, nanoid) => net.servedActor round level s j nanoid
      | none => (round.outside level).fetchActor url }

/-- What the sender learns of a delivery that failed. -/
def refused : Result Unit := reject .Rejected "delivery returned an error status"

variable [DecidableEq ι]

/-- An activity arrives at an inbox. -/
def receive (round : Round ι) (level : Nat) (send : Message → Session (ι → Db) Report Unit) (i : ι)
    (accountNanoid : String) (activity : Activity) : Session (ι → Db) Report Unit := fun s =>
  match findAccountIdByNanoid (s i) (round.clock level i) accountNanoid with
  | .error _ => (refused, s)
  | .ok accountId =>
      exchange i (handleInboxCall (net.server i) (net.outside round level s i)
        { accountId, accountNanoid, activity }) send s

/-- A delivery, to an instance or elsewhere. At level 0 nothing is sent: an Accept is answered by no
activity. -/
def deliver (round : Round ι) : Nat → Message → Session (ι → Db) Report Unit
  | 0, _ => lift refused
  | level + 1, message =>
      match net.inboxAt message.1 with
      | none => lift ((round.outside (level + 1)).deliver message.1 message.2)
      | some (i, nanoid) => fun s =>
          match net.receive round level (deliver round level) i nanoid message.2 s with
          | (.ok _, after) => (.ok (), after)
          | (.error _, after) => (refused, after)

def step (s : ι → Db) : Round ι × Request ι → ι → Db
  | (round, .follow i accountNanoid target) =>
      (exchange i (sendFollowCall (net.server i) (net.outside round 2 s i) accountNanoid target)
        (net.deliver round 2) s).2
  | (round, .unfollow i accountNanoid target) =>
      (exchange i (sendUndoFollowCall (net.server i) (net.outside round 2 s i) accountNanoid target)
        (net.deliver round 2) s).2
  | (round, .block i accountNanoid target) =>
      (exchange i (blockAccountCall (net.server i) (net.outside round 2 s i) accountNanoid target)
        (net.deliver round 2) s).2
  | (round, .unblock i accountNanoid target) =>
      (exchange i (unblockAccountCall (net.server i) (net.outside round 2 s i) accountNanoid target)
        (net.deliver round 2) s).2
  | (round, .inbox i accountNanoid activity) =>
      (net.receive round 2 (net.deliver round 2) i accountNanoid activity s).2
  | (_, .project i tz account created) =>
      match AccountProjector.write tz (s i) account created account.id with
      | .ok after => Function.update s i after
      | .error _ => s

/-! ### One instance on its own -/

/-- Without deliveries between instances, the requests are the use cases on the database of one. -/
theorem step_alone (hinbox : ∀ url, net.inboxAt url = none) (round : Round ι) (s : ι → Db) (i : ι)
    (accountNanoid target : String) :
    net.step s (round, .follow i accountNanoid target) = Function.update s i
        (sendFollow (net.server i) (net.outside round 2 s i) accountNanoid target (s i)).2 ∧
      net.step s (round, .unfollow i accountNanoid target) = Function.update s i
        (sendUndoFollow (net.server i) (net.outside round 2 s i) accountNanoid target (s i)).2 ∧
      net.step s (round, .block i accountNanoid target) = Function.update s i
        (blockAccount (net.server i) (net.outside round 2 s i) accountNanoid target (s i)).2 ∧
      net.step s (round, .unblock i accountNanoid target) = Function.update s i
        (unblockAccount (net.server i) (net.outside round 2 s i) accountNanoid target (s i)).2 ∧
      ∀ activity accountId,
        findAccountIdByNanoid (s i) (round.clock 2 i) accountNanoid = .ok accountId →
          net.step s (round, .inbox i accountNanoid activity) = Function.update s i
            (handleInboxActivity (net.server i) (net.outside round 2 s i)
              { accountId, accountNanoid, activity } (s i)).2 := by
  have hdeliver : net.deliver round 2 = fun message =>
      lift ((net.outside round 2 s i).deliver message.1 message.2) := by
    funext message
    rw [deliver, hinbox]
    rfl
  simp only [← answered_sendFollowCall, ← answered_sendUndoFollowCall, ← answered_blockAccountCall,
    ← answered_unblockAccountCall, ← answered_handleInboxCall]
  refine ⟨?_, ?_, ?_, ?_, fun activity accountId hfound => ?_⟩
  · rw [step, hdeliver, exchange_lift]
    rfl
  · rw [step, hdeliver, exchange_lift]
    rfl
  · rw [step, hdeliver, exchange_lift]
    rfl
  · rw [step, hdeliver, exchange_lift]
    rfl
  · rw [step, hdeliver, receive, hfound]
    change (exchange i _ _ s).2 = _
    rw [exchange_lift]
    rfl

end Network

end Federation

end Emumet

import Emumet.KernelEvent

/-! Relations between accounts: follows and blocks, whose two ends are local or remote accounts, and
the remote accounts and outbox activities they refer to. A relation with two remote ends cannot be
built. -/

namespace Emumet

abbrev RemoteAccountId := Int
abbrev FollowId := Int
abbrev BlockId := Int
abbrev MuteId := Int
abbrev OutboxActivityId := Int

/-- One end of a relation. -/
inductive TargetId where
  | Local (accountId : AccountId)
  | Remote (remoteAccountId : RemoteAccountId)
  deriving DecidableEq, Repr

/-- `FollowTargetId`, `BlockTargetId` and `MuteTargetId` have the same two variants, so the conversion
between them is the identity here. -/
abbrev FollowTargetId := TargetId

abbrev BlockTargetId := TargetId
abbrev MuteTargetId := TargetId

namespace TargetId

def isLocal : TargetId → Bool
  | .Local _ => true
  | .Remote _ => false

def localId : TargetId → Option AccountId
  | .Local accountId => some accountId
  | .Remote _ => none

def remoteId : TargetId → Option RemoteAccountId
  | .Local _ => none
  | .Remote remoteAccountId => some remoteAccountId

/-- Read an end back from its two nullable columns. -/
def ofColumns : Option AccountId → Option RemoteAccountId → Option TargetId
  | some accountId, none => some (.Local accountId)
  | none, some remoteAccountId => some (.Remote remoteAccountId)
  | _, _ => none

@[simp] theorem ofColumns_split (target : TargetId) :
    ofColumns target.localId target.remoteId = some target := by
  cases target <;> rfl

theorem ofColumns_eq_some {localId : Option AccountId} {remoteId : Option RemoteAccountId}
    {target : TargetId} (h : ofColumns localId remoteId = some target) :
    localId = target.localId ∧ remoteId = target.remoteId := by
  cases localId <;> cases remoteId <;> simp only [ofColumns, reduceCtorEq, Option.some.injEq] at h
  · subst h
    exact ⟨rfl, rfl⟩
  · subst h
    exact ⟨rfl, rfl⟩

/-- Ends with the same columns are the same end. -/
theorem columns_eq_iff {target other : TargetId} :
    (target.localId = other.localId ∧ target.remoteId = other.remoteId) ↔ target = other := by
  cases target <;> cases other <;> simp [localId, remoteId]

/-- Exactly one of the two columns of an end is set. -/
theorem exclusive (target : TargetId) : target.localId.isSome ≠ target.remoteId.isSome := by
  cases target <;> simp [localId, remoteId]

end TargetId

structure Follow where
  id : FollowId
  source : FollowTargetId
  destination : FollowTargetId
  approvedAt : Option OffsetDateTime
  localEnd : source.isLocal || destination.isLocal
  deriving DecidableEq, Repr

namespace Follow

/-- `Follow::new`; the source also prints both ends. -/
def new (id : FollowId) (source destination : FollowTargetId) (approvedAt : Option OffsetDateTime) :
    Result Follow :=
  if h : source.isLocal || destination.isLocal then .ok ⟨id, source, destination, approvedAt, h⟩
  else reject .Internal "Cannot create remote to remote follow data."

theorem new_ok {id : FollowId} {source destination : FollowTargetId}
    {approvedAt : Option OffsetDateTime} {follow : Follow}
    (h : new id source destination approvedAt = .ok follow) :
    follow.source = source ∧ follow.destination = destination := by
  simp only [new, reject] at h
  split_ifs at h
  cases h
  exact ⟨rfl, rfl⟩

theorem new_id {id : FollowId} {source destination : FollowTargetId}
    {approvedAt : Option OffsetDateTime} {follow : Follow}
    (h : new id source destination approvedAt = .ok follow) : follow.id = id := by
  simp only [new, reject] at h
  split_ifs at h
  cases h
  rfl

theorem new_approvedAt {id : FollowId} {source destination : FollowTargetId}
    {approvedAt : Option OffsetDateTime} {follow : Follow}
    (h : new id source destination approvedAt = .ok follow) : follow.approvedAt = approvedAt := by
  simp only [new, reject] at h
  split_ifs at h
  cases h
  rfl

end Follow

structure Block where
  id : BlockId
  source : BlockTargetId
  destination : BlockTargetId
  localEnd : source.isLocal || destination.isLocal
  deriving DecidableEq, Repr

namespace Block

/-- `Block::new`; the source also prints both ends. -/
def new (id : BlockId) (source destination : BlockTargetId) : Result Block :=
  if h : source.isLocal || destination.isLocal then .ok ⟨id, source, destination, h⟩
  else reject .Internal "Cannot create remote to remote block data."

theorem new_ok {id : BlockId} {source destination : BlockTargetId} {block : Block}
    (h : new id source destination = .ok block) :
    block.source = source ∧ block.destination = destination := by
  simp only [new, reject] at h
  split_ifs at h
  cases h
  exact ⟨rfl, rfl⟩

theorem new_id {id : BlockId} {source destination : BlockTargetId} {block : Block}
    (h : new id source destination = .ok block) : block.id = id := by
  simp only [new, reject] at h
  split_ifs at h
  cases h
  rfl

end Block

structure Mute where
  id : MuteId
  source : MuteTargetId
  destination : MuteTargetId
  localEnd : source.isLocal || destination.isLocal
  deriving DecidableEq, Repr

/-- `Mute::new`; the source also prints both ends. -/
def Mute.new (id : MuteId) (source destination : MuteTargetId) : Result Mute :=
  if h : source.isLocal || destination.isLocal then .ok ⟨id, source, destination, h⟩
  else reject .Internal "Cannot create remote to remote mute data."

theorem Mute.new_ok {id : MuteId} {source destination : MuteTargetId} {mute : Mute}
    (h : new id source destination = .ok mute) :
    mute.source = source ∧ mute.destination = destination ∧ mute.id = id := by
  simp only [new, reject] at h
  split_ifs at h
  cases h
  exact ⟨rfl, rfl, rfl⟩

structure RemoteAccount where
  id : RemoteAccountId
  acct : String
  url : String
  iconId : Option ImageId
  inboxUrl : Option String
  publicKeyPem : Option String
  deriving DecidableEq, Repr

structure OutboxActivity where
  id : OutboxActivityId
  accountId : AccountId
  activityId : String
  activityType : String
  objectJson : String
  createdAt : OffsetDateTime
  deliveredAt : Option OffsetDateTime
  attemptedAt : Option OffsetDateTime
  error : Option String
  deriving DecidableEq, Repr

end Emumet

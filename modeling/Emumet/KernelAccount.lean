import Emumet.KernelEvent

/-! The account aggregate: its events, its commands and its applier. -/

namespace Emumet

inductive AccountStatus where
  | Active
  | Suspended (reason : String) (suspendedAt : OffsetDateTime) (expiresAt : Option OffsetDateTime)
  | Banned (reason : String) (bannedAt : OffsetDateTime)
  deriving DecidableEq, Repr

namespace AccountStatus

def isActive : AccountStatus → Bool
  | .Active => true
  | _ => false

def isSuspended : AccountStatus → Bool
  | .Suspended .. => true
  | _ => false

def isBanned : AccountStatus → Bool
  | .Banned .. => true
  | _ => false

end AccountStatus

/-- `ModerationReason::validate`. -/
def ModerationReason.validate (reason : String) : Result Unit :=
  if reason.toList.all isWhitespace then reject .Validation "Reason cannot be empty"
  else validateLength "Reason" 500 reason

structure Account where
  id : AccountId
  name : String
  isBot : Bool
  status : AccountStatus
  deletedAt : Option OffsetDateTime
  version : EventVersion
  nanoid : Nanoid
  createdAt : OffsetDateTime
  deriving DecidableEq, Repr

inductive AccountEvent where
  | Created (name : String) (isBot : Bool) (nanoid : Nanoid) (authAccountId : AuthAccountId)
  | Updated (isBot : Bool)
  | Deactivated
  | Suspended (reason : String) (suspendedAt : OffsetDateTime) (expiresAt : Option OffsetDateTime)
  | Unsuspended
  | Banned (reason : String) (bannedAt : OffsetDateTime)
  | Unbanned
  | Reactivated
  deriving DecidableEq, Repr

namespace AccountEvent

def isCreated : AccountEvent → Bool
  | .Created .. => true
  | _ => false

end AccountEvent

namespace Account

/-! ### Commands -/

/-- The command of an event that carries an expected version. -/
def command (id : AccountId) (event : AccountEvent) (expected : ExpectedVersion) :
    CommandEnvelope AccountEvent :=
  ⟨id, event, some expected⟩

def create (id : AccountId) (name : String) (isBot : Bool) (nanoid : Nanoid)
    (authAccountId : AuthAccountId) : CommandEnvelope AccountEvent :=
  command id (.Created name isBot nanoid authAccountId) .Nothing

def update (id : AccountId) (isBot : Bool) (currentVersion : EventVersion) :
    CommandEnvelope AccountEvent :=
  command id (.Updated isBot) (.At currentVersion)

def deactivate (id : AccountId) (currentVersion : EventVersion) : CommandEnvelope AccountEvent :=
  command id .Deactivated (.At currentVersion)

def suspend (now : OffsetDateTime) (id : AccountId) (reason : String)
    (expiresAt : Option OffsetDateTime) (currentVersion : EventVersion) :
    CommandEnvelope AccountEvent :=
  command id (.Suspended reason now expiresAt) (.At currentVersion)

def unsuspend (id : AccountId) (currentVersion : EventVersion) : CommandEnvelope AccountEvent :=
  command id .Unsuspended (.At currentVersion)

def ban (now : OffsetDateTime) (id : AccountId) (reason : String) (currentVersion : EventVersion) :
    CommandEnvelope AccountEvent :=
  command id (.Banned reason now) (.At currentVersion)

def unban (id : AccountId) (currentVersion : EventVersion) : CommandEnvelope AccountEvent :=
  command id .Unbanned (.At currentVersion)

def reactivate (id : AccountId) (currentVersion : EventVersion) : CommandEnvelope AccountEvent :=
  command id .Reactivated (.At currentVersion)

/-! ### The applier -/

def entityName : String := "Account"

/-- The source also prints the entity's debug form. -/
def alreadyExists : String := entityName ++ " already exists"

def notExists (id : Int) : String := entityName ++ " not found: " ++ toString id

/-- `EventApplier::apply`. The reading of the clock is used by `Deactivated` only. -/
def apply (now : OffsetDateTime) (entity : Option Account) (event : EventEnvelope AccountEvent) :
    Result (Option Account) :=
  match event.event, entity with
  | .Created name isBot nanoid _, none => do
      let createdAt ← CreatedAt.fromTimestampMs (extractTimestampMs event.id)
      pure (some { id := event.id, name, isBot, status := .Active, deletedAt := none,
                   version := event.version, nanoid, createdAt })
  | .Created .., some _ => reject .Internal alreadyExists
  | .Updated isBot, some account => .ok (some { account with isBot, version := event.version })
  | .Deactivated, some account =>
      if account.deletedAt.isSome then reject .Internal "Account is already deactivated"
      else .ok (some { account with deletedAt := some now, version := event.version })
  | .Suspended reason suspendedAt expiresAt, some account =>
      if !account.status.isActive then reject .Internal "Account is not active"
      else if account.deletedAt.isSome then reject .Internal "Account is deactivated"
      else .ok (some { account with
        status := .Suspended reason suspendedAt expiresAt, version := event.version })
  | .Unsuspended, some account =>
      if !account.status.isSuspended then reject .Internal "Account is not suspended"
      else .ok (some { account with status := .Active, version := event.version })
  | .Banned reason bannedAt, some account =>
      if account.status.isBanned then reject .Internal "Account is already banned"
      else if account.deletedAt.isSome then reject .Internal "Account is deactivated"
      else .ok (some { account with status := .Banned reason bannedAt, version := event.version })
  | .Unbanned, some account =>
      if !account.status.isBanned then reject .Internal "Account is not banned"
      else .ok (some { account with status := .Active, version := event.version })
  | .Reactivated, some account =>
      if account.deletedAt.isNone then reject .Internal "Account is not deactivated"
      else .ok (some { account with deletedAt := none, version := event.version })
  | _, none => reject .Internal (notExists event.id)

/-- The fold of a stream from nothing. -/
def fold (now : OffsetDateTime) (events : List (EventEnvelope AccountEvent)) :
    Result (Option Account) :=
  foldEvents (apply now) none events

/-- Only `Created` applies to an account that does not exist. -/
theorem apply_none {now : OffsetDateTime} {event : EventEnvelope AccountEvent}
    {result : Option Account} (h : apply now none event = .ok result) :
    event.event.isCreated = true := by
  obtain ⟨id, payload, version⟩ := event
  cases payload <;> simp [apply, reject, AccountEvent.isCreated] at h ⊢

/-- `Created` applies to nothing but an account that does not exist. -/
theorem apply_some_not_created {now : OffsetDateTime} {account : Account}
    {event : EventEnvelope AccountEvent} {result : Option Account}
    (h : apply now (some account) event = .ok result) : event.event.isCreated = false := by
  obtain ⟨id, payload, version⟩ := event
  cases payload <;> simp [apply, reject, AccountEvent.isCreated] at h ⊢

/-- What applying an event requires of the account. -/
def requires (event : AccountEvent) (account : Account) : Bool :=
  match event with
  | .Created .. => false
  | .Updated _ => true
  | .Deactivated => account.deletedAt.isNone
  | .Suspended .. => account.status.isActive && account.deletedAt.isNone
  | .Unsuspended => account.status.isSuspended
  | .Banned .. => !account.status.isBanned && account.deletedAt.isNone
  | .Unbanned => account.status.isBanned
  | .Reactivated => account.deletedAt.isSome

theorem apply_of_requires {now : OffsetDateTime} {account : Account}
    {event : EventEnvelope AccountEvent} (h : requires event.event account = true) :
    ∃ next, apply now (some account) event = .ok next := by
  obtain ⟨id, payload, version⟩ := event
  cases payload with
  | Created name isBot nanoid authAccountId => cases h
  | Updated isBot => exact ⟨_, rfl⟩
  | Reactivated =>
      have hdeleted : account.deletedAt ≠ none := Option.isSome_iff_ne_none.mp h
      simp [apply, hdeleted]
  | _ =>
      simp only [requires, Bool.and_eq_true, Bool.not_eq_true', Option.isNone_iff_eq_none] at h
      simp [apply, h]

theorem apply_created (now : OffsetDateTime) (id : Int) (name : String) (isBot : Bool)
    (nanoid : Nanoid) (authAccountId : AuthAccountId) (version : EventVersion) :
    ∃ account, apply now none ⟨id, .Created name isBot nanoid authAccountId, version⟩ =
        .ok (some account) ∧ account.id = id ∧ account.version = version ∧
      account.status = .Active ∧ account.deletedAt = none := by
  simp only [apply, fromTimestampMs_extractTimestampMs]
  exact ⟨_, rfl, rfl, rfl, rfl, rfl⟩

/-- A successful step leaves an account, with the event's version. -/
theorem apply_ok {now : OffsetDateTime} {entity : Option Account}
    {event : EventEnvelope AccountEvent} {result : Option Account}
    (h : apply now entity event = .ok result) :
    ∃ account, result = some account ∧ account.version = event.version := by
  obtain ⟨id, payload, version⟩ := event
  cases entity with
  | none =>
      cases payload with
      | Created name isBot nanoid auth =>
          obtain ⟨account, happly, _, hversion, _⟩ := apply_created now id name isBot nanoid auth version
          rw [happly] at h
          exact ⟨account, (Except.ok.inj h).symm, hversion⟩
      | _ => simp [apply, reject] at h
  | some account =>
      cases payload <;> simp only [apply, reject] at h
      all_goals first
        | (split_ifs at h <;> first | (cases h; done) | exact ⟨_, (Except.ok.inj h).symm, rfl⟩)
        | (cases h; done)
        | exact ⟨_, (Except.ok.inj h).symm, rfl⟩

/-- A step keeps the identity of the account. -/
theorem apply_id {now : OffsetDateTime} {account next : Account}
    {event : EventEnvelope AccountEvent} (h : apply now (some account) event = .ok (some next)) :
    next.id = account.id := by
  obtain ⟨id, payload, version⟩ := event
  cases payload <;> simp only [apply, reject] at h
  all_goals first
    | (split_ifs at h <;> first | (cases h; done) | (cases h; rfl))
    | (cases h; done)
    | (cases h; rfl)

end Account

end Emumet

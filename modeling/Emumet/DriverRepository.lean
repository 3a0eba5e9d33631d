import Emumet.LibFallible
import Emumet.DriverReadModel

/-! The repositories of the event-sourced aggregates. Loading folds a stream in version order; saving
appends one event, with a generated version and the next sequence number of its table. -/

namespace Emumet

/-- What an event gets when it is saved. -/
structure Stamp where
  version : EventVersion
  seq : Int
  deriving DecidableEq, Repr

/-- The error of a stream without events; `entity` is what its message names. -/
def found {A : Type} (entity : String) (id : Int) : Option (Rehydrated A) → Result (Rehydrated A)
  | some rehydrated => .ok rehydrated
  | none => reject .NotFound ("No events found for " ++ entity ++ ": " ++ toString id)

namespace AccountRepository

def load (db : Db) (now : OffsetDateTime) (id : AccountId) : Result (Rehydrated Account) := do
  found "account" id
    (← Rehydrated.fromEvents (Account.apply now) (EventStore.findById db.accountEvents id none))

def save (db : Db) (command : CommandEnvelope AccountEvent) (stamp : Stamp) :
    Result (EventEnvelope AccountEvent × Db) := do
  let row ← AccountEventStore.persistInternal db.accountEvents command stamp.version stamp.seq
  pure (row.envelope, { db with accountEvents := row :: db.accountEvents })

end AccountRepository

namespace ProfileRepository

def load (db : Db) (id : ProfileId) : Result (Rehydrated Profile) := do
  found "profile" id
    (← Rehydrated.fromEvents Profile.apply (EventStore.findById db.profileEvents id none))

def save (db : Db) (command : CommandEnvelope ProfileEvent) (stamp : Stamp) :
    Result (EventEnvelope ProfileEvent × Db) := do
  let row ← ProfileEventStore.persistInternal db.profileEvents command stamp.version stamp.seq
  pure (row.envelope, { db with profileEvents := row :: db.profileEvents })

end ProfileRepository

namespace MetadataRepository

def load (db : Db) (id : MetadataId) : Result (Rehydrated Metadata) := do
  found "metadata" id (← Rehydrated.fromEventsAllowDeletion Metadata.apply
    (EventStore.findById db.metadataEvents id none))

def save (db : Db) (command : CommandEnvelope MetadataEvent) (stamp : Stamp) :
    Result (EventEnvelope MetadataEvent × Db) := do
  let row ← MetadataEventStore.persistInternal db.metadataEvents command stamp.version stamp.seq
  pure (row.envelope, { db with metadataEvents := row :: db.metadataEvents })

end MetadataRepository

/-! ### What loading and saving do -/

/-- A stream with events is rehydrated exactly when it folds to an aggregate. -/
theorem fromEvents_eq_some_iff {A Event : Type}
    {apply : Option A → EventEnvelope Event → Result (Option A)} {events : List (EventEnvelope Event)}
    {rehydrated : Rehydrated A} :
    Rehydrated.fromEvents apply events = .ok (some rehydrated) ↔
      foldEvents apply none events = .ok (some rehydrated.aggregate) ∧
        events.getLast?.map EventEnvelope.version = some rehydrated.version := by
  obtain ⟨aggregate, version⟩ := rehydrated
  unfold Rehydrated.fromEvents
  cases events.getLast? with
  | none => simp
  | some last =>
      simp only [Fallible.bind_eq_ok, Option.map_some, Option.some.injEq]
      constructor
      · rintro ⟨folded, hfold, hresult⟩
        cases folded with
        | none => cases hresult
        | some aggregate =>
            cases hresult
            exact ⟨hfold, rfl⟩
      · rintro ⟨hfold, rfl⟩
        exact ⟨_, hfold, rfl⟩

theorem found_eq_ok {A : Type} {entity : String} {id : Int} {stored : Option (Rehydrated A)}
    {rehydrated : Rehydrated A} :
    found entity id stored = .ok rehydrated ↔ stored = some rehydrated := by
  cases stored <;> simp [found, reject]

/-- An aggregate is found exactly when its stream folds to it; its version is the last event's. -/
theorem found_fromEvents_eq_ok {A Event : Type} {entity : String} {id : Int}
    {apply : Option A → EventEnvelope Event → Result (Option A)} {events : List (EventEnvelope Event)}
    {rehydrated : Rehydrated A} :
    (Rehydrated.fromEvents apply events >>= found entity id) = .ok rehydrated ↔
      foldEvents apply none events = .ok (some rehydrated.aggregate) ∧
        events.getLast?.map EventEnvelope.version = some rehydrated.version := by
  rw [Fallible.bind_eq_ok, ← fromEvents_eq_some_iff]
  constructor
  · rintro ⟨stored, hstored, hfound⟩
    rw [hstored, found_eq_ok.mp hfound]
  · intro h
    exact ⟨_, h, rfl⟩

theorem AccountRepository.load_eq_ok {db : Db} {now : OffsetDateTime} {id : AccountId}
    {rehydrated : Rehydrated Account} :
    load db now id = .ok rehydrated ↔
      Account.fold now (EventStore.findById db.accountEvents id none) =
          .ok (some rehydrated.aggregate) ∧
        (EventStore.findById db.accountEvents id none).getLast?.map EventEnvelope.version =
          some rehydrated.version :=
  found_fromEvents_eq_ok

theorem ProfileRepository.load_eq_ok {db : Db} {id : ProfileId} {rehydrated : Rehydrated Profile} :
    load db id = .ok rehydrated ↔
      Profile.fold (EventStore.findById db.profileEvents id none) =
          .ok (some rehydrated.aggregate) ∧
        (EventStore.findById db.profileEvents id none).getLast?.map EventEnvelope.version =
          some rehydrated.version :=
  found_fromEvents_eq_ok

/-- A saved event meets its expected version and is appended with its stamp. -/
theorem AccountRepository.save_ok {db after : Db} {command : CommandEnvelope AccountEvent}
    {stamp : Stamp} {envelope : EventEnvelope AccountEvent}
    (h : save db command stamp = .ok (envelope, after)) :
    EventStore.guardHolds db.accountEvents command.id command.prevVersion = true ∧
      envelope = ⟨command.id, command.event, stamp.version⟩ ∧
      after = { db with accountEvents := ⟨stamp.seq, envelope⟩ :: db.accountEvents } := by
  simp only [save, Fallible.bind_eq_ok] at h
  obtain ⟨row, hrow, hresult⟩ := h
  cases hresult
  simp only [AccountEventStore.persistInternal, EventStore.persistInternal, uniqueViolation,
    reject] at hrow
  split_ifs at hrow with hguard
  cases hrow
  exact ⟨by simpa using hguard, rfl, rfl⟩

end Emumet

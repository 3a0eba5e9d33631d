import Emumet.LibFallible

/-! Identifiers, errors and event envelopes of the kernel crate. An `i64` column (ids, versions,
sequence numbers) is an `Int`; a time is its distance from the Unix epoch in nanoseconds, the
resolution of `OffsetDateTime`. Reading a clock is an argument, so a function that calls
`OffsetDateTime::now_utc` has the reading as a parameter. -/

namespace Emumet

abbrev AccountId := Int
abbrev ProfileId := Int
abbrev MetadataId := Int
abbrev AuthAccountId := Int
abbrev ImageId := Int
abbrev EventVersion := Int
abbrev Nanoid := String

/-- An instant in nanoseconds since the Unix epoch. -/
abbrev OffsetDateTime := Int

inductive KernelError where
  | Concurrency
  | Timeout
  | Internal
  | PermissionDenied
  | NotFound
  | Rejected
  | Validation
  deriving DecidableEq, Repr

/-- An error with the text attached to it. -/
structure Report where
  context : KernelError
  printable : String
  deriving DecidableEq, Repr

abbrev Result (α : Type) := Except Report α

/-- `Err(Report::new(context).attach_printable(printable))`. -/
def reject {α : Type} (context : KernelError) (printable : String) : Result α :=
  .error ⟨context, printable⟩

inductive ExpectedVersion where
  /-- There is no event stream. -/
  | Nothing
  /-- There is an event stream and this is the version of its last event. -/
  | At (version : EventVersion)
  deriving DecidableEq, Repr

structure EventEnvelope (Event : Type) where
  id : Int
  event : Event
  version : EventVersion
  deriving DecidableEq, Repr

structure CommandEnvelope (Event : Type) where
  id : Int
  event : Event
  prevVersion : Option ExpectedVersion
  deriving DecidableEq, Repr

/-- One row of a transactional event log: the global `seq` and the envelope. -/
structure SeqEvent (Event : Type) where
  seq : Int
  envelope : EventEnvelope Event
  deriving DecidableEq, Repr

namespace SeqEvent

variable {Event : Type}

def id (row : SeqEvent Event) : Int := row.envelope.id

def version (row : SeqEvent Event) : EventVersion := row.envelope.version

end SeqEvent

/-! ### Field actions -/

inductive FieldAction (α : Type) where
  | Unchanged
  | Clear
  | Set (value : α)
  deriving DecidableEq, Repr

namespace FieldAction

variable {α : Type}

def isUnchanged : FieldAction α → Bool
  | .Unchanged => true
  | _ => false

/-- What an optional field holds after the action. -/
def applyTo (action : FieldAction α) (current : Option α) : Option α :=
  match action with
  | .Unchanged => current
  | .Clear => none
  | .Set value => some value

end FieldAction

/-! ### Text -/

/-- Rust's `char::is_whitespace`. -/
def isWhitespace (c : Char) : Bool :=
  let n := c.toNat
  (9 ≤ n && n ≤ 13) || n = 0x20 || n = 0x85 || n = 0xA0 || n = 0x1680 ||
    (0x2000 ≤ n && n ≤ 0x200A) || n = 0x2028 || n = 0x2029 || n = 0x202F || n = 0x205F || n = 0x3000

/-- The length check of a text value; `subject` is what its message names. -/
def validateLength (subject : String) (maxLength : Nat) (text : String) : Result Unit :=
  if maxLength < text.length then
    reject .Validation (subject ++ " must not exceed " ++ toString maxLength ++ " characters")
  else .ok ()

/-! ### Rehydration -/

/-- An aggregate and the version it was loaded at. -/
structure Rehydrated (A : Type) where
  aggregate : A
  version : EventVersion
  deriving DecidableEq, Repr

variable {A Event : Type}

/-- Fold a stream of events with an applier, stopping at the first error. -/
def foldEvents (apply : Option A → EventEnvelope Event → Result (Option A)) (entity : Option A)
    (events : List (EventEnvelope Event)) : Result (Option A) :=
  events.foldlM apply entity

namespace Rehydrated

def fromEvents (apply : Option A → EventEnvelope Event → Result (Option A))
    (events : List (EventEnvelope Event)) : Result (Option (Rehydrated A)) :=
  match events.getLast? with
  | none => .ok none
  | some last => do
      match ← foldEvents apply none events with
      | none => reject .Internal "event stream folded into an empty aggregate"
      | some aggregate => pure (some ⟨aggregate, last.version⟩)

/-- Like `fromEvents`, for aggregates whose stream may end in a deletion. -/
def fromEventsAllowDeletion (apply : Option A → EventEnvelope Event → Result (Option A))
    (events : List (EventEnvelope Event)) : Result (Option (Rehydrated A)) :=
  match events.getLast? with
  | none => .ok none
  | some last => do
      let aggregate ← foldEvents apply none events
      pure (aggregate.map fun aggregate => ⟨aggregate, last.version⟩)

end Rehydrated

theorem foldEvents_append (apply : Option A → EventEnvelope Event → Result (Option A))
    (entity : Option A) (left right : List (EventEnvelope Event)) :
    foldEvents apply entity (left ++ right) =
      foldEvents apply entity left >>= fun middle => foldEvents apply middle right :=
  List.foldlM_append

/-- A stream that folds without error has only prefixes that do. -/
theorem foldEvents_split {apply : Option A → EventEnvelope Event → Result (Option A)}
    {entity last : Option A} {left right : List (EventEnvelope Event)}
    (h : foldEvents apply entity (left ++ right) = .ok last) :
    ∃ middle, foldEvents apply entity left = .ok middle ∧ foldEvents apply middle right = .ok last := by
  rwa [foldEvents_append, Fallible.bind_eq_ok] at h

/-- The last event is applied to what the events before it fold to. -/
theorem foldEvents_concat {apply : Option A → EventEnvelope Event → Result (Option A)}
    {entity result : Option A} {front : List (EventEnvelope Event)} {last : EventEnvelope Event} :
    foldEvents apply entity (front ++ [last]) = .ok result ↔
      ∃ middle, foldEvents apply entity front = .ok middle ∧ apply middle last = .ok result := by
  rw [foldEvents_append, Fallible.bind_eq_ok]
  simp only [foldEvents, List.foldlM_cons, List.foldlM_nil, bind_pure]

/-! ### Identifiers

A snowflake id keeps 41 bits of milliseconds since the custom epoch above 10 bits of machine id and
12 bits of sequence. -/

def timestampShift : Nat := 22

def timestampMask : Nat := 2 ^ 41 - 1

/-- The custom epoch, 2026-01-01T00:00:00Z, in milliseconds. -/
def emumetEpochMs : Nat := 1767225600 * 1000

def extractTimestampMs (raw : Int) : Nat :=
  (((raw % 2 ^ 64).toNat >>> timestampShift) &&& timestampMask) + emumetEpochMs

/-- The last second `OffsetDateTime::from_unix_timestamp` accepts, 9999-12-31T23:59:59Z. -/
def maxUnixTimestamp : Nat := 253402300799

namespace CreatedAt

def fromTimestampMs (ms : Nat) : Result OffsetDateTime :=
  let secs := ms / 1000
  let nanos := ms % 1000 * 1000000
  if maxUnixTimestamp < secs then
    reject .Internal s!"Invalid seconds: {secs}"
  else if 1000000000 ≤ nanos then
    reject .Internal s!"Invalid nanos: {nanos}"
  else
    .ok (secs * 1000000000 + nanos)

end CreatedAt

theorem extractTimestampMs_lt (raw : Int) : extractTimestampMs raw < 2 ^ 41 + emumetEpochMs := by
  have hmask : ((raw % 2 ^ 64).toNat >>> timestampShift) &&& timestampMask ≤ timestampMask :=
    Nat.and_le_right
  simp only [extractTimestampMs, timestampMask] at hmask ⊢
  omega

theorem extractTimestampMs_secs_le (raw : Int) : extractTimestampMs raw / 1000 ≤ maxUnixTimestamp := by
  have hlt := extractTimestampMs_lt raw
  simp only [maxUnixTimestamp, emumetEpochMs] at hlt ⊢
  omega

/-- Every id yields a creation time: the 41 timestamp bits stay below the last accepted second. -/
theorem fromTimestampMs_extractTimestampMs (raw : Int) :
    CreatedAt.fromTimestampMs (extractTimestampMs raw) =
      .ok ((extractTimestampMs raw / 1000 : Nat) * 1000000000 +
        (extractTimestampMs raw % 1000 * 1000000 : Nat)) := by
  have hsecs : ¬maxUnixTimestamp < extractTimestampMs raw / 1000 :=
    not_lt.mpr (extractTimestampMs_secs_le raw)
  have hnanos : ¬1000000000 ≤ extractTimestampMs raw % 1000 * 1000000 := by omega
  simp only [CreatedAt.fromTimestampMs, if_neg hsecs, if_neg hnanos]

end Emumet

import Emumet.KernelAccount

/-! Creation times read from ids, on the machine words of the source: an `i64` is reinterpreted as a
`u64`, the addition of the epoch could overflow, and seconds and nanoseconds are cast back. Both
functions compute what their counterparts on numbers do, for every word. -/

namespace Emumet

namespace CreationTime

/-! ### Instants of the calendar -/

/-- Midnight UTC of a date. -/
def midnight (date : Std.Time.PlainDate) : OffsetDateTime :=
  date.toEpochDay.val * (24 * 60 * 60 * 1000000000)

/-- The date of the custom epoch. -/
def epochDate : Std.Time.PlainDate := ⟨2026, 1, 1, by decide⟩

/-- The dates `OffsetDateTime` reaches. -/
def firstDate : Std.Time.PlainDate := ⟨-9999, 1, 1, by decide⟩

def lastDate : Std.Time.PlainDate := ⟨9999, 12, 31, by decide⟩

theorem midnight_epochDate : midnight epochDate = emumetEpochMs * 1000000 := by decide

theorem midnight_firstDate : midnight firstDate ≤ 0 := by decide

/-- The last accepted second is the last second of the last date. -/
theorem midnight_lastDate :
    midnight lastDate + (24 * 60 * 60 - 1) * 1000000000 = maxUnixTimestamp * 1000000000 := by decide

/-! ### The functions on words -/

/-- `a + b` on `u64`, nothing when it overflows. -/
def checkedAdd (a b : UInt64) : Option UInt64 :=
  if a.toNat + b.toNat < 2 ^ 64 then some (a + b) else none

def timestampMaskWord : UInt64 := 2199023255551

def emumetEpochMsWord : UInt64 := 1767225600000

/-- `extract_timestamp_ms`. -/
def extractTimestampMsWord (raw : Int64) : Option UInt64 :=
  checkedAdd ((raw.toUInt64 >>> 22) &&& timestampMaskWord) emumetEpochMsWord

/-- The functions of `OffsetDateTime`. -/
structure TimeLibrary where
  fromUnixTimestamp : Int64 → Option OffsetDateTime
  replaceNanosecond : OffsetDateTime → UInt32 → Option OffsetDateTime

/-- What is documented of them: every second of the dates is an instant, and every number below a second
can be its nanoseconds. -/
structure TimeLibrary.Documented (time : TimeLibrary) : Prop where
  seconds : ∀ secs : Int64, midnight firstDate ≤ secs.toInt * 1000000000 →
    secs.toInt * 1000000000 ≤ midnight lastDate + (24 * 60 * 60 - 1) * 1000000000 →
    time.fromUnixTimestamp secs = some (secs.toInt * 1000000000)
  nanoseconds : ∀ (instant : OffsetDateTime) (nanos : UInt32), nanos.toNat < 1000000000 →
    time.replaceNanosecond instant nanos = some (instant / 1000000000 * 1000000000 + nanos.toNat)

/-- The two conversions with the texts attached to their errors. -/
def ofSecsAndNanos (time : TimeLibrary) (secs : Int64) (nanos : UInt32) : Result OffsetDateTime :=
  match time.fromUnixTimestamp secs with
  | none => reject .Internal s!"Invalid seconds: {secs}"
  | some instant =>
      match time.replaceNanosecond instant nanos with
      | none => reject .Internal s!"Invalid nanos: {nanos}"
      | some datetime => .ok datetime

/-- `CreatedAt::from_timestamp_ms`. -/
def fromTimestampMsWord (time : TimeLibrary) (ms : UInt64) : Result OffsetDateTime :=
  ofSecsAndNanos time (ms / 1000).toInt64 (ms % 1000 * 1000000).toUInt32

variable {time : TimeLibrary}

theorem ofSecsAndNanos_eq {secs : Int64} {nanos : UInt32} {instant datetime : OffsetDateTime}
    (hinstant : time.fromUnixTimestamp secs = some instant)
    (hdatetime : time.replaceNanosecond instant nanos = some datetime) :
    ofSecsAndNanos time secs nanos = .ok datetime := by
  simp only [ofSecsAndNanos, hinstant, hdatetime]

/-! ### Words and numbers -/

/-- The cast keeps the bits, so a negative id counts from 2 ^ 64 down. -/
theorem toNat_toUInt64 (raw : Int64) : raw.toUInt64.toNat = (raw.toInt % 2 ^ 64).toNat := by
  have hint : raw.toInt = raw.toBitVec.toInt := rfl
  have hnat : raw.toUInt64.toNat = raw.toBitVec.toNat := rfl
  have hlt := raw.toBitVec.isLt
  rw [hint, hnat, BitVec.toInt_eq_toNat_cond]
  split_ifs <;> omega

/-- The timestamp bits, as a number. -/
theorem toNat_timestamp (raw : Int64) :
    ((raw.toUInt64 >>> 22) &&& timestampMaskWord).toNat =
      ((raw.toInt % 2 ^ 64).toNat >>> timestampShift) &&& timestampMask := by
  have hshift : (22 : UInt64).toNat % 64 = timestampShift := rfl
  have hmask : timestampMaskWord.toNat = timestampMask := by decide
  rw [UInt64.toNat_and, UInt64.toNat_shiftRight, toNat_toUInt64, hshift, hmask]

/-- The epoch is added without overflow, and the sum is that of the numbers. -/
theorem extractTimestampMsWord_eq (raw : Int64) :
    ∃ ms, extractTimestampMsWord raw = some ms ∧ ms.toNat = extractTimestampMs raw.toInt := by
  have hsum : ((raw.toUInt64 >>> 22) &&& timestampMaskWord).toNat + emumetEpochMsWord.toNat =
      extractTimestampMs raw.toInt := by
    have hepoch : emumetEpochMsWord.toNat = emumetEpochMs := by decide
    rw [toNat_timestamp, hepoch, extractTimestampMs]
  have hlt : extractTimestampMs raw.toInt < 2 ^ 64 := by
    have := extractTimestampMs_lt raw.toInt
    simp only [emumetEpochMs] at this
    omega
  refine ⟨((raw.toUInt64 >>> 22) &&& timestampMaskWord) + emumetEpochMsWord, ?_, ?_⟩
  · rw [extractTimestampMsWord, checkedAdd, hsum, if_pos hlt]
  · rw [UInt64.toNat_add, hsum, Nat.mod_eq_of_lt hlt]

theorem toInt_secs (ms : UInt64) : (ms / 1000).toInt64.toInt = ((ms.toNat / 1000 : Nat) : Int) := by
  have hint : (ms / 1000).toInt64.toInt = (ms / 1000).toBitVec.toInt := rfl
  have hnat : (ms / 1000).toBitVec.toNat = ms.toNat / 1000 := UInt64.toNat_div ms 1000
  have hlt := ms.toNat_lt
  rw [hint, BitVec.toInt_eq_toNat_cond, hnat]
  split_ifs <;> omega

theorem toNat_nanos (ms : UInt64) :
    (ms % 1000 * 1000000).toUInt32.toNat = ms.toNat % 1000 * 1000000 := by
  have hmod : (ms % 1000).toNat = ms.toNat % 1000 := UInt64.toNat_mod ms 1000
  have hfactor : (1000000 : UInt64).toNat = 1000000 := rfl
  rw [UInt64.toNat_toUInt32, UInt64.toNat_mul, hmod, hfactor]
  omega

theorem fromUnixTimestamp_eq (htime : time.Documented) {ms : UInt64}
    (hsecs : ms.toNat / 1000 ≤ maxUnixTimestamp) :
    time.fromUnixTimestamp (ms / 1000).toInt64 =
      some (((ms.toNat / 1000 : Nat) : Int) * 1000000000) := by
  rw [htime.seconds, toInt_secs]
  · rw [toInt_secs]
    exact midnight_firstDate.trans (by positivity)
  · rw [toInt_secs, midnight_lastDate]
    omega

theorem replaceNanosecond_eq (htime : time.Documented) (ms : UInt64) :
    time.replaceNanosecond (((ms.toNat / 1000 : Nat) : Int) * 1000000000)
        (ms % 1000 * 1000000).toUInt32 =
      some
        (((ms.toNat / 1000 : Nat) : Int) * 1000000000 + ((ms.toNat % 1000 * 1000000 : Nat) : Int)) := by
  have hnanos : (ms % 1000 * 1000000).toUInt32.toNat < 1000000000 := by
    rw [toNat_nanos]
    omega
  rw [htime.nanoseconds _ _ hnanos, toNat_nanos, Int.mul_ediv_cancel _ (by decide)]

/-- The casts lose nothing. -/
theorem fromTimestampMsWord_eq (htime : time.Documented) {ms : UInt64}
    (hsecs : ms.toNat / 1000 ≤ maxUnixTimestamp) :
    fromTimestampMsWord time ms = .ok
      (((ms.toNat / 1000 : Nat) : Int) * 1000000000 + ((ms.toNat % 1000 * 1000000 : Nat) : Int)) := by
  exact ofSecsAndNanos_eq (fromUnixTimestamp_eq htime hsecs) (replaceNanosecond_eq htime ms)

/-! ### Instants -/

/-- Seconds and nanoseconds together are the milliseconds. -/
theorem millis_eq (ms : Nat) : ((ms / 1000 : Nat) : Int) * 1000000000 +
    ((ms % 1000 * 1000000 : Nat) : Int) = (ms : Int) * 1000000 := by
  omega

theorem emumetEpochMs_le (raw : Int) : emumetEpochMs ≤ extractTimestampMs raw :=
  Nat.le_add_left _ _

/-- Up to the sign bit all bits above the low ones are timestamp bits. -/
theorem extractTimestampMs_mono {raw later : Int} (hraw : 0 ≤ raw) (hle : raw ≤ later)
    (hlater : later < 2 ^ 63) : extractTimestampMs raw ≤ extractTimestampMs later := by
  have hbits : ∀ {id : Int}, 0 ≤ id → id < 2 ^ 63 →
      extractTimestampMs id = id.toNat / 2 ^ 22 + emumetEpochMs := by
    intro id hpos hlt
    have hword : (id % 2 ^ 64).toNat = id.toNat := by rw [Int.emod_eq_of_lt hpos (by omega)]
    have hshort : id.toNat / 2 ^ 22 < 2 ^ 41 := by omega
    rw [extractTimestampMs, hword, timestampShift, timestampMask, Nat.shiftRight_eq_div_pow,
      Nat.and_two_pow_sub_one_eq_mod, Nat.mod_eq_of_lt hshort]
  rw [hbits hraw (by omega), hbits (by omega) hlater]
  exact Nat.add_le_add_right (Nat.div_le_div_right (Int.toNat_le_toNat hle)) _

/-- Every id of 64 bits has a creation time: the addition does not overflow, the conversion succeeds,
the instant is that many milliseconds after the Unix epoch, within 2 ^ 41 of them from 2026 on, not
earlier for a greater id, and it is the one an account is created with. -/
theorem creation_times_valid (time : TimeLibrary) (htime : time.Documented) (raw : Int64) :
    ∃ ms createdAt, extractTimestampMsWord raw = some ms ∧
      fromTimestampMsWord time ms = .ok createdAt ∧ createdAt = ms.toNat * 1000000 ∧
      midnight epochDate ≤ createdAt ∧ createdAt < midnight epochDate + 2 ^ 41 * 1000000 ∧
      (∀ later : Int64, 0 ≤ raw → raw ≤ later → ∃ laterMs laterAt,
        extractTimestampMsWord later = some laterMs ∧ fromTimestampMsWord time laterMs = .ok laterAt ∧
          createdAt ≤ laterAt) ∧
      ∀ now entity name isBot nanoid authAccountId version,
        let event : EventEnvelope AccountEvent :=
          ⟨raw.toInt, .Created name isBot nanoid authAccountId, version⟩
        ((∃ next, Account.apply now entity event = .ok next) ↔ entity = none) ∧
          ∀ account, Account.apply now entity event = .ok (some account) →
            account.createdAt = createdAt := by
  have hwords : ∀ raw : Int64, ∃ ms : UInt64, extractTimestampMsWord raw = some ms ∧
      fromTimestampMsWord time ms = .ok (extractTimestampMs raw.toInt * 1000000) ∧
      ms.toNat = extractTimestampMs raw.toInt := by
    intro raw
    obtain ⟨ms, hms, hnat⟩ := extractTimestampMsWord_eq raw
    refine ⟨ms, hms, ?_, hnat⟩
    rw [fromTimestampMsWord_eq htime (by rw [hnat]; exact extractTimestampMs_secs_le raw.toInt), hnat, millis_eq]
  obtain ⟨ms, hms, hdatetime, hnat⟩ := hwords raw
  have hle : (emumetEpochMs : Int) ≤ extractTimestampMs raw.toInt :=
    Int.ofNat_le.mpr (emumetEpochMs_le raw.toInt)
  have hlt : (extractTimestampMs raw.toInt : Int) < 2 ^ 41 + emumetEpochMs :=
    Int.ofNat_lt.mpr (extractTimestampMs_lt raw.toInt)
  refine ⟨ms, _, hms, hdatetime, by rw [hnat], ?_, ?_, ?_, ?_⟩
  · rw [midnight_epochDate]
    linarith
  · rw [midnight_epochDate]
    linarith
  · intro later hraw hlater
    obtain ⟨laterMs, hlaterMs, hlaterAt, _⟩ := hwords later
    refine ⟨laterMs, _, hlaterMs, hlaterAt, ?_⟩
    have hmono : (extractTimestampMs raw.toInt : Int) ≤ extractTimestampMs later.toInt :=
      Int.ofNat_le.mpr (extractTimestampMs_mono (Int64.le_iff_toInt_le.mp hraw)
        (Int64.le_iff_toInt_le.mp hlater) later.toInt_lt)
    linarith
  · intro now entity name isBot nanoid authAccountId version event
    cases entity with
    | none =>
        have happly : Account.apply now none event = .ok (some
            { id := raw.toInt, name, isBot, status := .Active, deletedAt := none, version, nanoid
              createdAt := extractTimestampMs raw.toInt * 1000000 }) := by
          simp only [Account.apply, event, fromTimestampMs_extractTimestampMs, millis_eq]
          rfl
        refine ⟨⟨fun _ => rfl, fun _ => ⟨_, happly⟩⟩, fun account haccount => ?_⟩
        rw [happly] at haccount
        cases haccount
        rfl
    | some account =>
        have hexists : ∀ next, Account.apply now (some account) event ≠ .ok next := fun next h => by
          cases h
        refine ⟨⟨?_, fun h => by cases h⟩, fun next h => absurd h (hexists _)⟩
        rintro ⟨next, h⟩
        exact absurd h (hexists next)

/-- The functions of the `time` crate. -/
def timeCrate : TimeLibrary where
  fromUnixTimestamp secs :=
    let instant := secs.toInt * 1000000000
    if midnight firstDate ≤ instant ∧
        instant ≤ midnight lastDate + (24 * 60 * 60 - 1) * 1000000000 then some instant
    else none
  replaceNanosecond instant nanos :=
    if nanos.toNat < 1000000000 then some (instant / 1000000000 * 1000000000 + nanos.toNat) else none

theorem documented_timeCrate : timeCrate.Documented where
  seconds _ hfirst hlast := if_pos ⟨hfirst, hlast⟩
  nanoseconds _ _ hnanos := if_pos hnanos

/-- All bits set, and two ids of which the second is one millisecond later. -/
theorem creation_times_valid_words :
    (∃ ms createdAt, extractTimestampMsWord (-1) = some ms ∧
      fromTimestampMsWord timeCrate ms = .ok createdAt ∧ createdAt < midnight epochDate + 2 ^ 41 * 1000000) ∧
      ∃ createdAt laterMs laterAt, extractTimestampMsWord 4194304 = some laterMs ∧
        fromTimestampMsWord timeCrate laterMs = .ok laterAt ∧ midnight epochDate ≤ createdAt ∧
        createdAt ≤ laterAt := by
  constructor
  · obtain ⟨ms, createdAt, hms, hcreatedAt, _, _, hbelow, _⟩ := creation_times_valid timeCrate documented_timeCrate (-1)
    exact ⟨ms, createdAt, hms, hcreatedAt, hbelow⟩
  · obtain ⟨_, createdAt, _, _, _, hfrom, _, hmono, _⟩ := creation_times_valid timeCrate documented_timeCrate 0
    obtain ⟨laterMs, laterAt, hms, hlaterAt, hle⟩ := hmono 4194304 (by decide) (by decide)
    exact ⟨createdAt, laterMs, laterAt, hms, hlaterAt, hfrom, hle⟩

end CreationTime

end Emumet

import Emumet.DriverRepository

/-! Replaying a stream at different times. The applier reads the clock for each `Deactivated` event and
stores the reading, so a replay is a function of the events and of one reading per event; it forgets all
readings but the one at the deactivation that still stands. -/

namespace Emumet

namespace ReplayClock

/-- An event and the clock reading at which it is applied. -/
abbrev TimedEvent := EventEnvelope (OffsetDateTime × AccountEvent)

/-- The event as it is stored. -/
def stored (event : TimedEvent) : EventEnvelope AccountEvent := ⟨event.id, event.event.2, event.version⟩

def applyTimed (entity : Option Account) (event : TimedEvent) : Result (Option Account) :=
  Account.apply event.event.1 entity (stored event)

/-- `Rehydrated::from_events`, with a clock reading for each event. -/
def fromEvents (events : List TimedEvent) : Result (Option (Rehydrated Account)) :=
  Rehydrated.fromEvents applyTimed events

/-- The reading at the last deactivation, unless the account was reactivated after it. -/
def standing (since : Option OffsetDateTime) (event : TimedEvent) : Option OffsetDateTime :=
  match event.event.2 with
  | .Deactivated => some event.event.1
  | .Reactivated => none
  | _ => since

def deactivatedAt (events : List TimedEvent) : Option OffsetDateTime := events.foldl standing none

/-- The account with another time of deactivation. -/
def retime (since : Option OffsetDateTime) (account : Account) : Account :=
  { account with deletedAt := since }

/-- An applied event does to a retimed account what it does to the account at any other clock. -/
theorem apply_retime (now : OffsetDateTime) {account : Account} {since : Option OffsetDateTime}
    (hsince : since.isSome = account.deletedAt.isSome) (event : TimedEvent) :
    applyTimed (some (retime since account)) event =
        (Account.apply now (some account) (stored event)).map
          (Option.map (retime (standing since event))) ∧
      ∀ next, Account.apply now (some account) (stored event) = .ok (some next) →
        (standing since event).isSome = next.deletedAt.isSome := by
  have hnone : since.isNone = account.deletedAt.isNone := by
    rw [← Option.not_isSome, hsince, Option.not_isSome]
  obtain ⟨id, ⟨reading, payload⟩, version⟩ := event
  cases payload with
  | Created name isBot nanoid authAccountId =>
      refine ⟨rfl, fun next h => ?_⟩
      cases Account.apply_some_not_created h
  | Updated isBot =>
      refine ⟨rfl, fun next h => ?_⟩
      cases h
      exact hsince
  | _ =>
      simp only [applyTimed, stored, Account.apply, standing, retime, reject, hsince, hnone]
      constructor
      · split_ifs <;> rfl
      · intro next h
        split_ifs at h
        all_goals
          cases h
          rfl

/-- The reading of a deactivation belongs to the entity: it is there exactly if the entity is deleted. -/
def Belongs (since : Option OffsetDateTime) (entity : Option Account) : Prop :=
  since.isSome = (entity.bind Account.deletedAt).isSome

theorem apply_timed (now : OffsetDateTime) {entity : Option Account} {since : Option OffsetDateTime}
    (hsince : Belongs since entity) (event : TimedEvent) :
    applyTimed (entity.map (retime since)) event =
        (Account.apply now entity (stored event)).map (Option.map (retime (standing since event))) ∧
      ∀ next, Account.apply now entity (stored event) = .ok next → Belongs (standing since event) next := by
  cases entity with
  | some account =>
      obtain ⟨hstep, hnext⟩ := apply_retime now hsince event
      refine ⟨hstep, fun next h => ?_⟩
      obtain ⟨result, rfl, _⟩ := Account.apply_ok h
      exact hnext result h
  | none =>
      obtain rfl : since = none := Option.isSome_eq_false_iff.mp hsince |> Option.isNone_iff_eq_none.mp
      obtain ⟨id, ⟨reading, payload⟩, version⟩ := event
      cases payload with
      | Created name isBot nanoid authAccountId =>
          obtain ⟨account, happly, _, _, _, hdeleted⟩ :=
            Account.apply_created now id name isBot nanoid authAccountId version
          have hclock : applyTimed none ⟨id, (reading, .Created name isBot nanoid authAccountId), version⟩ =
              .ok (some account) := happly
          constructor
          · rw [stored, happly, Option.map_none, hclock, Except.map, Option.map_some, standing, retime,
              ← hdeleted]
          · intro next h
            rw [stored, happly] at h
            cases h
            rw [Belongs, Option.bind_some, hdeleted, standing]
      | _ =>
          refine ⟨rfl, fun next h => ?_⟩
          cases Account.apply_none h

/-- A replay is the fold at any one clock, with the reading at the deactivation that still stands. -/
theorem foldEvents_timed (now : OffsetDateTime) (events : List TimedEvent) :
    foldEvents applyTimed none events = (Account.fold now (events.map stored)).map
        (Option.map (retime (deactivatedAt events))) ∧
      ∀ entity, Account.fold now (events.map stored) = .ok entity → Belongs (deactivatedAt events) entity := by
  induction events using List.reverseRecOn with
  | nil =>
      refine ⟨rfl, fun entity h => ?_⟩
      cases h
      rfl
  | append_singleton front last ih =>
      obtain ⟨hfold, hbelongs⟩ := ih
      have hlast : deactivatedAt (front ++ [last]) = standing (deactivatedAt front) last :=
        List.foldl_append
      have happend : Account.fold now ((front ++ [last]).map stored) =
          Account.fold now (front.map stored) >>= fun entity => Account.apply now entity (stored last) := by
        rw [List.map_append, List.map_singleton, Account.fold, foldEvents_append]
        simp only [foldEvents, List.foldlM_cons, List.foldlM_nil, bind_pure]
        rfl
      have happend' : foldEvents applyTimed none (front ++ [last]) =
          foldEvents applyTimed none front >>= fun entity => applyTimed entity last := by
        rw [foldEvents_append]
        simp only [foldEvents, List.foldlM_cons, List.foldlM_nil, bind_pure]
      rw [happend, happend', hfold, hlast]
      cases hfront : Account.fold now (front.map stored) with
      | error report => exact ⟨rfl, fun entity h => by cases h⟩
      | ok entity => exact apply_timed now (hbelongs entity hfront) last

/-- What a replay returns of the entity a stream folds to. -/
def rehydrated (since : Option OffsetDateTime) (version : EventVersion) :
    Option Account → Result (Option (Rehydrated Account))
  | none => reject .Internal "event stream folded into an empty aggregate"
  | some account => .ok (some ⟨retime since account, version⟩)

theorem fromEvents_eq (events : List TimedEvent) {last : TimedEvent} (hlast : events.getLast? = some last) :
    fromEvents events = Account.fold 0 (events.map stored) >>= rehydrated (deactivatedAt events)
      last.version := by
  simp only [fromEvents, Rehydrated.fromEvents, hlast, (foldEvents_timed 0 events).1]
  cases Account.fold 0 (events.map stored) with
  | error report => rfl
  | ok entity =>
      cases entity with
      | none => rfl
      | some account => rfl

/-- Two replays of a stream give the same result exactly if the stream does not fold or they read the
same time at the deactivation that still stands. -/
theorem replay_clock_independent_iff (left right : List TimedEvent)
    (hsame : left.map stored = right.map stored) :
    fromEvents left = fromEvents right ↔
      ((Account.fold 0 (left.map stored)).isOk = true → deactivatedAt left = deactivatedAt right) := by
  cases hlast : left.getLast? with
  | none =>
      obtain rfl := List.getLast?_eq_none_iff.mp hlast
      obtain rfl := List.map_eq_nil_iff.mp hsame.symm
      exact iff_of_true rfl fun _ => rfl
  | some last =>
      -- the two streams end in the same stored event
      have hlasts := congrArg List.getLast? hsame
      rw [List.getLast?_map, List.getLast?_map, hlast, Option.map_some] at hlasts
      obtain ⟨last', hlast', hstored⟩ := Option.map_eq_some_iff.mp hlasts.symm
      have hversion : last'.version = last.version := by
        change (stored last').version = (stored last).version
        rw [hstored]
      rw [fromEvents_eq left hlast, fromEvents_eq right hlast', hversion, ← hsame]
      have hbelongs := (foldEvents_timed 0 left).2
      have hbelongs' := (foldEvents_timed 0 right).2
      rw [← hsame] at hbelongs'
      cases hfold : Account.fold 0 (left.map stored) with
      | error report => exact iff_of_true rfl nofun
      | ok entity =>
          cases entity with
          | none =>
              have hnone : ∀ since, Belongs since none → since = none := fun since h =>
                Option.isNone_iff_eq_none.mp (Option.isSome_eq_false_iff.mp h)
              refine iff_of_true rfl fun _ => ?_
              rw [hnone _ (hbelongs none hfold), hnone _ (hbelongs' none hfold)]
          | some account =>
              constructor
              · intro heq _
                have haccounts := congrArg Rehydrated.aggregate (Option.some.inj (Except.ok.inj heq))
                exact congrArg Account.deletedAt haccounts
              · intro hsince
                rw [hsince rfl]

/-- Alice's account is created, deactivated and, in the first streams, reactivated; the clock reads the
given time at the deactivation. -/
def replayed (reactivated : Bool) (reading : OffsetDateTime) : List TimedEvent :=
  [⟨7, (1, .Created "alice" false "alice-nanoid" 3), 20⟩, ⟨7, (reading, .Deactivated), 21⟩] ++
    if reactivated then [⟨7, (reading, .Reactivated), 22⟩] else []

theorem replay_clock_independent_reactivated :
    fromEvents (replayed true 5) = fromEvents (replayed true 9) :=
  (replay_clock_independent_iff (replayed true 5) (replayed true 9) rfl).mpr fun _ => rfl

/-- A deactivated account is deleted at the time of the replay. -/
theorem replay_reads_clock :
    (replayed false 5).map stored = (replayed false 9).map stored ∧
      (fromEvents (replayed false 5)).isOk = true ∧
      fromEvents (replayed false 5) ≠ fromEvents (replayed false 9) := by
  decide +kernel

end ReplayClock

end Emumet

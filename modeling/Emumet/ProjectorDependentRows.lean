import Emumet.ProjectorDependents

/-! What a poll does to the row of one profile or metadata stream. The group of a stream is handled once,
in a database whose accounts are those before the poll and whose row for the stream is untouched; what
becomes of the row follows from the fold of the group. -/

namespace Emumet

namespace Dependent

variable {kind : Aggregate} {Row : Type} {d : Dependent kind Row} {entity result : Option Row}
  {row : Row}

/-! ### Folds -/

section Folds

variable {events : List (EventEnvelope kind.Event)}

/-- What events fold to has the version of the last one, and is nothing when that ends the stream. -/
theorem Lawful.fold_last (hd : d.Lawful) (hok : foldEvents d.apply entity events = .ok result)
    (hne : events ≠ []) :
    (result = none ↔ d.ends (events.getLast hne).event = true) ∧
      ∀ row, result = some row → d.version row = (events.getLast hne).version := by
  obtain ⟨front, last, rfl⟩ : ∃ front last, events = front ++ [last] :=
    ⟨_, _, (List.dropLast_append_getLast hne).symm⟩
  obtain ⟨middle, _, happly⟩ := foldEvents_concat.mp hok
  rw [List.getLast_append_singleton]
  cases middle with
  | none =>
      obtain ⟨created, rfl, hcreated, hversion, _⟩ := hd.apply_none happly
      refine ⟨⟨fun h => (by cases h), fun hends => ?_⟩, ?_⟩
      · rw [hd.ends_created hends] at hcreated
        cases hcreated
      · rintro row ⟨⟩
        exact hversion
  | some existing =>
      obtain ⟨_, hends, hnext⟩ := hd.apply_some happly
      exact ⟨hends, fun row hrow => (hnext row hrow).2.2⟩

theorem Lawful.fold_id (hd : d.Lawful) {k : Int}
    (hentity : ∀ existing, entity = some existing → d.id existing = k)
    (hevents : ∀ event ∈ events, event.id = k)
    (hok : foldEvents d.apply entity events = .ok (some row)) : d.id row = k := by
  have hinvariant : ∀ last, some row = some last → d.id last = k := by
    refine Fallible.foldlM_invariant (P := fun entity => ∀ existing, entity = some existing →
      d.id existing = k) ?_ hentity hok
    rintro before event hevent after hbefore hstep next rfl
    cases before with
    | none =>
        obtain ⟨created, hcreated, _, _, hid⟩ := hd.apply_none hstep
        cases hcreated
        exact hid.trans (hevents event hevent)
    | some previous => exact ((hd.apply_some hstep).2.2 next rfl).1.trans (hbefore previous rfl)
  exact hinvariant row rfl

/-- A row has the identity of the row it was folded onto or the one an event gave it. -/
theorem Lawful.fold_identity (hd : d.Lawful)
    (hok : foldEvents d.apply entity events = .ok (some row)) :
    (∃ existing, entity = some existing ∧ d.identity row = d.identity existing) ∨
      ∃ event ∈ events, d.created event.event = some (d.identity row) := by
  have hinvariant : ∀ last, some row = some last →
      (∃ existing, entity = some existing ∧ d.identity last = d.identity existing) ∨
        ∃ event ∈ events, d.created event.event = some (d.identity last) := by
    refine Fallible.foldlM_invariant (P := fun result => ∀ last, result = some last →
      (∃ existing, entity = some existing ∧ d.identity last = d.identity existing) ∨
        ∃ event ∈ events, d.created event.event = some (d.identity last)) ?_
      (fun last hlast => Or.inl ⟨last, hlast, rfl⟩) hok
    rintro before event hevent after hbefore hstep next rfl
    cases before with
    | none =>
        obtain ⟨created, hcreated, hidentity, _⟩ := hd.apply_none hstep
        cases hcreated
        exact Or.inr ⟨event, hevent, hidentity⟩
    | some previous =>
        rw [((hd.apply_some hstep).2.2 next rfl).2.1]
        exact hbefore previous rfl
  exact hinvariant row rfl

/-- Only a creation comes first. -/
theorem Lawful.fold_head (hd : d.Lawful) {first : EventEnvelope kind.Event}
    (hok : foldEvents d.apply none (first :: events) = .ok result) :
    ∃ created, d.apply none first = .ok (some created) ∧
      d.created first.event = some (d.identity created) ∧
      foldEvents d.apply (some created) events = .ok result := by
  rw [foldEvents, List.foldlM_cons, Fallible.bind_eq_ok] at hok
  obtain ⟨middle, happly, hrest⟩ := hok
  obtain ⟨created, rfl, hcreated, _⟩ := hd.apply_none happly
  exact ⟨created, happly, hcreated, hrest⟩

/-- Nothing is created twice before the stream ends. -/
theorem Lawful.fold_not_created (hd : d.Lawful)
    (hends : events.Pairwise fun a _ => d.ends a.event = false)
    (hok : foldEvents d.apply (some row) events = .ok result) :
    ∀ event ∈ events, d.created event.event = none := by
  induction events generalizing row with
  | nil => simp
  | cons first rest ih =>
      rw [foldEvents, List.foldlM_cons, Fallible.bind_eq_ok] at hok
      obtain ⟨middle, happly, hrest⟩ := hok
      obtain ⟨hcreated, hended, _⟩ := hd.apply_some happly
      obtain ⟨hfirst, htail⟩ := List.pairwise_cons.mp hends
      intro event hevent
      rcases List.mem_cons.mp hevent with rfl | hmem
      · exact hcreated
      · cases middle with
        | none =>
            have hopen := hfirst event hmem
            rw [hended.mp rfl] at hopen
            cases hopen
        | some next => exact ih htail hrest event hmem

/-- Events without a creation fold onto every row. -/
theorem Lawful.fold_later (hd : d.Lawful)
    (hends : events.Pairwise fun a _ => d.ends a.event = false)
    (hlater : ∀ event ∈ events, d.created event.event = none) (row : Row) :
    ∃ result, foldEvents d.apply (some row) events = .ok result := by
  induction events generalizing row with
  | nil => exact ⟨_, rfl⟩
  | cons first rest ih =>
      obtain ⟨middle, happly⟩ := hd.apply_later row (hlater first (by simp))
      obtain ⟨hfirst, htail⟩ := List.pairwise_cons.mp hends
      have hcons : foldEvents d.apply (some row) (first :: rest) = foldEvents d.apply middle rest := by
        rw [foldEvents, List.foldlM_cons, happly]
        rfl
      rw [hcons]
      cases middle with
      | some next => exact ih htail (fun event hevent => hlater event (by simp [hevent])) next
      | none =>
          cases rest with
          | nil => exact ⟨_, rfl⟩
          | cons second rest =>
              have hopen := hfirst second (by simp)
              rw [((hd.apply_some happly).2.1).mp rfl] at hopen
              cases hopen

end Folds

/-! ### Streams -/

variable {events whole group : List (SeqEvent kind.Event)}

variable (d) in
/-- A stream folds without error, and nothing follows a `Deleted` event in it. -/
structure Stream (events : List (SeqEvent kind.Event)) : Prop where
  folds : ∃ entity, foldEvents d.apply none (events.map SeqEvent.envelope) = .ok entity
  ends : events.Pairwise fun a _ => d.ends a.envelope.event = false

theorem Stream.beginning {later : List (SeqEvent kind.Event)} (h : d.Stream (events ++ later)) :
    d.Stream events := by
  obtain ⟨entity, hentity⟩ := h.folds
  rw [List.map_append] at hentity
  obtain ⟨middle, hmiddle, _⟩ := foldEvents_split hentity
  exact ⟨⟨middle, hmiddle⟩, (List.pairwise_append.mp h.ends).1⟩

/-- A stream is created by its first event and by no other. -/
theorem Lawful.stream_cons (hd : d.Lawful) {first : SeqEvent kind.Event}
    (h : d.Stream (first :: events)) :
    (d.created first.envelope.event).isSome = true ∧
      ∀ event ∈ events, d.created event.envelope.event = none := by
  obtain ⟨entity, hentity⟩ := h.folds
  obtain ⟨created, _, hcreated, hrest⟩ := hd.fold_head hentity
  refine ⟨by rw [hcreated]; rfl, fun event hevent => ?_⟩
  refine hd.fold_not_created ?_ hrest event.envelope (List.mem_map_of_mem hevent)
  exact List.pairwise_map.mpr (List.pairwise_cons.mp h.ends).2

/-- An end of a stream that holds a creation is the whole stream. -/
theorem Lawful.eq_of_created (hd : d.Lawful) (h : d.Stream whole) (hgroup : group <:+ whole)
    {event : SeqEvent kind.Event} (hevent : event ∈ group)
    (hcreated : (d.created event.envelope.event).isSome = true) : group = whole := by
  obtain ⟨earlier, rfl⟩ := hgroup
  cases earlier with
  | nil => rfl
  | cons first rest =>
      rw [(hd.stream_cons h).2 event (List.mem_append_right _ hevent)] at hcreated
      cases hcreated

/-- From nothing only the whole stream folds. -/
theorem Lawful.eq_of_folds (hd : d.Lawful) (h : d.Stream whole) (hgroup : group <:+ whole)
    (hne : group ≠ []) (hok : foldEvents d.apply none (group.map SeqEvent.envelope) = .ok result) :
    group = whole := by
  obtain ⟨first, rest, rfl⟩ := List.exists_cons_of_ne_nil hne
  obtain ⟨created, _, hcreated, _⟩ := hd.fold_head hok
  exact hd.eq_of_created h hgroup List.mem_cons_self (by rw [hcreated]; rfl)

/-! ### One group -/

variable {db after : Db} {env : PollEnv} {k : Int}

theorem pending_none (d : Dependent kind Row) (events : List (SeqEvent kind.Event)) :
    d.pending none events = events :=
  List.filter_eq_self.mpr fun _ _ => rfl

theorem entity_none (d : Dependent kind Row) (events : List (SeqEvent kind.Event)) :
    d.entity none events = foldEvents d.apply none (events.map SeqEvent.envelope) := by
  rw [entity, pending_none]

/-- A group is skipped when it holds nothing new, when it would make a row for a deactivated account or
when it does not fold; otherwise it is written or rolled back. -/
theorem project_cases (d : Dependent kind Row) (env : PollEnv) (db : Db) (k : Int)
    (events : List (SeqEvent kind.Event)) :
    let existing := (d.table db).get k
    let deleted := parentDeleted db env.now (d.owner (d.pending existing events))
    (d.project env db k events = .skipped ∧ (d.pending existing events = [] ∨
        (existing = none ∧ deleted = true) ∨ ∃ report, d.entity existing events = .error report)) ∨
      ∃ entity, d.pending existing events ≠ [] ∧ (existing = none → deleted = false) ∧
        d.entity existing events = .ok entity ∧
        ((∃ after, d.write db k entity = some after ∧ d.project env db k events = .written after none) ∨
          (d.project env db k events = .rolledBack ∧
            (env.writeFails k = true ∨ d.write db k entity = none))) := by
  intro existing deleted
  by_cases hpending : d.pending existing events = []
  · exact Or.inl ⟨by simp [project, existing, hpending], Or.inl hpending⟩
  · have hempty : (d.pending existing events).isEmpty = false := by
      rw [← Bool.not_eq_true, List.isEmpty_iff]
      exact hpending
    cases hguard : existing.isNone && deleted with
    | true =>
        rw [Bool.and_eq_true, Option.isNone_iff_eq_none] at hguard
        refine Or.inl ⟨?_, Or.inr (Or.inl hguard)⟩
        have hboth : (((d.table db).get k).isNone &&
            parentDeleted db env.now (d.owner (d.pending ((d.table db).get k) events))) = true := by
          rw [Bool.and_eq_true, Option.isNone_iff_eq_none]
          exact hguard
        simp only [project, hboth, if_true, ite_self]
    | false =>
        have hlive : existing = none → deleted = false := by
          intro hnone
          simpa [hnone] using hguard
        cases hentity : d.entity existing events with
        | error report =>
            refine Or.inl ⟨?_, Or.inr (Or.inr ⟨report, rfl⟩)⟩
            simp only [existing, deleted] at hempty hguard hentity
            simp only [project, hempty, hguard, hentity, Bool.false_eq_true, if_false]
        | ok entity =>
            refine Or.inr ⟨entity, hpending, hlive, rfl, ?_⟩
            simp only [existing, deleted] at hempty hguard hentity
            simp only [project, hempty, hguard, hentity, Bool.false_eq_true, if_false]
            cases env.writeFails k with
            | true => exact Or.inr ⟨rfl, Or.inl rfl⟩
            | false =>
                cases hwrite : d.write db k entity with
                | none => exact Or.inr ⟨rfl, Or.inr rfl⟩
                | some after => exact Or.inl ⟨after, rfl, rfl⟩

end Dependent

end Emumet

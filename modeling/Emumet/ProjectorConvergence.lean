import Emumet.ProjectorRows

/-! Runs of the account projector alone: events become visible and polls are made, in any order. The
projected rows follow the streams, provided a single update of a row is correct; for streams without
deactivations and without suspensions that expire, a single update is. -/

namespace Emumet

namespace Convergence

open AccountProjector

/-! ### The machine -/

/-- The database and the environment of the last poll. -/
structure State where
  db : Db
  last : Option PollEnv

abbrev Action := Projection.Action (SeqEvent AccountEvent) PollEnv

def step (tz : Timestamptz) (s : State) : Action → State
  | .reveal event => { s with db.accountEvents := event :: s.db.accountEvents }
  | .poll env => ⟨(projectBatch tz env s.db).progress.db, some env⟩

/-- Empty tables; auth accounts are not written by events. -/
def start (authAccounts : List AuthAccountId) : State := ⟨{ Db.empty with authAccounts }, none⟩

/-- No write of the poll fails. -/
def NoWriteFails (tz : Timestamptz) (s : State) (env : PollEnv) : Prop :=
  (projectBatch tz env s.db).progress.rolledBack = []

instance (tz : Timestamptz) (s : State) (env : PollEnv) : Decidable (NoWriteFails tz s env) :=
  inferInstanceAs (Decidable (_ = _))

/-- The events of one account in version order. -/
def streamOf (log : List (SeqEvent AccountEvent)) (id : AccountId) :
    List (EventEnvelope AccountEvent) :=
  (Projection.stream SeqEvent.id SeqEvent.version log id).map SeqEvent.envelope

/-- No event is above the stored position. -/
def Drained (db : Db) : Prop := ∀ event ∈ db.accountEvents, event.seq ≤ db.position .account

instance (db : Db) : Decidable (Drained db) := inferInstanceAs (Decidable (∀ _ ∈ _, _))

/-! ### Rows follow streams -/

variable {tz : Timestamptz} {whole : List (SeqEvent AccountEvent)} {slack : Int} {s : State}
  {represents : PollEnv → Option AccountRow → List (SeqEvent AccountEvent) → Prop}
  {admits : List (SeqEvent AccountEvent) → Prop}
  {guard : PollEnv → AccountId → Option AccountRow → List (SeqEvent AccountEvent) → Prop}
  {follows : PollEnv → PollEnv → Prop}

/-- The rows track the streams, with respect to the last poll if there was one. -/
def Follows (represents : PollEnv → Option AccountRow → List (SeqEvent AccountEvent) → Prop)
    (whole : List (SeqEvent AccountEvent)) (slack : Int) (s : State) : Prop :=
  ∀ last, (∀ env, s.last = some env → last = env) →
    Projection.Tracks SeqEvent.id SeqEvent.seq SeqEvent.version represents whole slack
      (projection s.db last)

theorem follows_start (authAccounts : List AuthAccountId) (hnone : ∀ env, represents env none []) :
    Follows represents whole slack (start authAccounts) :=
  fun last _ => Projection.Tracks.start fun _ => hnone last

theorem Follows.tracks (h : Follows represents whole slack s) (default : PollEnv) :
    Projection.Tracks SeqEvent.id SeqEvent.seq SeqEvent.version represents whole slack
      (projection s.db (s.last.getD default)) := by
  refine h _ fun env henv => ?_
  rw [henv, Option.getD_some]

theorem Follows.reveal (h : Follows represents whole slack s)
    (hwhole : Projection.Ordered SeqEvent.id SeqEvent.seq SeqEvent.version whole)
    (hpositive : ∀ event ∈ whole, 0 < event.seq) {event : SeqEvent AccountEvent}
    (hmem : event ∈ whole) (hhidden : event ∉ s.db.accountEvents)
    (hprevious : ∀ other ∈ whole, other.id = event.id → other.version < event.version →
      other ∈ s.db.accountEvents)
    (hinTime : s.db.position .account - slack < event.seq) :
    Follows represents whole slack (step tz s (.reveal event)) :=
  fun last hlast =>
    (h last hlast).reveal hwhole hpositive ⟨hmem, hhidden, hprevious, hinTime⟩

/-- The log is appended to in sequence order: what is visible is what comes before the event. -/
def NextInOrder (whole : List (SeqEvent AccountEvent)) (s : State) (event : SeqEvent AccountEvent) :
    Prop :=
  event ∈ whole ∧ ∀ other ∈ whole, other ∈ s.db.accountEvents ↔ other.seq < event.seq

instance (whole : List (SeqEvent AccountEvent)) (s : State) (event : SeqEvent AccountEvent) :
    Decidable (NextInOrder whole s event) :=
  inferInstanceAs (Decidable (_ ∧ _))

/-- Events are appended in sequence order and no write of a poll fails. -/
def InOrder (tz : Timestamptz) (whole : List (SeqEvent AccountEvent)) (s : State) : Action → Prop
  | .reveal event => NextInOrder whole s event
  | .poll env => NoWriteFails tz s env

instance (tz : Timestamptz) (whole : List (SeqEvent AccountEvent)) (s : State) (action : Action) :
    Decidable (InOrder tz whole s action) :=
  match action with
  | .reveal _ => inferInstanceAs (Decidable (NextInOrder _ _ _))
  | .poll _ => inferInstanceAs (Decidable (NoWriteFails _ _ _))

theorem Follows.append (h : Follows represents whole 0 s)
    (hwhole : Projection.Ordered SeqEvent.id SeqEvent.seq SeqEvent.version whole)
    (hpositive : ∀ event ∈ whole, 0 < event.seq) {event : SeqEvent AccountEvent}
    (hnext : NextInOrder whole s event) : Follows represents whole 0 (step tz s (.reveal event)) := by
  exact fun last hlast => (h last hlast).append hwhole hpositive hnext.1 hnext.2

theorem Follows.poll (h : Follows represents whole Projector.window s)
    (hcorrect : Projection.Correct SeqEvent.id SeqEvent.version (update tz) represents admits guard
      follows)
    (hadmits : ∀ id, admits (Projection.stream SeqEvent.id SeqEvent.version whole id))
    (hclosed : ∀ {front back}, admits (front ++ back) → admits front) {env : PollEnv}
    (hok : NoWriteFails tz s env) (hself : follows env env)
    (hfollows : ∀ before, s.last = some before → follows before env)
    (hguard : ∀ id, unread s.db id ≠ [] → guard env id (s.db.accounts.get id) (unread s.db id)) :
    Follows represents whole 0 (step tz s (.poll env)) := by
  intro last hlast
  rw [hlast env rfl]
  have htracks := h.tracks env
  have hafter : follows (s.last.getD env) env := by
    cases hlastPoll : s.last with
    | none => exact hself
    | some before => exact hfollows before hlastPoll
  have hpolled := projection_projectBatch (s.last.getD env) hok
  simp only [step]
  rw [hpolled]
  refine htracks.poll hcorrect (by decide) (by decide) (fun id => ?_) hclosed hafter ?_
  · obtain ⟨rest, hrest⟩ := htracks.visible id
    exact hclosed (hrest ▸ hadmits id)
  · exact hguard

/-- With everything read, the rows stand for the streams. -/
theorem Follows.drained (h : Follows represents whole 0 s) (default : PollEnv)
    (hdrained : Drained s.db) (id : AccountId) :
    represents (s.last.getD default) (s.db.accounts.get id)
      (Projection.stream SeqEvent.id SeqEvent.version s.db.accountEvents id) :=
  (h.tracks default).drained hdrained id

/-! ### Rows that encode folded accounts -/

variable {clock now : OffsetDateTime} {events applied overlap new : List (SeqEvent AccountEvent)}
  {account : Account} {kind : AccountEvent → Prop}
  {encodes : PollEnv → Account → AccountRow → Prop}

/-- A stream of events of one kind that folds without error. -/
def Admits (kind : AccountEvent → Prop) (clock : OffsetDateTime)
    (events : List (SeqEvent AccountEvent)) : Prop :=
  (∀ event ∈ events, kind event.envelope.event) ∧
    ∃ entity, Account.fold clock (events.map SeqEvent.envelope) = .ok entity

theorem Admits.front (h : Admits kind clock (applied ++ new)) : Admits kind clock applied := by
  obtain ⟨hkind, entity, hentity⟩ := h
  rw [List.map_append] at hentity
  obtain ⟨middle, hmiddle, _⟩ := foldEvents_split hentity
  exact ⟨fun event hevent => hkind event (List.mem_append_left _ hevent), middle, hmiddle⟩

theorem admits_stream (hkind : ∀ event ∈ whole, kind event.envelope.event)
    (hfolds : ∀ id, ∃ entity, Account.fold clock (streamOf whole id) = .ok entity) (id : AccountId) :
    Admits kind clock (Projection.stream SeqEvent.id SeqEvent.version whole id) :=
  ⟨fun event hevent => hkind event (Projection.mem_stream.mp hevent).1, hfolds id⟩

/-- The row encodes the account the events fold to, if they fold to one. -/
def Represents (encodes : PollEnv → Account → AccountRow → Prop) (clock : OffsetDateTime)
    (env : PollEnv) (row : Option AccountRow) (events : List (SeqEvent AccountEvent)) : Prop :=
  ∃ entity, Account.fold clock (events.map SeqEvent.envelope) = .ok entity ∧
    Option.Rel (encodes env) entity row

/-- The obligations on an encoding: `fresh` for an account without a row, `step` for newer events on
a row. -/
structure Encoding (tz : Timestamptz) (clock : OffsetDateTime) (kind : AccountEvent → Prop)
    (encodes : PollEnv → Account → AccountRow → Prop)
    (guard : PollEnv → AccountId → Option AccountRow → List (SeqEvent AccountEvent) → Prop)
    (follows : PollEnv → PollEnv → Prop) : Prop where
  version : ∀ {env account row}, encodes env account row → row.version = account.version
  keep : ∀ {before env account row}, encodes before account row → follows before env →
    encodes env account row
  fresh : ∀ {env events account}, Admits kind clock events →
    Account.fold clock (events.map SeqEvent.envelope) = .ok (some account) →
    ∃ refolded, Account.fold env.now (events.map SeqEvent.envelope) = .ok (some refolded) ∧
      encodes env account (.ofAccount tz refolded)
  step : ∀ {before env id account row applied overlap new last}, encodes before account row →
    follows before env → overlap <:+ applied → new ≠ [] → Admits kind clock (applied ++ new) →
    guard env id (some row) (overlap ++ new) →
    Account.fold clock (applied.map SeqEvent.envelope) = .ok (some account) →
    foldEvents (Account.apply clock) (some account) (new.map SeqEvent.envelope) = .ok (some last) →
    (∀ event ∈ overlap, event.version ≤ row.version) → (∀ event ∈ new, row.version < event.version) →
    ∃ updated, updateRow tz env (some row) (overlap ++ new) = some updated ∧ encodes env last updated

/-- A poll takes the row of a stream to the row of a longer one. -/
theorem Encoding.correct (h : Encoding tz clock kind encodes guard follows) :
    Projection.Correct SeqEvent.id SeqEvent.version (update tz) (Represents encodes clock)
      (Admits kind clock) guard follows := by
  constructor
  · rintro before env row events ⟨entity, hentity, hrow⟩ hfollows
    refine ⟨entity, hentity, ?_⟩
    cases hrow with
    | none => exact .none
    | some hencodes => exact .some (h.keep hencodes hfollows)
  · rintro before env id row applied overlap new ⟨entity, hentity, hrow⟩ hfollows hoverlap hne hsorted
      - hadmits hguard
    obtain ⟨result, hresult⟩ := hadmits.2
    refine ⟨result, hresult, ?_⟩
    have hsplit := hresult
    rw [List.map_append] at hsplit
    obtain ⟨middle, hmiddle, hrest⟩ := foldEvents_split hsplit
    obtain rfl : entity = middle := Except.ok.inj (hentity.symm.trans hmiddle)
    cases hrow with
    | none =>
        -- Only the empty stream folds to nothing.
        have happlied : applied = [] := by
          by_contra hsome
          obtain ⟨account, hnone, _⟩ := Account.foldEvents_ok hentity (by simpa using hsome)
          cases hnone
        subst happlied
        obtain rfl : overlap = [] := List.suffix_nil.mp hoverlap
        rw [List.nil_append] at hne hresult hadmits ⊢
        obtain ⟨account, rfl, _⟩ := Account.foldEvents_ok hresult (by simpa using hne)
        obtain ⟨refolded, hrefolded, hencodes⟩ := h.fresh hadmits hresult
        rw [show update tz env id none new = _ from updateRow_afresh rfl hne hrefolded rfl]
        exact .some hencodes
    | @some account row hencodes =>
        obtain ⟨holdVersions, hnewVersions⟩ := fold_versions hsorted hentity
        rw [← h.version hencodes] at holdVersions hnewVersions
        have hold : ∀ event ∈ overlap, event.version ≤ row.version := fun event hevent =>
          holdVersions event (hoverlap.subset hevent)
        by_cases hnothing : new = []
        · subst hnothing
          cases hrest
          rw [List.append_nil, show update tz env id (some row) overlap = _ from updateRow_old hold]
          exact .some (h.keep hencodes hfollows)
        · obtain ⟨last, rfl, _⟩ := Account.foldEvents_ok hrest (by simpa using hnothing)
          obtain ⟨updated, hupdated, hlast⟩ := h.step hencodes hfollows hoverlap hnothing hadmits
            hguard hentity hrest hold hnewVersions
          rw [show update tz env id (some row) (overlap ++ new) = _ from hupdated]
          exact .some hlast

/-! ### Streams without deactivations and expiring suspensions -/

def Plain (event : AccountEvent) : Prop :=
  event ≠ .Deactivated ∧ ∀ reason suspendedAt expiresAt,
    event ≠ .Suspended reason suspendedAt (some expiresAt)

/-- The row is that of the folded account, in every column. -/
def IsFold (tz : Timestamptz) (clock : OffsetDateTime) (row : Option AccountRow)
    (events : List (EventEnvelope AccountEvent)) : Prop :=
  ∃ entity, Account.fold clock events = .ok entity ∧ row = entity.map (.ofAccount tz)

/-- A property of the rows that the encoding implies. -/
theorem Represents.imp {env : PollEnv} {row : Option AccountRow} {agrees : Account → AccountRow → Prop}
    (h : Represents encodes clock env row events)
    (himp : ∀ {account row}, encodes env account row → agrees account row) :
    ∃ entity, Account.fold clock (events.map SeqEvent.envelope) = .ok entity ∧
      Option.Rel agrees entity row := by
  obtain ⟨entity, hentity, hrow⟩ := h
  refine ⟨entity, hentity, ?_⟩
  cases hrow with
  | none => exact .none
  | some hencodes => exact .some (himp hencodes)

theorem isFold_of_represents {env : PollEnv} {row : Option AccountRow}
    (h : Represents (fun _ account row => row = .ofAccount tz account) clock env row events) :
    IsFold tz clock row (events.map SeqEvent.envelope) := by
  obtain ⟨entity, hentity, hrow⟩ := h
  refine ⟨entity, hentity, ?_⟩
  cases hrow with
  | none => rfl
  | some heq => exact congrArg some heq

theorem Admits.deletedAt (hkind : ∀ {event}, kind event → event ≠ .Deactivated)
    (h : Admits kind clock events)
    (hfold : Account.fold clock (events.map SeqEvent.envelope) = .ok (some account)) :
    account.deletedAt = none := by
  refine Account.fold_deletedAt hfold fun envelope henvelope => ?_
  obtain ⟨event, hevent, rfl⟩ := List.mem_map.mp henvelope
  exact hkind (h.1 event hevent)

/-- A plain account comes back from its row with the status it had. -/
theorem effective_of_plain (h : Admits Plain clock events)
    (hfold : Account.fold clock (events.map SeqEvent.envelope) = .ok (some account)) :
    account.status.effective tz now = account.status := by
  rcases Account.fold_status hfold with hactive | ⟨envelope, henvelope, hsets⟩
  · rw [hactive]
    rfl
  · obtain ⟨event, hevent, rfl⟩ := List.mem_map.mp henvelope
    have hnoExpiry := (h.1 event hevent).2
    cases hpayload : event.envelope.event <;> rw [hpayload] at hsets <;>
      simp only [AccountEvent.sets] at hsets
    · rename_i reason suspendedAt expiresAt
      cases expiresAt with
      | none => rw [hsets]; rfl
      | some expiresAt => exact absurd hpayload (hnoExpiry reason suspendedAt expiresAt)
    · rw [hsets]
      rfl

/-- Events other than deactivations fold at any clock, from accounts with the same row to accounts
with the same row. -/
theorem foldEvents_same (tz : Timestamptz) (now : OffsetDateTime) {entity other : Option Account}
    (hevents : ∀ event ∈ events, event.envelope.event ≠ .Deactivated)
    (halike : Option.Rel (Account.Alike tz.Same) entity other)
    (hfold : foldEvents (Account.apply clock) entity (events.map SeqEvent.envelope) =
      .ok (some account)) :
    ∃ refolded, foldEvents (Account.apply now) other (events.map SeqEvent.envelope) =
      .ok (some refolded) ∧ AccountRow.ofAccount tz refolded = .ofAccount tz account := by
  obtain ⟨result, hresult, hrelated⟩ := Account.foldEvents_alike tz.same_refl halike
    (fun envelope henvelope hdeactivated => by
      obtain ⟨event, hevent, rfl⟩ := List.mem_map.mp henvelope
      exact absurd hdeactivated (hevents event hevent)) hfold
  cases hrelated with
  | some hsame => exact ⟨_, hresult, (AccountRow.ofAccount_congr hsame).symm⟩

theorem encoding_plain (tz : Timestamptz) (clock : OffsetDateTime) :
    Encoding tz clock Plain (fun _ account row => row = .ofAccount tz account)
      (fun _ _ _ _ => True) (fun _ _ => True) where
  version := by
    rintro env account row rfl
    exact AccountRow.ofAccount_version tz account
  keep := fun h _ => h
  fresh := by
    intro env events account hadmits hfold
    exact foldEvents_same tz env.now (fun event hevent => (hadmits.1 event hevent).1) .none hfold
  step := by
    rintro before env id account row applied overlap new last rfl - hoverlap hne hadmits - hfold hlast
      hold hnew
    have hvisible : (AccountRow.ofAccount tz account).deletedAt = none := by
      rw [AccountRow.ofAccount_deletedAt, hadmits.front.deletedAt And.left hfold]
      rfl
    have hdecoded := AccountRow.toAccount_ofAccount tz env.now account
    rw [effective_of_plain hadmits.front hfold] at hdecoded
    obtain ⟨refolded, hrefolded, hrow⟩ := foldEvents_same tz env.now
      (fun event hevent => (hadmits.1 event (List.mem_append_right _ hevent)).1) (.some hdecoded) hlast
    exact ⟨_, updateRow_visible hvisible hold hnew hne hrefolded, hrow⟩

/-- An event becomes visible after those of its account before it and before the position is 100 above
it; no write of a poll fails. -/
def Allowed (tz : Timestamptz) (whole : List (SeqEvent AccountEvent)) (s : State) : Action → Prop
  | .reveal event => event ∈ whole ∧ event ∉ s.db.accountEvents ∧
      (∀ other ∈ whole, other.id = event.id → other.version < event.version →
        other ∈ s.db.accountEvents) ∧
      s.db.position .account - event.seq < 100
  | .poll env => NoWriteFails tz s env

instance (tz : Timestamptz) (whole : List (SeqEvent AccountEvent)) (s : State) (action : Action) :
    Decidable (Allowed tz whole s action) :=
  match action with
  | .reveal _ => inferInstanceAs (Decidable (_ ∧ _))
  | .poll _ => inferInstanceAs (Decidable (NoWriteFails _ _ _))

theorem follows_plain {authAccounts : List AuthAccountId}
    (hwhole : Projection.Ordered SeqEvent.id SeqEvent.seq SeqEvent.version whole)
    (hpositive : ∀ event ∈ whole, 0 < event.seq)
    (hplain : ∀ event ∈ whole, Plain event.envelope.event)
    (hfolds : ∀ id, ∃ entity, Account.fold clock (streamOf whole id) = .ok entity)
    {actions : List Action}
    (hallowed : Runs.Along (step tz) (Allowed tz whole) (start authAccounts) actions) :
    Follows (Represents (fun _ account row => row = .ofAccount tz account) clock) whole
      Projector.window (Runs.run (step tz) (start authAccounts) actions) := by
  refine hallowed.invariant ?_ (follows_start authAccounts fun _ => ⟨none, rfl, .none⟩)
  intro s action h hstep
  cases action with
  | reveal event =>
      obtain ⟨hmem, hhidden, hprevious, hinTime⟩ := hstep
      refine h.reveal hwhole hpositive hmem hhidden hprevious ?_
      have hwindow : (Projector.window : Int) = 100 := rfl
      rw [hwindow]
      linarith
  | poll env =>
      intro last hlast
      exact (h.poll (encoding_plain tz clock).correct (admits_stream hplain hfolds) Admits.front hstep
        trivial (fun _ _ => trivial) (fun _ _ => trivial) last hlast).mono (Int.natCast_nonneg _)

/-- A poll that finds no event above the position leaves none above it. -/
theorem Follows.drained_poll (h : Follows represents whole slack s) {env : PollEnv}
    (hdrained : Drained s.db) : Drained (step tz s (.poll env)).db := by
  have hsound := (h.tracks env).sound
  obtain ⟨hevents, hlog, _, _⟩ := Aggregate.account.projectBatch_spec tz env s.db
  intro event hevent
  have hbefore : event ∈ s.db.accountEvents := by
    rw [← show _ = s.db.accountEvents from hevents .account]
    exact hevent
  have hmono : s.db.position .account ≤ (step tz s (.poll env)).db.position .account := by
    have hposition : (step tz s (.poll env)).db.position .account =
        (tailingPoll (s.db.log .account)).1.position := congrArg Tailing.Log.position hlog
    rw [hposition]
    exact hsound.position_le_poll (by decide) (by decide)
  exact (hdrained event hbefore).trans hmono

/-- When a poll finds no event above the position, the row of every account is that of the fold of its
visible stream, which is the whole one once all its events are visible. -/
theorem account_projection_converges (tz : Timestamptz) (authAccounts : List AuthAccountId)
    (whole : List (SeqEvent AccountEvent)) (clock : OffsetDateTime)
    (hwhole : Projection.Ordered SeqEvent.id SeqEvent.seq SeqEvent.version whole)
    (hpositive : ∀ event ∈ whole, 0 < event.seq)
    (hplain : ∀ event ∈ whole, Plain event.envelope.event)
    (hfolds : ∀ id, ∃ entity, Account.fold clock (streamOf whole id) = .ok entity)
    (actions : List Action) (env : PollEnv)
    (hallowed : Runs.Along (step tz) (Allowed tz whole) (start authAccounts)
      (actions ++ [.poll env]))
    (hdrained : Drained (Runs.run (step tz) (start authAccounts) actions).db) (id : AccountId) :
    let after := (Runs.run (step tz) (start authAccounts) (actions ++ [.poll env])).db
    IsFold tz clock (after.accounts.get id) (streamOf after.accountEvents id) ∧
      ((∀ event ∈ whole, event.id = id → event ∈ after.accountEvents) →
        IsFold tz clock (after.accounts.get id) (streamOf whole id)) := by
  intro after
  obtain ⟨hbefore, hpoll, _⟩ := Runs.along_append.mp hallowed
  have hfollows := follows_plain hwhole hpositive hplain hfolds hbefore
  have hafter := hfollows.poll (encoding_plain tz clock).correct (admits_stream hplain hfolds)
    Admits.front hpoll trivial (fun _ _ => trivial) (fun _ _ => trivial)
  have hrun : Runs.run (step tz) (start authAccounts) (actions ++ [.poll env]) =
      step tz (Runs.run (step tz) (start authAccounts) actions) (.poll env) :=
    Runs.run_append _ _ _
  have hrow : IsFold tz clock (after.accounts.get id) (streamOf after.accountEvents id) := by
    simp only [after, hrun]
    exact isFold_of_represents (hafter.drained env (hfollows.drained_poll hdrained) id)
  refine ⟨hrow, fun hvisible => ?_⟩
  have htracks := hafter.tracks env
  rw [← hrun] at htracks
  have hstream : Projection.stream SeqEvent.id SeqEvent.version after.accountEvents id =
      Projection.stream SeqEvent.id SeqEvent.version whole id := by
    refine Projection.eq_of_sorted SeqEvent.version (htracks.ordered.stream_version id)
      (hwhole.stream_version id) fun event => ?_
    rw [Projection.mem_stream, Projection.mem_stream]
    constructor
    · rintro ⟨hmem, hid⟩
      exact ⟨htracks.mem_whole hmem, hid⟩
    · rintro ⟨hmem, hid⟩
      exact ⟨hvisible event hmem hid, hid⟩
  rw [streamOf, ← hstream]
  exact hrow

def suspendedAlice : List (SeqEvent AccountEvent) :=
  [⟨1, ⟨7, .Created "alice" false "alice-nanoid" 3, 20⟩⟩,
    ⟨2, ⟨8, .Created "bob" true "bob-nanoid" 4, 21⟩⟩, ⟨3, ⟨7, .Suspended "spam" 1500 none, 22⟩⟩]

/-- Bob's event is visible and read before alice's first one. -/
def suspendedAliceRun : List Action :=
  [.reveal ⟨2, ⟨8, .Created "bob" true "bob-nanoid" 4, 21⟩⟩, .poll (Coverage.plainEnv 10),
    .reveal ⟨1, ⟨7, .Created "alice" false "alice-nanoid" 3, 20⟩⟩, .poll (Coverage.plainEnv 11),
    .reveal ⟨3, ⟨7, .Suspended "spam" 1500 none, 22⟩⟩, .poll (Coverage.plainEnv 12)]

theorem account_projection_converges_suspendedAlice :
    let after := (Runs.run (step .microseconds) (start [3, 4])
      (suspendedAliceRun ++ [.poll (Coverage.plainEnv 13)])).db
    IsFold .microseconds 0 (after.accounts.get 7) (streamOf suspendedAlice 7) := by
  refine (account_projection_converges .microseconds [3, 4] suspendedAlice 0
    ⟨by decide, by decide⟩ (by decide) ?_ ?_ suspendedAliceRun (Coverage.plainEnv 13)
    (by decide +kernel) (by decide +kernel) 7).2 (by decide +kernel)
  · simp [Plain, suspendedAlice]
  · intro id
    by_cases halice : id = 7
    · subst halice
      exact ⟨_, rfl⟩
    · by_cases hbob : id = 8
      · subst hbob
        exact ⟨_, rfl⟩
      · refine ⟨none, ?_⟩
        have hnone : streamOf suspendedAlice id = [] := by
          simp [streamOf, Projection.stream, suspendedAlice, SeqEvent.id, Ne.symm halice,
            Ne.symm hbob]
        rw [hnone]
        rfl

end Convergence

end Emumet

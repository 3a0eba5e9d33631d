import Emumet.ProjectorAccount
import Emumet.ProjectorProfile

/-! What the polls read. Handling a batch touches neither the event tables nor the stored positions, so
with respect to one log a poll of its projector is a poll of the tailing reader, and the other
projectors and the rest of the program leave it alone. -/

namespace Emumet

/-- The event table of an aggregate. -/
def Db.events (db : Db) : (kind : Aggregate) → List (SeqEvent kind.Event)
  | .account => db.accountEvents
  | .profile => db.profileEvents
  | .metadata => db.metadataEvents

/-- The stored position of a projector, 0 when there is none. -/
def Db.position (db : Db) (kind : Aggregate) : Int := (db.checkpoints kind).getD 0

/-- An event table with the position of its projector. -/
def Db.log (db : Db) (kind : Aggregate) : Tailing.Log (SeqEvent kind.Event) :=
  ⟨db.events kind, db.checkpoints kind⟩

/-- The events the next poll of a projector reads. -/
def Db.batch (db : Db) (kind : Aggregate) : List (SeqEvent kind.Event) :=
  Projector.findBySeqWindow (db.events kind) (db.position kind - Projector.window)
    Projector.batchLimit

/-- One poll of the projector of an aggregate. -/
def Aggregate.projectBatch (tz : Timestamptz) (env : PollEnv) : Aggregate → Db → PollResult
  | .account => AccountProjector.projectBatch tz env
  | .profile => ProfileProjector.projectBatch env
  | .metadata => MetadataProjector.projectBatch env

/-! ### Frame -/

/-- Nothing but read-model tables differs. -/
structure Db.SameLogs (before after : Db) : Prop where
  events : ∀ kind, after.events kind = before.events kind
  checkpoints : after.checkpoints = before.checkpoints

theorem Db.SameLogs.refl (db : Db) : db.SameLogs db := ⟨fun _ => rfl, rfl⟩

theorem Db.SameLogs.trans {a b c : Db} (hab : a.SameLogs b) (hbc : b.SameLogs c) : a.SameLogs c :=
  ⟨fun kind => (hbc.events kind).trans (hab.events kind), hbc.checkpoints.trans hab.checkpoints⟩

/-- Replacing read-model tables. -/
theorem Db.SameLogs.of_tables {before after : Db} (haccount : after.accountEvents = before.accountEvents)
    (hprofile : after.profileEvents = before.profileEvents)
    (hmetadata : after.metadataEvents = before.metadataEvents)
    (hcheckpoints : after.checkpoints = before.checkpoints) : before.SameLogs after := by
  refine ⟨fun kind => ?_, hcheckpoints⟩
  cases kind
  · exact haccount
  · exact hprofile
  · exact hmetadata

theorem sameLogs_projectAccount {tz : Timestamptz} {env : PollEnv} {db after : Db} {id : Int}
    {events : List (SeqEvent AccountEvent)} {owner : Option (AccountId × AuthAccountId)}
    (h : AccountProjector.project tz env db id events = .written after owner) :
    db.SameLogs after := by
  rcases AccountProjector.project_cases tz env db id events with
    ⟨_, heq⟩ | ⟨account, _, _, ⟨result, hwrite, heq⟩ | heq⟩
  · rw [heq] at h
    cases h
  · rw [heq] at h
    cases h
    obtain ⟨upserted, _, _, _, _, hupsert, rfl⟩ := AccountProjector.write_ok hwrite
    simp only [AccountProjectionWriter.upsert, uniqueViolation, reject] at hupsert
    split_ifs at hupsert <;> cases hupsert <;> exact .of_tables rfl rfl rfl rfl
  · rw [heq] at h
    cases h

theorem sameLogs_projectProfile {env : PollEnv} {db after : Db} {id : Int}
    {events : List (SeqEvent ProfileEvent)} {owner : Option (AccountId × AuthAccountId)}
    (h : ProfileProjector.project env db id events = .written after owner) : db.SameLogs after := by
  obtain ⟨entity, _, _, hwrite⟩ := ProfileProjector.project_written h
  cases entity with
  | none =>
      cases hwrite
      exact .of_tables rfl rfl rfl rfl
  | some profile =>
      simp only [ProfileProjector.write, ProfileProjectionWriter.upsert, uniqueViolation,
        foreignKeyViolation, reject] at hwrite
      split_ifs at hwrite <;> cases hwrite <;> exact .of_tables rfl rfl rfl rfl

theorem sameLogs_projectMetadata {env : PollEnv} {db after : Db} {id : Int}
    {events : List (SeqEvent MetadataEvent)} {owner : Option (AccountId × AuthAccountId)}
    (h : MetadataProjector.project env db id events = .written after owner) : db.SameLogs after := by
  obtain ⟨entity, hwrite⟩ := MetadataProjector.project_written h
  cases entity with
  | none =>
      cases hwrite
      exact .of_tables rfl rfl rfl rfl
  | some metadata =>
      simp only [MetadataProjector.write, MetadataProjectionWriter.upsert, uniqueViolation,
        foreignKeyViolation, reject] at hwrite
      split_ifs at hwrite <;> cases hwrite <;> exact .of_tables rfl rfl rfl rfl

/-! ### A poll is a poll of the tailing reader -/

/-- The handling of one group by the projector of an aggregate. -/
def Aggregate.project (tz : Timestamptz) (env : PollEnv) :
    (kind : Aggregate) → Db → Int → List (SeqEvent kind.Event) → GroupResult
  | .account => AccountProjector.project tz env
  | .profile => ProfileProjector.project env
  | .metadata => MetadataProjector.project env

theorem Aggregate.projectBatch_eq (tz : Timestamptz) (env : PollEnv) (kind : Aggregate) (db : Db) :
    kind.projectBatch tz env db =
      Projector.pollBatch kind (db.events kind) env (kind.project tz env) db := by
  cases kind <;> rfl

theorem Aggregate.sameLogs_project {tz : Timestamptz} {env : PollEnv} {kind : Aggregate}
    {db after : Db} {id : Int} {events : List (SeqEvent kind.Event)}
    {owner : Option (AccountId × AuthAccountId)}
    (h : kind.project tz env db id events = .written after owner) : db.SameLogs after := by
  cases kind with
  | account => exact sameLogs_projectAccount h
  | profile => exact sameLogs_projectProfile h
  | metadata => exact sameLogs_projectMetadata h

namespace Projector

variable {Event : Type} {project : Db → Int → List (SeqEvent Event) → GroupResult}
  {events : List (SeqEvent Event)}

/-- What relates the database before and after every group of some ids relates it before and after all
of them. -/
theorem foldl_related_of_mem {R : Db → Db → Prop} (hrefl : ∀ db, R db db)
    (htrans : ∀ {a b c}, R a b → R b c → R a c) {ids : List Int}
    (hproject : ∀ {db id after owner}, id ∈ ids →
      project db id (groupOf events id) = .written after owner → R db after)
    (progress : Progress) : R progress.db (ids.foldl (handle project events) progress).db := by
  induction ids generalizing progress with
  | nil => exact hrefl _
  | cons id ids ih =>
      refine htrans ?_ (ih (fun hmem => hproject (List.mem_cons_of_mem _ hmem))
        (handle project events progress id))
      unfold handle
      split
      · exact hrefl _
      · next hwritten => exact hproject List.mem_cons_self hwritten
      · exact hrefl _

/-- What relates the database before and after every group that is written relates the database before
and after all of them. -/
theorem foldl_related {R : Db → Db → Prop} (hrefl : ∀ db, R db db)
    (htrans : ∀ {a b c}, R a b → R b c → R a c)
    (hproject : ∀ {db id after owner},
      project db id (groupOf events id) = .written after owner → R db after)
    (ids : List Int) (progress : Progress) :
    R progress.db (ids.foldl (handle project events) progress).db :=
  foldl_related_of_mem hrefl htrans (fun _ => hproject) progress

end Projector

/-- The tailing reader's margin and limit are those of the projectors. -/
abbrev tailingPoll {Event : Type} (log : Tailing.Log (SeqEvent Event)) :
    Tailing.Log (SeqEvent Event) × Int :=
  log.poll SeqEvent.seq Projector.window Projector.batchLimit

theorem Db.batch_eq (db : Db) (kind : Aggregate) :
    db.batch kind = (db.log kind).batch SeqEvent.seq Projector.window Projector.batchLimit := rfl

theorem Aggregate.projectBatch_of_nil {tz : Timestamptz} {env : PollEnv} {kind : Aggregate} {db : Db}
    (h : db.batch kind = []) :
    kind.projectBatch tz env db = ⟨⟨db, [], []⟩, db.position kind⟩ := by
  rw [kind.projectBatch_eq]
  exact if_pos (List.isEmpty_iff.mpr h)

/-- The groups of a batch handled in the order of the hash map. -/
def Aggregate.progress (tz : Timestamptz) (env : PollEnv) (kind : Aggregate) (db : Db) : Progress :=
  (env.order ((db.batch kind).map SeqEvent.id).dedup).foldl
    (Projector.handle (kind.project tz env) (db.batch kind)) ⟨db, [], []⟩

theorem Aggregate.projectBatch_of_ne_nil {tz : Timestamptz} {env : PollEnv} {kind : Aggregate}
    {db : Db} (h : db.batch kind ≠ []) :
    kind.projectBatch tz env db =
      ⟨{ kind.progress tz env db with
          db := Projector.storePosition (kind.progress tz env db).db kind
            (Tailing.lastSeq SeqEvent.seq (db.batch kind) (db.position kind)) },
        Tailing.lastSeq SeqEvent.seq (db.batch kind) (db.position kind)⟩ := by
  rw [kind.projectBatch_eq]
  exact if_neg (mt List.isEmpty_iff.mp h)

theorem Aggregate.sameLogs_progress (tz : Timestamptz) (env : PollEnv) (kind : Aggregate) (db : Db) :
    db.SameLogs (kind.progress tz env db).db := by
  have hproject : ∀ {before id group after owner},
      kind.project tz env before id group = .written after owner → before.SameLogs after :=
    fun h => Aggregate.sameLogs_project h
  exact Projector.foldl_related (R := Db.SameLogs) .refl .trans hproject _ ⟨db, [], []⟩

theorem Projector.events_storePosition (db : Db) (kind other : Aggregate) (seq : Int) :
    (storePosition db kind seq).events other = db.events other := by
  cases other <;> rfl

theorem tailingPoll_of_nil {kind : Aggregate} {db : Db} (h : db.batch kind = []) :
    tailingPoll (db.log kind) = (db.log kind, db.position kind) :=
  if_pos (List.isEmpty_iff.mpr h)

theorem tailingPoll_of_ne_nil {kind : Aggregate} {db : Db} (h : db.batch kind ≠ []) :
    tailingPoll (db.log kind) =
      (⟨db.events kind, some (Tailing.Log.advance (db.checkpoints kind)
          (Tailing.lastSeq SeqEvent.seq (db.batch kind) (db.position kind)))⟩,
        Tailing.lastSeq SeqEvent.seq (db.batch kind) (db.position kind)) :=
  if_neg (mt List.isEmpty_iff.mp h)

/-- A poll changes no event table and no other projector's position, and moves its own as the tailing
reader does. -/
theorem Aggregate.projectBatch_spec (tz : Timestamptz) (env : PollEnv) (kind : Aggregate) (db : Db) :
    (∀ other, (kind.projectBatch tz env db).progress.db.events other = db.events other) ∧
      (kind.projectBatch tz env db).progress.db.log kind = (tailingPoll (db.log kind)).1 ∧
      (∀ other, other ≠ kind →
        (kind.projectBatch tz env db).progress.db.checkpoints other = db.checkpoints other) ∧
      (kind.projectBatch tz env db).position = (tailingPoll (db.log kind)).2 := by
  by_cases hempty : db.batch kind = []
  · rw [Aggregate.projectBatch_of_nil hempty, tailingPoll_of_nil hempty]
    exact ⟨fun _ => rfl, rfl, fun _ _ => rfl, rfl⟩
  · have hsame := kind.sameLogs_progress tz env db
    rw [Aggregate.projectBatch_of_ne_nil hempty, tailingPoll_of_ne_nil hempty]
    refine ⟨fun other => ?_, ?_, fun other hother => ?_, rfl⟩
    · rw [Projector.events_storePosition]
      exact hsame.events other
    · simp only [Db.log, Projector.events_storePosition, hsame.events kind]
      simp only [Projector.storePosition, Function.update_self, hsame.checkpoints]
    · simp only [Projector.storePosition, Function.update_of_ne hother]
      exact congrFun hsame.checkpoints other

/-! ### Runs -/

namespace Coverage

/-- A committed event becomes visible, a projector polls, a poll is rolled back as a whole, or another
part of the program writes to read-model tables. -/
inductive Action where
  | commit (kind : Aggregate) (event : SeqEvent kind.Event)
  | poll (kind : Aggregate) (env : PollEnv)
  | failedPoll (kind : Aggregate)
  | write (tables : Db)

def append (db : Db) : (kind : Aggregate) → SeqEvent kind.Event → Db
  | .account, event => { db with accountEvents := event :: db.accountEvents }
  | .profile, event => { db with profileEvents := event :: db.profileEvents }
  | .metadata, event => { db with metadataEvents := event :: db.metadataEvents }

def step (tz : Timestamptz) (db : Db) : Action → Db
  | .commit kind event => append db kind event
  | .poll kind env => (kind.projectBatch tz env db).progress.db
  | .failedPoll _ => db
  | .write tables =>
      { tables with
        accountEvents := db.accountEvents, profileEvents := db.profileEvents
        metadataEvents := db.metadataEvents, checkpoints := db.checkpoints }

/-- Sequence numbers are positive and none is given twice in a table. -/
def Allowed (db : Db) : Action → Prop
  | .commit kind event => 0 < event.seq ∧ ∀ other ∈ db.events kind, other.seq ≠ event.seq
  | _ => True

/-- Some poll of the run reads the event. -/
def ReadDuring (tz : Timestamptz) (kind : Aggregate) (event : SeqEvent kind.Event) :
    Db → List Action → Prop
  | _, [] => False
  | db, action :: rest =>
      ((∃ env, action = .poll kind env) ∧ event ∈ db.batch kind) ∨
        ReadDuring tz kind event (step tz db action) rest

variable {tz : Timestamptz}

theorem log_append_self (db : Db) (kind : Aggregate) (event : SeqEvent kind.Event) :
    (append db kind event).log kind = { db.log kind with rows := event :: db.events kind } := by
  cases kind <;> rfl

theorem log_append_of_ne (db : Db) {kind other : Aggregate} (event : SeqEvent kind.Event)
    (h : other ≠ kind) : (append db kind event).log other = db.log other := by
  cases kind <;> cases other <;> first | rfl | exact absurd rfl h

/-- With respect to one log a step appends an event to it, polls it, or leaves it alone. -/
theorem log_step (tz : Timestamptz) (db : Db) (action : Action) (kind : Aggregate) :
    (∃ event, action = .commit kind event ∧
        (step tz db action).log kind = { db.log kind with rows := event :: db.events kind }) ∨
      ((∃ env, action = .poll kind env) ∧
        (step tz db action).log kind = (tailingPoll (db.log kind)).1) ∨
      (step tz db action).log kind = db.log kind := by
  cases action with
  | commit other event =>
      by_cases hkind : kind = other
      · subst hkind
        exact Or.inl ⟨event, rfl, log_append_self db kind event⟩
      · exact Or.inr (Or.inr (log_append_of_ne db event hkind))
  | poll other env =>
      obtain ⟨hevents, hlog, hothers, _⟩ := other.projectBatch_spec tz env db
      by_cases hkind : kind = other
      · subst hkind
        exact Or.inr (Or.inl ⟨⟨env, rfl⟩, hlog⟩)
      · refine Or.inr (Or.inr ?_)
        simp only [step, Db.log, hevents kind, hothers kind hkind]
  | failedPoll other => exact Or.inr (Or.inr rfl)
  | write tables => exact Or.inr (Or.inr (by cases kind <;> rfl))

/-- Every log keeps distinct positive sequence numbers and a position that one of its rows has. -/
def Sound (db : Db) : Prop := ∀ kind, (db.log kind).Sound SeqEvent.seq

theorem sound_empty : Sound Db.empty := by
  intro kind
  refine ⟨?_, ?_, ?_⟩ <;> cases kind <;> simp [Db.log, Db.events, Db.empty, Tailing.Distinct]

theorem sound_step (db : Db) (action : Action) (h : Sound db) (hallowed : Allowed db action) :
    Sound (step tz db action) := by
  intro kind
  rcases log_step tz db action kind with ⟨event, rfl, hlog⟩ | ⟨_, hlog⟩ | hlog
  · rw [hlog]
    exact (h kind).reveal hallowed.1 hallowed.2
  · rw [hlog]
    exact (h kind).poll
  · rw [hlog]
    exact h kind

theorem position_step {db : Db} (h : Sound db) (action : Action) (kind : Aggregate) :
    db.position kind ≤ (step tz db action).position kind := by
  have hposition : ∀ db : Db, db.position kind = (db.log kind).position := fun _ => rfl
  rw [hposition, hposition]
  rcases log_step tz db action kind with ⟨event, _, hlog⟩ | ⟨_, hlog⟩ | hlog
  · rw [hlog]
    exact le_refl _
  · rw [hlog]
    exact (h kind).position_le_poll (by decide) (by decide)
  · rw [hlog]

theorem position_run {db : Db} (h : Sound db) {actions : List Action}
    (hallowed : Runs.Along (step tz) Allowed db actions) (kind : Aggregate) :
    db.position kind ≤ (Runs.run (step tz) db actions).position kind := by
  induction actions generalizing db with
  | nil => exact le_refl _
  | cons action rest ih =>
      exact (position_step h action kind).trans
        (ih (sound_step db action h hallowed.1) hallowed.2)

/-- An event out of the margin stays out of it. -/
theorem not_readDuring {db : Db} (h : Sound db) {kind : Aggregate} {event : SeqEvent kind.Event}
    (hlate : event.seq ≤ db.position kind - Projector.window) {actions : List Action}
    (hallowed : Runs.Along (step tz) Allowed db actions) : ¬ReadDuring tz kind event db actions := by
  induction actions generalizing db with
  | nil => exact id
  | cons action rest ih =>
      rintro (⟨_, hread⟩ | hrest)
      · have := (Tailing.mem_of_mem_window SeqEvent.seq hread).2
        omega
      · have hmono : db.position kind ≤ (step tz db action).position kind :=
          position_step h action kind
        exact ih (sound_step db action h hallowed.1) (by omega) hallowed.2 hrest

theorem mem_events_step {db : Db} {kind : Aggregate} {event : SeqEvent kind.Event}
    (hevent : event ∈ db.events kind) (action : Action) :
    event ∈ (step tz db action).events kind := by
  have hrows : ∀ db : Db, db.events kind = (db.log kind).rows := fun _ => rfl
  rw [hrows]
  rcases log_step tz db action kind with ⟨new, _, hlog⟩ | ⟨_, hlog⟩ | hlog
  · rw [hlog]
    exact List.mem_cons_of_mem _ hevent
  · rw [hlog]
    by_cases hempty : db.batch kind = []
    · rwa [tailingPoll_of_nil hempty]
    · rwa [tailingPoll_of_ne_nil hempty]
  · rwa [hlog]

/-- An event within the margin is read, or is within the margin still. -/
theorem readDuring_or_within {db : Db} (h : Sound db) {kind : Aggregate}
    {event : SeqEvent kind.Event} (hevent : event ∈ db.events kind)
    (hwithin : db.position kind - Projector.window < event.seq) {actions : List Action}
    (hallowed : Runs.Along (step tz) Allowed db actions) :
    ReadDuring tz kind event db actions ∨
      (Runs.run (step tz) db actions).position kind - Projector.window < event.seq := by
  induction actions generalizing db with
  | nil => exact Or.inr hwithin
  | cons action rest ih =>
      have hnext : (∃ env, action = .poll kind env) ∧ event ∈ db.batch kind ∨
          (step tz db action).position kind - Projector.window < event.seq := by
        have hposition : ∀ db : Db, db.position kind = (db.log kind).position := fun _ => rfl
        rw [hposition] at hwithin ⊢
        rcases log_step tz db action kind with ⟨_, _, hlog⟩ | ⟨hpoll, hlog⟩ | hlog
        · rw [hlog]
          exact Or.inr hwithin
        · have hcovered : event ∈ db.batch kind ∨
              (db.batch kind).length = Projector.batchLimit ∧
                (tailingPoll (db.log kind)).1.position < event.seq :=
            (h kind).covered (by decide) (by decide) hevent hwithin
          rcases hcovered with hread | ⟨_, hbelow⟩
          · exact Or.inl ⟨hpoll, hread⟩
          · rw [hlog]
            right
            omega
        · rw [hlog]
          exact Or.inr hwithin
      rcases hnext with hread | hstill
      · exact Or.inl (Or.inl hread)
      · exact (ih (sound_step db action h hallowed.1) (mem_events_step hevent action) hstill
          hallowed.2).imp_left Or.inr

/-- In every state of every run, for each projector: the stored position never decreases and is what
a poll returns; an event within the margin is read by the next poll or the batch is full and ends
below it, and it stays within the margin until some poll reads it; an event out of the margin is read
by no later poll; a full batch moves the position by 900 or more. -/
theorem tailing_read_covers_exactly (tz : Timestamptz) (actions : List Action)
    (hallowed : Runs.Along (step tz) Allowed Db.empty actions) (kind : Aggregate) (env : PollEnv) :
    let db := Runs.run (step tz) Db.empty actions
    let polled := kind.projectBatch tz env db
    (∀ more, Runs.Along (step tz) Allowed db more →
        db.position kind ≤ (Runs.run (step tz) db more).position kind) ∧
      polled.position = polled.progress.db.position kind ∧
      (∀ event ∈ db.events kind, db.position kind - 100 < event.seq →
        event ∈ db.batch kind ∨
          ((db.batch kind).length = 1000 ∧ polled.progress.db.position kind < event.seq)) ∧
      (∀ event ∈ db.events kind, db.position kind - 100 < event.seq →
        ∀ more, Runs.Along (step tz) Allowed db more →
          ReadDuring tz kind event db more ∨
            (Runs.run (step tz) db more).position kind - 100 < event.seq) ∧
      (∀ event : SeqEvent kind.Event, event.seq ≤ db.position kind - 100 →
        ∀ more, Runs.Along (step tz) Allowed db more → ¬ReadDuring tz kind event db more) ∧
      ((db.batch kind).length = 1000 →
        db.position kind + 900 ≤ polled.progress.db.position kind) := by
  intro db polled
  have hsound : Sound db := hallowed.invariant sound_step sound_empty
  obtain ⟨_, hlog, _, hreturned⟩ := kind.projectBatch_spec tz env db
  have hposition : polled.progress.db.position kind = (tailingPoll (db.log kind)).1.position :=
    congrArg Tailing.Log.position hlog
  refine ⟨fun more hmore => position_run hsound hmore kind, ?_, ?_, ?_, ?_, ?_⟩
  · rw [hposition]
    exact hreturned.trans ((hsound kind).poll_returns (by decide) (by decide))
  · intro event hevent hwithin
    rw [hposition]
    exact (hsound kind).covered (by decide) (by decide) hevent hwithin
  · intro event hevent hwithin more hmore
    exact readDuring_or_within hsound hevent hwithin hmore
  · intro event hlate more hmore
    exact not_readDuring hsound hlate hmore
  · intro hfull
    have hadvance : db.position kind + ((Projector.batchLimit : Int) - Projector.window) ≤
        (tailingPoll (db.log kind)).1.position :=
      (hsound kind).full_advance (by decide) (by decide) hfull
    rw [hposition]
    exact hadvance

/-- A poll in which no write fails and groups come in the order of the batch. -/
def plainEnv (now : OffsetDateTime) : PollEnv := ⟨now, id, fun _ => .refl _, fun _ => false⟩

/-- Two events, of which the second becomes visible first. -/
def invertedCommits : List Action :=
  [.commit .account ⟨2, ⟨8, .Created "bob" false "bob-nanoid" 4, 21⟩⟩, .poll .account (plainEnv 0),
    .commit .account ⟨1, ⟨7, .Created "alice" false "alice-nanoid" 3, 20⟩⟩]

theorem tailing_read_covers_invertedCommits :
    let db := Runs.run (step .microseconds) Db.empty invertedCommits
    Runs.Along (step .microseconds) Allowed Db.empty invertedCommits ∧
      (Aggregate.account.projectBatch .microseconds (plainEnv 1) db).position =
        (Aggregate.account.projectBatch .microseconds (plainEnv 1) db).progress.db.position
          .account := by
  have hallowed : Runs.Along (step .microseconds) Allowed Db.empty invertedCommits := by
    refine ⟨⟨by decide, by simp [Db.events, Db.empty]⟩, trivial, ⟨by decide, ?_⟩, trivial⟩
    decide
  exact ⟨hallowed, (tailing_read_covers_exactly .microseconds invertedCommits hallowed .account
    (plainEnv 1)).2.1⟩

end Coverage

end Emumet

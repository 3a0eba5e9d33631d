import Emumet.ProjectorDependentRows

/-! Logs that are appended to in order: sequence numbers increase with every append, the events of one
aggregate come in version order and its stream folds without error. The polls of the three projectors
leave such logs as they are. -/

namespace Emumet

/-- The events of one aggregate in version order. -/
def Db.stream (db : Db) (kind : Aggregate) (id : Int) : List (SeqEvent kind.Event) :=
  Projector.groupOf (db.events kind) id

/-- A stream folds without error, and a `Deleted` event is its last one. -/
def Aggregate.Stream : (kind : Aggregate) → List (SeqEvent kind.Event) → Prop
  | .account, events => ∃ entity, Account.fold 0 (events.map SeqEvent.envelope) = .ok entity
  | .profile, events => profiles.Stream events
  | .metadata, events => metadatas.Stream events

theorem Aggregate.stream_nil (kind : Aggregate) : kind.Stream [] := by
  cases kind with
  | account => exact ⟨none, rfl⟩
  | profile => exact ⟨⟨none, rfl⟩, .nil⟩
  | metadata => exact ⟨⟨none, rfl⟩, .nil⟩

namespace Appends

/-- The next event of a log. -/
structure Next (kind : Aggregate) (log : List (SeqEvent kind.Event)) (event : SeqEvent kind.Event) :
    Prop where
  positive : 0 < event.seq
  seq : ∀ other ∈ log, other.seq < event.seq
  version : ∀ other ∈ log, other.id = event.id → other.version < event.version
  stream : kind.Stream (Projector.groupOf (event :: log) event.id)

/-- Events are appended in order, polls may be rolled back, and nothing else writes to the tables. -/
def Allowed (db : Db) : Coverage.Action → Prop
  | .commit kind event => Next kind (db.events kind) event
  | .poll _ _ => True
  | .failedPoll _ => True
  | .write _ => False

/-- No read model, no event and no position; what else is stored is arbitrary. -/
structure Fresh (db : Db) : Prop where
  events : ∀ kind, db.events kind = []
  checkpoints : ∀ kind, db.checkpoints kind = none
  accounts : db.accounts.rows = []
  profiles : db.profiles.rows = []
  metadatas : db.metadatas.rows = []

/-- What holds of the logs of every state. -/
structure Logs (db : Db) : Prop where
  sound : Coverage.Sound db
  ordered : ∀ kind, Projection.Ordered SeqEvent.id SeqEvent.seq SeqEvent.version (db.events kind)
  streams : ∀ (kind : Aggregate) id, kind.Stream (db.stream kind id)

variable {tz : Timestamptz} {db : Db}

theorem Fresh.logs (h : Fresh db) : Logs db := by
  refine ⟨fun kind => ⟨?_, ?_, ?_⟩, fun kind => ?_, fun kind id => ?_⟩
  · simp [Db.log, h.events kind, Tailing.Distinct]
  · simp [Db.log, h.events kind]
  · simp [Db.log, h.checkpoints kind]
  · rw [h.events kind]
    exact ⟨List.nodup_nil, by simp⟩
  · rw [Db.stream, h.events kind]
    exact kind.stream_nil

theorem allowed_coverage {action : Coverage.Action} (h : Allowed db action) :
    Coverage.Allowed db action := by
  cases action with
  | commit kind event => exact ⟨h.positive, fun other hother => (h.seq other hother).ne⟩
  | poll kind env => trivial
  | failedPoll kind => trivial
  | write tables => trivial

theorem Next.ordered {kind : Aggregate} {log : List (SeqEvent kind.Event)}
    {event : SeqEvent kind.Event} (h : Next kind log event)
    (hlog : Projection.Ordered SeqEvent.id SeqEvent.seq SeqEvent.version log) :
    Projection.Ordered SeqEvent.id SeqEvent.seq SeqEvent.version (event :: log) := by
  refine ⟨?_, ?_⟩
  · rw [Tailing.Distinct, List.map_cons, List.nodup_cons]
    refine ⟨fun hmem => ?_, hlog.distinct⟩
    obtain ⟨other, hother, heq⟩ := List.mem_map.mp hmem
    exact (h.seq other hother).ne heq
  · intro a ha b hb hid hlt
    rcases List.mem_cons.mp ha with rfl | halog
    · rcases List.mem_cons.mp hb with rfl | hblog
      · exact absurd hlt (lt_irrefl _)
      · exact absurd (h.seq b hblog) hlt.asymm
    · rcases List.mem_cons.mp hb with rfl | hblog
      · exact h.version a halog hid
      · exact hlog.agree a halog b hblog hid hlt

/-- A step appends one event in order or leaves the log of the aggregate alone. -/
theorem events_step (tz : Timestamptz) (action : Coverage.Action) (h : Allowed db action) (kind : Aggregate) :
    (∃ event, Next kind (db.events kind) event ∧
        (Coverage.step tz db action).events kind = event :: db.events kind) ∨
      (Coverage.step tz db action).events kind = db.events kind := by
  cases action with
  | commit other event =>
      by_cases hkind : kind = other
      · subst hkind
        exact .inl ⟨event, h, congrArg Tailing.Log.rows (Coverage.log_append_self db kind event)⟩
      · exact .inr (congrArg Tailing.Log.rows (Coverage.log_append_of_ne db event hkind))
  | poll other env => exact .inr ((other.projectBatch_spec tz env db).1 kind)
  | failedPoll other => exact .inr rfl
  | write tables => exact h.elim

theorem Logs.step (h : Logs db) {action : Coverage.Action} (hallowed : Allowed db action) :
    Logs (Coverage.step tz db action) := by
  refine ⟨Coverage.sound_step db action h.sound (allowed_coverage hallowed), fun kind => ?_,
    fun kind id => ?_⟩
  · rcases events_step tz action hallowed kind with ⟨event, hnext, hevents⟩ | hevents
    · rw [hevents]
      exact hnext.ordered (h.ordered kind)
    · rw [hevents]
      exact h.ordered kind
  · rw [Db.stream]
    rcases events_step tz action hallowed kind with ⟨event, hnext, hevents⟩ | hevents
    · rw [hevents]
      by_cases hid : event.id = id
      · rw [← hid]
        exact hnext.stream
      · rw [Projector.groupOf, Projection.stream_cons_of_ne hid]
        exact h.streams kind id
    · rw [hevents]
      exact h.streams kind id

/-! ### What a poll does -/

variable {kind : Aggregate} {env : PollEnv}

/-- What relates the database before and after every group that is written, and before and after the
position is stored, relates it before and after the poll. -/
theorem projectBatch_related {R : Db → Db → Prop} (hrefl : ∀ db, R db db)
    (htrans : ∀ {a b c}, R a b → R b c → R a c)
    (hproject : ∀ {before id after link}, kind.project tz env before id
      (Projector.groupOf (db.batch kind) id) = .written after link → R before after)
    (hstore : ∀ before seq, R before (Projector.storePosition before kind seq)) :
    R db (kind.projectBatch tz env db).progress.db := by
  by_cases hempty : db.batch kind = []
  · rw [Aggregate.projectBatch_of_nil hempty]
    exact hrefl db
  · rw [Aggregate.projectBatch_of_ne_nil hempty]
    have hgroups : R db (kind.progress tz env db).db :=
      Projector.foldl_related hrefl htrans hproject _ ⟨db, [], []⟩
    exact htrans hgroups (hstore _ _)

/-- A poll reads a part of every stream. -/
theorem Logs.group_sublist (h : Logs db) (kind : Aggregate) (id : Int) :
    (Projector.groupOf (db.batch kind) id).Sublist (db.stream kind id) := by
  by_cases hempty : db.batch kind = []
  · rw [hempty]
    exact List.nil_sublist _
  · have hgroup : Projector.groupOf (db.batch kind) id = _ :=
      Projection.stream_window (h.ordered kind) Projector.batchLimit 0 hempty
    rw [hgroup]
    exact List.filter_sublist

/-- The events of a stream that a poll reads are those between two sequence numbers. -/
theorem Logs.mem_group_of_le (h : Logs db) {id : Int} {event : SeqEvent kind.Event}
    (hevent : event ∈ db.stream kind id) (hlow : db.position kind - Projector.window < event.seq)
    (hread : event.seq ≤ db.position kind) : event ∈ Projector.groupOf (db.batch kind) id := by
  obtain ⟨hmem, hid⟩ := Projector.mem_groupOf.mp hevent
  refine Projector.mem_groupOf.mpr ⟨?_, hid⟩
  refine Tailing.mem_window_of_le SeqEvent.seq (h.ordered kind).distinct hmem hlow ?_
  simp only [Projector.window, Projector.batchLimit]
  omega

/-- What a poll reads is not above the position it stores. -/
theorem le_position_poll (h : Logs db) (tz : Timestamptz) (env : PollEnv) {event : SeqEvent kind.Event}
    (hread : event ∈ db.batch kind) :
    event.seq ≤ (Coverage.step tz db (.poll kind env)).position kind := by
  have hne : db.batch kind ≠ [] := List.ne_nil_of_mem hread
  have hposition : (Coverage.step tz db (.poll kind env)).position kind =
      (tailingPoll (db.log kind)).1.position :=
    congrArg Tailing.Log.position (kind.projectBatch_spec tz env db).2.1
  rw [hposition, (h.sound kind).position_poll (by decide) (by decide) hne]
  exact Tailing.le_lastSeq SeqEvent.seq
    (Tailing.window_sorted SeqEvent.seq (h.sound kind).distinct _ _) _ hread

end Appends

end Emumet

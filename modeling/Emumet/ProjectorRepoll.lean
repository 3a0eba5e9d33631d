import Emumet.ProjectorResurrection

/-! Polling again. A poll that read its log to the end is followed by one that reads a part of the same
events; what it finds was settled by the first, so it writes nothing. Here the groups of the two polls
are related, and the profile and metadata projectors are shown to come to rest. -/

namespace Emumet

namespace Projector

variable {Event : Type} {project : Db → Int → List (SeqEvent Event) → GroupResult}
  {events : List (SeqEvent Event)}

/-- A group that was rolled back stays in the list. -/
theorem rolledBack_foldl (ids : List Int) {progress : Progress} {id : Int}
    (h : id ∈ progress.rolledBack) : id ∈ (ids.foldl (handle project events) progress).rolledBack := by
  induction ids generalizing progress with
  | nil => exact h
  | cons first ids ih =>
      refine ih ?_
      unfold handle
      split
      · exact h
      · exact h
      · exact List.mem_cons_of_mem _ h

theorem handle_cases (project : Db → Int → List (SeqEvent Event) → GroupResult)
    (events : List (SeqEvent Event)) (progress : Progress) (id : Int) :
    (project progress.db id (groupOf events id) = .skipped ∧
        (handle project events progress id).db = progress.db) ∨
      (∃ after link, project progress.db id (groupOf events id) = .written after link ∧
        (handle project events progress id).db = after) ∨
      (project progress.db id (groupOf events id) = .rolledBack ∧
        (handle project events progress id).db = progress.db ∧
        id ∈ (handle project events progress id).rolledBack) := by
  unfold handle
  split
  · next hskipped => exact .inl ⟨hskipped, rfl⟩
  · next hwritten => exact .inr (.inl ⟨_, _, hwritten, rfl⟩)
  · next hrolledBack => exact .inr (.inr ⟨hrolledBack, rfl, List.mem_cons_self⟩)

end Projector

namespace Appends

variable {tz : Timestamptz} {env : PollEnv} {kind : Aggregate} {db : Db} {id : Int}

/-- Every group that a poll reads is handled once, between the groups of other ids. -/
theorem poll_handles {R : Db → Db → Prop} (hrefl : ∀ db, R db db)
    (htrans : ∀ {a b c}, R a b → R b c → R a c)
    (hothers : ∀ {before other after link}, other ≠ id → kind.project tz env before other
      (Projector.groupOf (db.batch kind) other) = .written after link → R before after)
    (hstore : ∀ before seq, R before (Projector.storePosition before kind seq))
    (hread : Projector.groupOf (db.batch kind) id ≠ []) :
    ∃ before, R db before ∧
      ((kind.project tz env before id (Projector.groupOf (db.batch kind) id) = .skipped ∧
          R before (kind.projectBatch tz env db).progress.db) ∨
        (∃ after link, kind.project tz env before id (Projector.groupOf (db.batch kind) id) =
            .written after link ∧ R after (kind.projectBatch tz env db).progress.db) ∨
        (kind.project tz env before id (Projector.groupOf (db.batch kind) id) = .rolledBack ∧
          R before (kind.projectBatch tz env db).progress.db ∧
          id ∈ (kind.projectBatch tz env db).progress.rolledBack)) := by
  have hempty : db.batch kind ≠ [] := by
    intro hnil
    rw [hnil] at hread
    exact hread rfl
  rw [Aggregate.projectBatch_of_ne_nil hempty]
  have hmem : id ∈ env.order ((db.batch kind).map SeqEvent.id).dedup := by
    obtain ⟨event, hevent⟩ := List.exists_mem_of_ne_nil _ hread
    obtain ⟨hbatch, hid⟩ := Projector.mem_groupOf.mp hevent
    rw [(env.order_perm _).mem_iff, List.mem_dedup, List.mem_map]
    exact ⟨event, hbatch, hid⟩
  have hnodup : (env.order ((db.batch kind).map SeqEvent.id).dedup).Nodup :=
    (env.order_perm _).nodup_iff.mpr (List.nodup_dedup _)
  -- the ids before this one, the id itself and those after it
  obtain ⟨front, back, hids⟩ := List.append_of_mem hmem
  rw [hids] at hnodup
  obtain ⟨_, hback, hapart⟩ := List.nodup_append.mp hnodup
  have hfrontNe : ∀ {other}, other ∈ front → other ≠ id := fun hother =>
    hapart _ hother id List.mem_cons_self
  have hbackNe : ∀ {other}, other ∈ back → other ≠ id := by
    rintro other hother rfl
    exact (List.nodup_cons.mp hback).1 hother
  simp only [Aggregate.progress, hids, List.foldl_append, List.foldl_cons]
  have hbefore := Projector.foldl_related_of_mem hrefl htrans
    (fun hother => hothers (hfrontNe hother)) (⟨db, [], []⟩ : Progress)
  have hafter := htrans (Projector.foldl_related_of_mem hrefl htrans
    (fun hother => hothers (hbackNe hother))
    (Projector.handle (kind.project tz env) (db.batch kind)
      (front.foldl (Projector.handle (kind.project tz env) (db.batch kind)) ⟨db, [], []⟩) id))
    (hstore _ (Tailing.lastSeq SeqEvent.seq (db.batch kind) (db.position kind)))
  refine ⟨_, hbefore, ?_⟩
  rcases Projector.handle_cases (kind.project tz env) (db.batch kind)
      (front.foldl (Projector.handle (kind.project tz env) (db.batch kind)) ⟨db, [], []⟩) id with
    ⟨hskipped, hdb⟩ | ⟨after, link, hwritten, hdb⟩ | ⟨hrolledBack, hdb, hlisted⟩
  · rw [hdb] at hafter
    exact .inl ⟨hskipped, hafter⟩
  · rw [hdb] at hafter
    exact .inr (.inl ⟨after, link, hwritten, hafter⟩)
  · rw [hdb] at hafter
    exact .inr (.inr ⟨hrolledBack, hafter, Projector.rolledBack_foldl back hlisted⟩)

/-- Without an event of an id a poll handles only other ids. -/
theorem poll_unread {R : Db → Db → Prop} (hrefl : ∀ db, R db db)
    (htrans : ∀ {a b c}, R a b → R b c → R a c)
    (hothers : ∀ {before other after link}, other ≠ id → kind.project tz env before other
      (Projector.groupOf (db.batch kind) other) = .written after link → R before after)
    (hstore : ∀ before seq, R before (Projector.storePosition before kind seq))
    (hunread : Projector.groupOf (db.batch kind) id = []) :
    R db (kind.projectBatch tz env db).progress.db := by
  by_cases hempty : db.batch kind = []
  · rw [Aggregate.projectBatch_of_nil hempty]
    exact hrefl db
  · rw [Aggregate.projectBatch_of_ne_nil hempty]
    refine htrans ?_ (hstore _ _)
    refine Projector.foldl_related_of_mem hrefl htrans
      (fun {before other after link} hother hwritten => hothers (fun hsame => ?_) hwritten)
      (⟨db, [], []⟩ : Progress)
    rw [(env.order_perm _).mem_iff, List.mem_dedup, List.mem_map] at hother
    obtain ⟨event, hevent, hid⟩ := hother
    have hmem := Projector.mem_groupOf.mpr ⟨hevent, hid.trans hsame⟩
    rw [hunread] at hmem
    cases hmem

/-- In a poll without a failed write every group that is read is skipped or written. -/
theorem poll_writes {R : Db → Db → Prop} (hrefl : ∀ db, R db db)
    (htrans : ∀ {a b c}, R a b → R b c → R a c)
    (hothers : ∀ {before other after link}, other ≠ id → kind.project tz env before other
      (Projector.groupOf (db.batch kind) other) = .written after link → R before after)
    (hstore : ∀ before seq, R before (Projector.storePosition before kind seq))
    (hread : Projector.groupOf (db.batch kind) id ≠ [])
    (hok : (kind.projectBatch tz env db).progress.rolledBack = []) :
    ∃ before, R db before ∧
      ((kind.project tz env before id (Projector.groupOf (db.batch kind) id) = .skipped ∧
          R before (kind.projectBatch tz env db).progress.db) ∨
        ∃ after link, kind.project tz env before id (Projector.groupOf (db.batch kind) id) =
            .written after link ∧ R after (kind.projectBatch tz env db).progress.db) := by
  obtain ⟨before, hbefore, hskipped | hwritten | ⟨_, _, hlisted⟩⟩ :=
    poll_handles hrefl htrans hothers hstore hread
  · exact ⟨before, hbefore, .inl hskipped⟩
  · exact ⟨before, hbefore, .inr hwritten⟩
  · rw [hok] at hlisted
    cases hlisted

/-- A poll that leaves the database as it is whenever it writes a group, over a log that was read to its
end, returns the position it starts from. -/
theorem poll_at_rest (h : Logs db) (hend : ∀ event ∈ db.events kind, event.seq ≤ db.position kind)
    (hproject : ∀ {id after link}, kind.project tz env db id
      (Projector.groupOf (db.batch kind) id) = .written after link → after = db) :
    (kind.projectBatch tz env db).progress.db = db ∧
      (kind.projectBatch tz env db).position = db.position kind := by
  by_cases hempty : db.batch kind = []
  · rw [Aggregate.projectBatch_of_nil hempty]
    exact ⟨rfl, rfl⟩
  · have hlast : Tailing.lastSeq SeqEvent.seq (db.batch kind) (db.position kind) =
        db.position kind := by
      obtain ⟨event, hevent, hseq⟩ := Tailing.exists_lastSeq SeqEvent.seq hempty (db.position kind)
      have hle := hend event (Tailing.mem_of_mem_window SeqEvent.seq hevent).1
      have hge : db.position kind ≤
          Tailing.lastSeq SeqEvent.seq (db.batch kind) (db.position kind) :=
        (h.sound kind).position_le_lastSeq (by decide) (by decide) hempty
      rw [hseq] at hge ⊢
      exact le_antisymm hle hge
    have hstored : db.checkpoints kind = some (db.position kind) := by
      cases hcheckpoint : db.checkpoints kind with
      | some seq => rw [Db.position, hcheckpoint, Option.getD_some]
      | none =>
          obtain ⟨event, hevent⟩ := List.exists_mem_of_ne_nil _ hempty
          have hmem := (Tailing.mem_of_mem_window SeqEvent.seq hevent).1
          have hle := hend event hmem
          have hpositive : 0 < event.seq := (h.sound kind).positive event hmem
          rw [Db.position, hcheckpoint, Option.getD_none] at hle
          exact absurd hpositive (not_lt.mpr hle)
    have hgroups : (kind.progress tz env db).db = db :=
      Projector.foldl_related (R := fun a b => a = db → b = db) (fun _ h => h)
        (fun hab hbc h => hbc (hab h)) (fun {before id after link} hwritten hbefore => by
          rw [hbefore] at hwritten
          exact hproject hwritten) _ ⟨db, [], []⟩ rfl
    rw [Aggregate.projectBatch_of_ne_nil hempty, hlast]
    refine ⟨?_, rfl⟩
    simp only [hgroups, Projector.storePosition, hstored]
    have hsame : Tailing.Log.advance (some (db.position kind)) (db.position kind) =
        db.position kind := max_self _
    rw [hsame, ← hstored, Function.update_eq_self]

/-! ### What two polls in a row read -/

/-- A poll that reads to the end of the log reads the end of every stream. -/
theorem Logs.group_eq (h : Logs db)
    (hend : ∀ event ∈ db.events kind, event.seq ≤ (kind.projectBatch tz env db).position) (id : Int) :
    Projector.groupOf (db.batch kind) id =
      (db.stream kind id).filter fun event => db.position kind - Projector.window < event.seq := by
  by_cases hempty : db.batch kind = []
  · rw [Aggregate.projectBatch_of_nil hempty] at hend
    refine Eq.symm ?_
    rw [hempty]
    refine List.filter_eq_nil_iff.mpr fun event hevent hwithin => ?_
    have hread := h.mem_group_of_le hevent (by simpa using hwithin)
      (hend event (Projector.mem_groupOf.mp hevent).1)
    rw [hempty] at hread
    cases hread
  · rw [Aggregate.projectBatch_of_ne_nil hempty] at hend
    have hgroup : Projector.groupOf (db.batch kind) id = _ :=
      Projection.stream_window (h.ordered kind) Projector.batchLimit (db.position kind) hempty
    rw [hgroup]
    refine List.filter_congr fun event hevent => ?_
    have hle := hend event (Projector.mem_groupOf.mp hevent).1
    exact (congrArg _ (decide_eq_true hle)).trans (Bool.and_true _)

/-- What a poll returns is what it stores. -/
theorem Logs.position_eq (h : Logs db) (tz : Timestamptz) (env : PollEnv) (kind : Aggregate) :
    (kind.projectBatch tz env db).position =
      (kind.projectBatch tz env db).progress.db.position kind := by
  obtain ⟨_, hlog, _, hreturned⟩ := kind.projectBatch_spec tz env db
  have hstored : (kind.projectBatch tz env db).progress.db.position kind =
      (tailingPoll (db.log kind)).1.position := congrArg Tailing.Log.position hlog
  rw [hstored]
  exact hreturned.trans ((h.sound kind).poll_returns (by decide) (by decide))

/-- Of every stream the second of two polls reads an end of what the first reads. -/
theorem Logs.group_suffix (h : Logs db)
    (hend : ∀ event ∈ db.events kind, event.seq ≤ (kind.projectBatch tz env db).position) (id : Int) :
    Projector.groupOf (db.batch kind) id <:+ db.stream kind id ∧
      Projector.groupOf ((kind.projectBatch tz env db).progress.db.batch kind) id <:+
        Projector.groupOf (db.batch kind) id := by
  have hseq := (h.ordered kind).stream_seq id
  have hafter : Logs (kind.projectBatch tz env db).progress.db :=
    (h.step trivial : Logs (Coverage.step tz db (.poll kind env)))
  have hevents := (kind.projectBatch_spec tz env db).1 kind
  have hstream : (kind.projectBatch tz env db).progress.db.stream kind id = db.stream kind id :=
    congrArg (Projector.groupOf · id) hevents
  have hmono : db.position kind ≤ (kind.projectBatch tz env db).progress.db.position kind :=
    Coverage.position_step h.sound (.poll kind env) kind
  have hagain : ∀ event ∈ (kind.projectBatch tz env db).progress.db.events kind, event.seq ≤
      (kind.projectBatch tz env (kind.projectBatch tz env db).progress.db).position := by
    intro event hevent
    rw [hevents] at hevent
    have hle := hend event hevent
    rw [h.position_eq] at hle
    rw [hafter.position_eq]
    exact hle.trans (Coverage.position_step hafter.sound (.poll kind env) kind)
  rw [hafter.group_eq hagain, h.group_eq hend, hstream]
  refine ⟨Projection.suffix_filter (hseq.imp fun {a b} hab ha => ?_), ?_⟩
  · simp only [decide_eq_true_eq] at ha ⊢
    omega
  · -- the window moves up with the position
    have hfilter : (db.stream kind id).filter (fun event =>
          (kind.projectBatch tz env db).progress.db.position kind - Projector.window < event.seq) =
        ((db.stream kind id).filter fun event => db.position kind - Projector.window < event.seq).filter
          fun event =>
            (kind.projectBatch tz env db).progress.db.position kind - Projector.window < event.seq := by
      rw [List.filter_filter]
      refine List.filter_congr fun event _ => ?_
      rw [← Bool.decide_and]
      refine decide_eq_decide.mpr ⟨fun hlow => ⟨hlow, ?_⟩, And.left⟩
      omega
    rw [hfilter]
    refine Projection.suffix_filter ((hseq.sublist List.filter_sublist).imp fun {a b} hab ha => ?_)
    simp only [decide_eq_true_eq] at ha ⊢
    omega

end Appends

/-! ### Profiles and fields -/

namespace Dependent

variable {kind : Aggregate} {Row : Type} {d : Dependent kind Row} {tz : Timestamptz}
  {env again : PollEnv} {db after : Db} {k : Int} {group whole : List (SeqEvent kind.Event)}
  {link : Option (AccountId × AuthAccountId)}

variable (d) in
/-- Every row has the version of an event of its stream. -/
def Dated (db : Db) : Prop :=
  ∀ row ∈ (d.table db).rows, ∃ event ∈ db.stream kind (d.id row), d.version row = event.version

/-- Whether the parent is deleted depends on the accounts only. -/
theorem parentDeleted_eq {before : Db} (h : after.accounts = before.accounts) (now now' : OffsetDateTime)
    (createdFor : Option AccountId) :
    parentDeleted after now createdFor = parentDeleted before now' createdFor := by
  cases createdFor with
  | none => rfl
  | some accountId =>
      simp only [parentDeleted, AccountReadModel.findByIdIncludingDeleted, h, Option.any_map]
      rfl

/-- A row that is folded has the version of the last new event. -/
theorem Lawful.entity_version (hd : d.Lawful) {existing : Option Row} {row : Row}
    (hne : d.pending existing group ≠ []) (hentity : d.entity existing group = .ok (some row)) :
    d.version row = ((d.pending existing group).getLast hne).version := by
  have hmap : (d.pending existing group).map SeqEvent.envelope ≠ [] := by simpa using hne
  have hversion := (hd.fold_last hentity hmap).2 row rfl
  rw [hversion, List.getLast_map]
  rfl

/-- No event of a group is newer than the last new one. -/
theorem le_getLast_pending {existing : Option Row}
    (hversions : group.Pairwise fun a b => a.version < b.version)
    (hne : d.pending existing group ≠ []) {event : SeqEvent kind.Event} (hevent : event ∈ group) :
    event.version ≤ ((d.pending existing group).getLast hne).version := by
  by_cases hnew : event ∈ d.pending existing group
  · have hsorted : (d.pending existing group).Pairwise fun a b => a.version < b.version :=
      hversions.sublist List.filter_sublist
    have hle := Tailing.le_lastSeq SeqEvent.version hsorted 0 hnew
    simpa [Tailing.lastSeq, List.getLast?_eq_getLast_of_ne_nil hne] using hle
  · have hlast := (List.mem_filter.mp (List.getLast_mem hne)).2
    cases existing with
    | none =>
        rw [pending_none] at hnew
        exact absurd hevent hnew
    | some old =>
        simp only [pending, List.mem_filter, hevent, true_and, Option.all_some, decide_eq_true_eq,
          not_lt] at hnew
        simp only [Option.all_some, decide_eq_true_eq] at hlast
        exact hnew.trans hlast.le

/-- A group that is written replaces its row by what is folded and touches no other. -/
theorem Lawful.project_written_row (hd : d.Lawful) (hids : ∀ event ∈ group, event.id = k)
    (h : d.project env db k group = .written after link) :
    ∃ entity, d.pending ((d.table db).get k) group ≠ [] ∧
      ((d.table db).get k = none → parentDeleted db env.now (d.owner group) = false) ∧
      d.entity ((d.table db).get k) group = .ok entity ∧ (d.table after).get k = entity ∧
      (∀ other, other ≠ k → (d.table after).get other = (d.table db).get other) ∧
      after.accounts = db.accounts := by
  obtain ⟨entity, hpending, hlive, hentity, hwrite⟩ := project_written h
  refine ⟨entity, hpending, fun hnone => ?_, hentity, ?_⟩
  · have hparent := hlive hnone
    rwa [hnone, pending_none] at hparent
  cases entity with
  | none =>
      obtain rfl : d.store db ((d.table db).erase k) = after := Option.some.inj hwrite
      rw [hd.table_store]
      refine ⟨?_, fun other hother => Table.get_erase_of_ne _ hother, (hd.only_store db _).accounts⟩
      exact Table.get_eq_none_iff.mpr fun row hrow => (Table.mem_erase.mp hrow).2
  | some row =>
      have hid : d.id row = k := hd.entity_id hids hentity
      have hnewer : ((d.table db).get (d.id row)).all (d.version · < d.version row) = true := by
        rw [hid, hd.entity_version hpending hentity]
        have hlast := (List.mem_filter.mp (List.getLast_mem hpending)).2
        exact hlast
      simp only [write, hnewer, if_true] at hwrite
      split_ifs at hwrite
      obtain rfl : d.store db ((d.table db).put row) = after := Option.some.inj hwrite
      rw [hd.table_store]
      refine ⟨?_, fun other hother => Table.get_put_of_ne _ _ (hid ▸ hother),
        (hd.only_store db _).accounts⟩
      rw [← hid]
      exact Table.get_put_self _ row

/-- New events for a row that stands for a beginning of the stream fold onto it. -/
theorem Lawful.entity_ok (hd : d.Lawful) (hstream : d.Stream whole)
    (hversions : whole.Pairwise fun a b => a.version < b.version) (hgroup : group <:+ whole) {row : Row}
    (hdated : ∃ event ∈ whole, d.version row = event.version) :
    ∃ entity, d.entity (some row) group = .ok entity := by
  have hsublist : (d.pending (some row) group).Sublist whole :=
    List.filter_sublist.trans hgroup.sublist
  refine hd.fold_later (List.pairwise_map.mpr (hstream.ends.sublist hsublist)) ?_ row
  intro envelope henvelope
  obtain ⟨event, hevent, rfl⟩ := List.mem_map.mp henvelope
  have hnewer : d.version row < event.version := by simpa using (List.mem_filter.mp hevent).2
  have hmem := hsublist.subset hevent
  cases whole with
  | nil => cases hmem
  | cons first rest =>
      rcases List.mem_cons.mp hmem with rfl | hlater
      · -- the creation is older than every row
        obtain ⟨dated, hin, hversion⟩ := hdated
        rw [hversion] at hnewer
        rcases List.mem_cons.mp hin with rfl | hin
        · exact absurd hnewer (lt_irrefl _)
        · exact absurd ((List.pairwise_cons.mp hversions).1 dated hin) hnewer.asymm
      · exact (hd.stream_cons hstream).2 event hlater

/-- What a group leaves behind: a row that no event of the group is newer than, or none because the
whole stream folds to nothing. -/
theorem Lawful.row_settles (hd : d.Lawful) (hstream : d.Stream whole)
    (hversions : whole.Pairwise fun a b => a.version < b.version) (hgroup : group <:+ whole)
    (hids : ∀ event ∈ group, event.id = k)
    (hdated : ∀ row, (d.table db).get k = some row → ∃ event ∈ whole, d.version row = event.version)
    {settled : Option Row}
    (hresult : (d.project env db k group = .skipped ∧ settled = (d.table db).get k) ∨
      ∃ after link, d.project env db k group = .written after link ∧
        settled = (d.table after).get k) :
    (∀ row, settled = some row → ∀ event ∈ group, event.version ≤ d.version row) ∧
      (settled = none → group = whole → group ≠ [] →
        parentDeleted db env.now (d.owner group) = false →
        foldEvents d.apply none (group.map SeqEvent.envelope) = .ok none) := by
  rcases hresult with ⟨hskipped, rfl⟩ | ⟨after, link, hwritten, rfl⟩
  · rcases d.project_cases env db k group with
      ⟨_, hwhy⟩ | ⟨_, _, _, _, ⟨_, _, hother⟩ | ⟨hother, _⟩⟩
    · refine ⟨fun row hrow event hevent => ?_, fun hnone heq hne hlive => ?_⟩
      · rw [hrow] at hwhy
        rcases hwhy with hpending | ⟨hnone, _⟩ | ⟨report, herror⟩
        · have hold := List.filter_eq_nil_iff.mp hpending event hevent
          simpa using hold
        · cases hnone
        · obtain ⟨entity, hentity⟩ := hd.entity_ok hstream hversions hgroup (hdated row hrow)
          rw [hentity] at herror
          cases herror
      · rw [hnone, pending_none] at hwhy
        rcases hwhy with hpending | ⟨_, hdeleted⟩ | ⟨report, herror⟩
        · exact absurd hpending hne
        · rw [hlive] at hdeleted
          cases hdeleted
        · obtain ⟨entity, hentity⟩ := hstream.folds
          rw [entity_none, heq, hentity] at herror
          cases herror
    · rw [hother] at hskipped
      cases hskipped
    · rw [hother] at hskipped
      cases hskipped
  · obtain ⟨entity, hpending, _, hentity, hrow, _⟩ := hd.project_written_row hids hwritten
    rw [hrow]
    refine ⟨?_, ?_⟩
    · rintro row rfl event hevent
      rw [hd.entity_version hpending hentity]
      exact le_getLast_pending (hversions.sublist hgroup.sublist) hpending hevent
    · rintro rfl heq hne -
      obtain ⟨result, hresult⟩ := hstream.folds
      have hmap : group.map SeqEvent.envelope ≠ [] := by simpa using hne
      have hmapPending : (d.pending ((d.table db).get k) group).map SeqEvent.envelope ≠ [] := by
        simpa using hpending
      have hended := (hd.fold_last hentity hmapPending).1.mp rfl
      rw [List.getLast_map] at hended
      have hlast := getLast_of_pairwise (p := fun event => d.ends event.envelope.event)
        (hstream.ends.sublist hgroup.sublist)
        (List.mem_filter.mp (List.getLast_mem hpending)).1 hended hne
      rw [← heq] at hresult
      have hnone : result = none := by
        refine (hd.fold_last hresult hmap).1.mpr ?_
        rw [List.getLast_map, hlast]
        exact hended
      rw [hresult, hnone]

/-- After a poll that read the log to its end and wrote all it had to, another poll writes nothing. -/
theorem Lawful.repoll (hd : d.Lawful) (hlogs : Appends.Logs db)
    (hstreams : ∀ id, d.Stream (db.stream kind id)) (hdated : d.Dated db)
    (hend : ∀ event ∈ db.events kind, event.seq ≤ (kind.projectBatch tz env db).position)
    (hok : (kind.projectBatch tz env db).progress.rolledBack = [])
    (h : kind.project tz again (kind.projectBatch tz env db).progress.db k (Projector.groupOf
      ((kind.projectBatch tz env db).progress.db.batch kind) k) = .written after link) :
    after = (kind.projectBatch tz env db).progress.db := by
  obtain ⟨hfirst, hsecond⟩ := hlogs.group_suffix hend k
  rw [hd.project_eq] at h
  obtain ⟨entity, hpending, hlive, hentity, hwrite⟩ := project_written h
  have hread : Projector.groupOf (db.batch kind) k ≠ [] := by
    intro hnil
    rw [hnil, List.suffix_nil] at hsecond
    rw [hsecond] at hpending
    exact hpending rfl
  obtain ⟨before, ⟨haccounts, hrow⟩, hresult⟩ := Appends.poll_writes
    (R := fun a b => b.accounts = a.accounts ∧ (d.table b).get k = (d.table a).get k)
    (fun _ => ⟨rfl, rfl⟩) (fun hab hbc => ⟨hbc.1.trans hab.1, hbc.2.trans hab.2⟩)
    (fun {before other after link} hother hwritten => by
      rw [hd.project_eq] at hwritten
      obtain ⟨_, _, _, _, _, hothers, haccounts⟩ :=
        hd.project_written_row (fun event hevent => (Projector.mem_groupOf.mp hevent).2) hwritten
      exact ⟨haccounts, hothers k (Ne.symm hother)⟩)
    (fun before seq => ⟨rfl, by rw [hd.table_storePosition]⟩) hread hok
  rw [hd.project_eq] at hresult
  have hafter : (d.project env before k (Projector.groupOf (db.batch kind) k) = .skipped ∧
        (d.table (kind.projectBatch tz env db).progress.db).get k = (d.table before).get k) ∨
      ∃ after link, d.project env before k (Projector.groupOf (db.batch kind) k) =
          .written after link ∧
        (d.table (kind.projectBatch tz env db).progress.db).get k = (d.table after).get k := by
    rcases hresult with ⟨hskipped, _, hsame⟩ | ⟨after, link, hwritten, _, hsame⟩
    · exact .inl ⟨hskipped, hsame⟩
    · exact .inr ⟨after, link, hwritten, hsame⟩
  obtain ⟨hnewest, hnothing⟩ := hd.row_settles (hstreams k) ((hlogs.ordered kind).stream_version k)
    hfirst (fun event hevent => (Projector.mem_groupOf.mp hevent).2)
    (fun row hget => by
      obtain ⟨hmem, rfl⟩ := Table.get_eq_some_iff.mp (hrow ▸ hget)
      exact hdated row hmem) hafter
  cases hsettled : (d.table (kind.projectBatch tz env db).progress.db).get k with
  | some row =>
      -- the second poll finds nothing new
      refine absurd ?_ hpending
      rw [hsettled]
      refine List.filter_eq_nil_iff.mpr fun event hevent => ?_
      simpa using hnewest row hsettled event (hsecond.subset hevent)
  | none =>
      rw [hsettled, pending_none] at hpending hlive
      rw [hsettled, entity_none] at hentity
      have hwhole := hd.eq_of_folds (hstreams k) (hsecond.trans hfirst) hpending hentity
      have hsame : Projector.groupOf (db.batch kind) k = db.stream kind k := by
        refine hfirst.eq_of_length (le_antisymm hfirst.length_le ?_)
        rw [← hwhole]
        exact hsecond.length_le
      have hparent : parentDeleted before env.now
          (d.owner (Projector.groupOf (db.batch kind) k)) = false := by
        rw [hsame, ← hwhole, ← hlive rfl]
        exact parentDeleted_eq (haccounts.trans (hd.only_projectBatch db).accounts.symm) _ _ _
      have hfold := hnothing hsettled hsame hread hparent
      rw [hwhole, ← hsame, hfold] at hentity
      obtain rfl := Except.ok.inj hentity
      obtain rfl := Option.some.inj hwrite
      rw [place, Table.erase_of_get_eq_none hsettled, hd.store_table]

end Dependent

namespace Resurrection

open Coverage (step)

variable {tz : Timestamptz} {db : Db} {kind : Aggregate} {Row : Type} {d : Dependent kind Row}

/-- Every row goes back to an event of its stream. -/
def Traced (d : Dependent kind Row) (Source : Row → SeqEvent kind.Event → Prop) (db : Db) : Prop :=
  ∀ row ∈ (d.table db).rows, ∃ event ∈ db.stream kind (d.id row), Source row event

/-- Rows go back to events of their streams if every row that is folded goes back to a new event or to
what the row before it goes back to. -/
theorem ReadModel.traced_step (hd : ReadModel d) {Source : Row → SeqEvent kind.Event → Prop}
    (hfolded : ∀ {existing : Option Row} {group : List (SeqEvent kind.Event)} {row : Row},
      d.pending existing group ≠ [] → d.entity existing group = .ok (some row) →
        (∃ event ∈ group, Source row event) ∨
          ∃ old, existing = some old ∧ ∀ event, Source old event → Source row event)
    (hlogs : Appends.Logs db) {action : Coverage.Action} (hallowed : Appends.Allowed db action)
    (hgood : d.Good db) (h : Traced d Source db) : Traced d Source (step tz db action) := by
  have hstreams : ∀ {row}, (∃ event ∈ db.stream kind (d.id row), Source row event) →
      ∃ event ∈ (step tz db action).stream kind (d.id row), Source row event := by
    rintro row ⟨event, hevent, hsource⟩
    obtain ⟨hmem, hid⟩ := Projector.mem_groupOf.mp hevent
    exact ⟨event, Projector.mem_groupOf.mpr ⟨Coverage.mem_events_step hmem action, hid⟩, hsource⟩
  have hkept : (∀ row ∈ (d.table (step tz db action)).rows, row ∈ (d.table db).rows) →
      Traced d Source (step tz db action) := fun hrows row hrow => hstreams (h row (hrows row hrow))
  cases action with
  | commit other event =>
      refine hkept fun row hrow => ?_
      rw [step, hd.append] at hrow
      exact hrow
  | failedPoll other => exact hkept fun _ hrow => hrow
  | write tables => exact hallowed.elim
  | poll other env =>
      by_cases hkind : other = kind
      · subst hkind
        refine fun row hrow => hstreams ?_
        refine Appends.projectBatch_related
          (R := fun a b =>
            (∀ row ∈ (d.table a).rows, ∃ event ∈ db.stream other (d.id row), Source row event) →
              ∀ row ∈ (d.table b).rows, ∃ event ∈ db.stream other (d.id row), Source row event)
          (fun _ h => h) (fun hab hbc h => hbc (hab h)) ?_ ?_ h row hrow
        · intro before id after link hwritten hbefore row hrow
          rw [hd.lawful.project_eq] at hwritten
          obtain ⟨entity, hpending, _, hentity, hwrite⟩ := Dependent.project_written hwritten
          rcases Dependent.write_cases hwrite with rfl | ⟨_, rfl⟩ | ⟨new, rfl, _, rfl⟩
          · exact hbefore row hrow
          · rw [hd.lawful.table_store] at hrow
            exact hbefore row (Table.mem_erase.mp hrow).1
          · rw [hd.lawful.table_store, Table.mem_put] at hrow
            rcases hrow with rfl | ⟨hrow, _⟩
            · have hid : d.id row = id := hd.lawful.entity_id
                (fun event hevent => (Projector.mem_groupOf.mp hevent).2) hentity
              rw [hid]
              rcases hfolded hpending hentity with ⟨event, hevent, hsource⟩ | ⟨old, hget, hsource⟩
              · exact ⟨event, (hlogs.group_sublist other id).subset hevent, hsource⟩
              · obtain ⟨hold, hidOld⟩ := Table.get_eq_some_iff.mp hget
                obtain ⟨event, hevent, hsourceOld⟩ := hbefore old hold
                exact ⟨event, hidOld ▸ hevent, hsource event hsourceOld⟩
            · exact hbefore row hrow
        · intro before seq hbefore
          rw [hd.lawful.table_storePosition]
          exact hbefore
      · by_cases haccount : other = .account
        · subst haccount
          exact hkept (hd.lawful.good_projectAccounts hgood).2
        · have honly := Dependent.only_projectBatch tz env haccount db
          refine hkept fun row hrow => ?_
          rw [step, hd.lawful.table_only hkind honly] at hrow
          exact hrow

theorem ReadModel.dated_step (hd : ReadModel d) (hlogs : Appends.Logs db) {action : Coverage.Action}
    (hallowed : Appends.Allowed db action) (hgood : d.Good db) (h : d.Dated db) :
    d.Dated (step tz db action) := by
  refine hd.traced_step (fun {existing group row} hpending hentity => .inl ?_) hlogs hallowed hgood h
  exact ⟨_, (List.mem_filter.mp (List.getLast_mem hpending)).1,
    hd.lawful.entity_version hpending hentity⟩

end Resurrection

end Emumet

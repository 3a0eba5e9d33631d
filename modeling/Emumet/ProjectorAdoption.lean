import Emumet.ProjectorRepoll

/-! When the stream of a profile or a field has a row. A row needs its account: a poll that reads the
creation of the stream adopts it if the account is there and not marked deleted, and rolls the write back
or skips it otherwise. The cascade of a deactivation takes the row away again, and later polls do not
bring it back unless they read the creation once more. While a stream is adopted its row is the fold of
what was read of it. -/

namespace Emumet

namespace Adoption

variable {tz : Timestamptz} {env : PollEnv} {db : Db} {kind : Aggregate} {Row : Type}
  {d : Dependent kind Row}

/-! ### Accounts -/

/-- The account is there and not marked deleted. -/
def Open (db : Db) (accountId : AccountId) : Prop :=
  ∃ row, db.accounts.get accountId = some row ∧ row.deletedAt = none

/-- The account is there and marked deleted. -/
def Closed (db : Db) (accountId : AccountId) : Prop :=
  ∃ row, db.accounts.get accountId = some row ∧ row.deletedAt ≠ none

theorem Open.not_closed {accountId : AccountId} (h : Open db accountId) : ¬Closed db accountId := by
  rintro ⟨closed, hclosed, hdeleted⟩
  obtain ⟨row, hget, hopen⟩ := h
  rw [hget] at hclosed
  rw [← Option.some.inj hclosed] at hdeleted
  exact hdeleted hopen

theorem Open.parentDeleted {accountId : AccountId} (h : Open db accountId) (now : OffsetDateTime) :
    parentDeleted db now (some accountId) = false := by
  obtain ⟨row, hget, hopen⟩ := h
  simp [Emumet.parentDeleted, AccountReadModel.findByIdIncludingDeleted, hget, AccountRow.toAccount, hopen]

/-- A row is accepted for an account that is there. -/
theorem open_of_accepted {accountId : AccountId} {now : OffsetDateTime}
    (hcontains : db.accounts.contains accountId = true)
    (hundeleted : parentDeleted db now (some accountId) = false) : Open db accountId := by
  obtain ⟨row, hget⟩ := Option.isSome_iff_exists.mp hcontains
  refine ⟨row, hget, ?_⟩
  by_contra hdeleted
  rw [Dependent.parentDeleted_of_deleted hget hdeleted] at hundeleted
  cases hundeleted

/-! ### One group -/

variable {k : Int} {read overlap new whole group : List (SeqEvent kind.Event)} {settled : Option Row}

/-- A `Created` event among these names an account that is there and not marked deleted. -/
def Adopts (d : Dependent kind Row) (db : Db) (events : List (SeqEvent kind.Event)) : Prop :=
  ∃ event ∈ events, ∃ accountId, d.createdFor event.envelope.event = some accountId ∧
    Open db accountId

theorem Adopts.mono (h : Adopts d db group) (hsub : ∀ event ∈ group, event ∈ whole) :
    Adopts d db whole := by
  obtain ⟨event, hevent, hnamed⟩ := h
  exact ⟨event, hsub event hevent, hnamed⟩

/-- A stream has one creation. -/
theorem creation_unique (hd : d.Lawful) (h : d.Stream whole) {first second : SeqEvent kind.Event}
    (hfirst : first ∈ whole) (hsecond : second ∈ whole)
    (ha : (d.created first.envelope.event).isSome = true)
    (hb : (d.created second.envelope.event).isSome = true) : first = second := by
  cases whole with
  | nil => cases hfirst
  | cons event rest =>
      have hhead : ∀ {other : SeqEvent kind.Event}, other ∈ event :: rest →
          (d.created other.envelope.event).isSome = true → other = event := by
        intro other hother hcreated
        refine (List.mem_cons.mp hother).resolve_right fun hrest => ?_
        rw [(hd.stream_cons h).2 other hrest] at hcreated
        cases hcreated
      rw [hhead hfirst ha, hhead hsecond hb]

theorem created_of_createdFor {event : kind.Event} {accountId : AccountId}
    (h : d.createdFor event = some accountId) : (d.created event).isSome = true := by
  rw [Dependent.createdFor, Option.map_eq_some_iff] at h
  obtain ⟨identity, hcreated, _⟩ := h
  rw [hcreated]
  rfl

theorem createdFor_unique (hd : d.Lawful) (h : d.Stream whole) {first second : SeqEvent kind.Event}
    (hfirst : first ∈ whole) (hsecond : second ∈ whole) {a b : AccountId}
    (ha : d.createdFor first.envelope.event = some a)
    (hb : d.createdFor second.envelope.event = some b) : a = b := by
  rw [creation_unique hd h hfirst hsecond (created_of_createdFor ha) (created_of_createdFor hb)] at ha
  exact Option.some.inj (ha.symm.trans hb)

/-- The account a group looks up is not marked deleted if the stream has found its account. -/
theorem Adopts.parentDeleted (hd : d.Lawful) (hwhole : d.Stream whole)
    (hsub : ∀ event ∈ group, event ∈ whole) (h : Adopts d db whole) (now : OffsetDateTime) :
    parentDeleted db now (d.owner group) = false := by
  cases howner : d.owner group with
  | none => rfl
  | some accountId =>
      obtain ⟨created, hcreated, named, hnamed, hopen⟩ := h
      obtain ⟨event, hevent, hfor⟩ := List.exists_of_findSome?_eq_some howner
      rw [createdFor_unique hd hwhole (hsub event hevent) hcreated hfor hnamed]
      exact hopen.parentDeleted now

/-- What the handling of a group leaves in the row of its stream; a write fails only without the
account. -/
def Leaves (d : Dependent kind Row) (env : PollEnv) (db : Db) (k : Int)
    (whole group : List (SeqEvent kind.Event)) (settled : Option Row) : Prop :=
  (d.project env db k group = .skipped ∧ settled = (d.table db).get k) ∨
    (∃ after link, d.project env db k group = .written after link ∧
      settled = (d.table after).get k) ∨
    (d.project env db k group = .rolledBack ∧ settled = (d.table db).get k ∧ ¬Adopts d db whole)

/-- A group with something new that folds is written, if the account is there. -/
theorem Leaves.entity (hd : d.Lawful) (hids : ∀ event ∈ group, event.id = k) (hwhole : d.Stream whole)
    (hsub : ∀ event ∈ group, event ∈ whole) (hparent : Adopts d db whole)
    (hpending : d.pending ((d.table db).get k) group ≠ [])
    {entity : Option Row} (hentity : d.entity ((d.table db).get k) group = .ok entity)
    (h : Leaves d env db k whole group settled) : settled = entity := by
  rcases h with ⟨hskipped, _⟩ | ⟨after, link, hwritten, rfl⟩ | ⟨_, _, horphan⟩
  · rcases d.project_cases env db k group with
      ⟨_, hnothing | ⟨hnone, hdeleted⟩ | ⟨report, herror⟩⟩ |
      ⟨_, _, _, _, ⟨_, _, hother⟩ | ⟨hother, _⟩⟩
    · exact absurd hnothing hpending
    · rw [hnone, Dependent.pending_none, hparent.parentDeleted hd hwhole hsub] at hdeleted
      cases hdeleted
    · rw [hentity] at herror
      cases herror
    · cases hother.symm.trans hskipped
    · cases hother.symm.trans hskipped
  · obtain ⟨other, _, _, hother, hrow, _⟩ := hd.project_written_row hids hwritten
    rw [hrow]
    exact Except.ok.inj (hother.symm.trans hentity)
  · exact absurd hparent horphan

/-- A row takes the new events of its stream. -/
theorem Leaves.onto (hd : d.Lawful) (hids : ∀ event ∈ overlap ++ new, event.id = k)
    (hwhole : d.Stream whole) (hsub : ∀ event ∈ overlap ++ new, event ∈ whole)
    (hparent : Adopts d db whole) (hstream : d.Stream (read ++ new))
    (hversions : (read ++ new).Pairwise fun a b => a.version < b.version) (hoverlap : overlap <:+ read)
    {row : Row} (hget : (d.table db).get k = some row)
    (hfold : foldEvents d.apply none (read.map SeqEvent.envelope) = .ok (some row))
    (h : Leaves d env db k whole (overlap ++ new) settled) :
    foldEvents d.apply none ((read ++ new).map SeqEvent.envelope) = .ok settled := by
  have hread : read ≠ [] := by
    rintro rfl
    cases hfold
  have hversion : d.version row = (read.getLast hread).version := by
    have hmap : read.map SeqEvent.envelope ≠ [] := by simpa using hread
    have hlast := (hd.fold_last hfold hmap).2 row rfl
    rw [hlast, List.getLast_map]
    rfl
  obtain ⟨hsortedRead, _, hbetween⟩ := List.pairwise_append.mp hversions
  have hold : ∀ event ∈ overlap, event.version ≤ d.version row := by
    intro event hevent
    have hle := Tailing.le_lastSeq SeqEvent.version hsortedRead 0 (hoverlap.subset hevent)
    rw [hversion]
    simpa [Tailing.lastSeq, List.getLast?_eq_getLast_of_ne_nil hread] using hle
  have hnewer : ∀ event ∈ new, d.version row < event.version := by
    intro event hevent
    rw [hversion]
    exact hbetween _ (List.getLast_mem hread) event hevent
  have hpending : d.pending (some row) (overlap ++ new) = new := by
    rw [Dependent.pending, List.filter_append, List.filter_eq_nil_iff.mpr, List.nil_append,
      List.filter_eq_self.mpr]
    · intro event hevent
      simpa using hnewer event hevent
    · intro event hevent
      simpa using hold event hevent
  obtain ⟨entity, hentity⟩ := hstream.folds
  have hsplit := hentity
  rw [List.map_append] at hsplit
  obtain ⟨middle, hmiddle, hrest⟩ := foldEvents_split hsplit
  obtain rfl : some row = middle := Except.ok.inj (hfold.symm.trans hmiddle)
  rw [hentity]
  by_cases hnothing : new = []
  · subst hnothing
    obtain rfl : some row = entity := Except.ok.inj hrest
    rcases h with ⟨_, hsettled⟩ | ⟨after, link, hwritten, _⟩ | ⟨_, hsettled, _⟩
    · rw [hsettled, hget]
    · obtain ⟨_, hsome, _⟩ := hd.project_written_row hids hwritten
      rw [hget, hpending] at hsome
      exact absurd rfl hsome
    · rw [hsettled, hget]
  · refine congrArg _ (h.entity hd hids hwhole hsub hparent ?_ ?_).symm
    · rw [hget, hpending]
      exact hnothing
    · rw [hget, Dependent.entity, hpending]
      exact hrest

/-- What is left of the row of a stream: the fold of what was read, from the moment on when a group
with the creation finds the account. -/
theorem Leaves.rebuild (hd : d.Lawful) (hids : ∀ event ∈ overlap ++ new, event.id = k)
    (hwhole : d.Stream whole) (hsub : ∀ event ∈ overlap ++ new, event ∈ whole)
    (hstream : d.Stream (read ++ new))
    (hversions : (read ++ new).Pairwise fun a b => a.version < b.version) (hoverlap : overlap <:+ read)
    (hne : overlap ++ new ≠ []) {Adopted : Prop}
    (hparent : Adopted → Adopts d db whole)
    (hold : Adopted →
      foldEvents d.apply none (read.map SeqEvent.envelope) = .ok ((d.table db).get k))
    (hnone : ¬Adopted → (d.table db).get k = none)
    (h : Leaves d env db k whole (overlap ++ new) settled) :
    (Adopted ∨ Adopts d db (overlap ++ new) →
        foldEvents d.apply none ((read ++ new).map SeqEvent.envelope) = .ok settled) ∧
      (¬(Adopted ∨ Adopts d db (overlap ++ new)) → settled = none) := by
  have hgroup : overlap ++ new <:+ read ++ new := by
    obtain ⟨earlier, rfl⟩ := hoverlap
    exact ⟨earlier, (List.append_assoc _ _ _).symm⟩
  have hparent' : Adopted ∨ Adopts d db (overlap ++ new) → Adopts d db whole :=
    fun h => h.elim hparent fun hadopts => hadopts.mono hsub
  cases hget : (d.table db).get k with
  | some row =>
      have hadopted : Adopted := by
        by_contra hnot
        rw [hnone hnot] at hget
        cases hget
      refine ⟨fun _ => ?_, fun hnot => absurd (.inl hadopted) hnot⟩
      have hfold := hold hadopted
      rw [hget] at hfold
      exact h.onto hd hids hwhole hsub (hparent hadopted) hstream hversions hoverlap hget hfold
  | none =>
      by_cases hall : overlap ++ new = read ++ new
      · -- the stream is read from its creation on
        obtain ⟨entity, hentity⟩ := hstream.folds
        have hfolds : d.entity ((d.table db).get k) (overlap ++ new) = .ok entity := by
          rw [hget, Dependent.entity_none, hall]
          exact hentity
        refine ⟨fun hadopted => ?_, fun hnot => ?_⟩
        · rw [hentity, h.entity hd hids hwhole hsub (hparent' hadopted) ?_ hfolds]
          rw [hget, Dependent.pending_none]
          exact hne
        · rcases h with ⟨_, hsettled⟩ | ⟨after, link, hwritten, hsettled⟩ | ⟨_, hsettled, _⟩
          · rw [hsettled, hget]
          · -- a new row would need its account
            obtain ⟨written, _, hopen, hwrittenEntity, hwrite⟩ := Dependent.project_written hwritten
            rcases Dependent.write_cases hwrite with rfl | ⟨_, rfl⟩ | ⟨row, rfl, haccepts, rfl⟩
            · rw [hsettled, hget]
            · rw [hsettled, hd.table_store, Table.get_eq_none_iff]
              exact fun row hrow => (Table.mem_erase.mp hrow).2
            · have hends := hstream.ends.sublist hgroup.sublist
              rw [hget] at hwrittenEntity
              rcases hd.entity_account hends hwrittenEntity with ⟨_, hsome, _⟩ | ⟨_, howner⟩
              · cases hsome
              · refine absurd (.inr ?_) hnot
                have hundeleted := hopen hget
                rw [hget, howner] at hundeleted
                rw [Dependent.pending_none] at howner
                obtain ⟨event, hevent, hcreated⟩ := List.exists_of_findSome?_eq_some howner
                simp only [Dependent.accepts, Bool.and_eq_true] at haccepts
                exact ⟨event, hevent, _, hcreated, open_of_accepted haccepts.2.1 hundeleted⟩
          · rw [hsettled, hget]
      · have hsettled : settled = none := by
          rcases h with ⟨_, hsettled⟩ | ⟨after, link, hwritten, hsettled⟩ | ⟨_, hsettled, _⟩
          · rw [hsettled, hget]
          · obtain ⟨entity, _, _, hentity, _⟩ := Dependent.project_written hwritten
            rw [hget, Dependent.entity_none] at hentity
            exact absurd (hd.eq_of_folds hstream hgroup hne hentity) hall
          · rw [hsettled, hget]
        refine ⟨?_, fun _ => hsettled⟩
        rintro (hadopted | ⟨event, hevent, accountId, hcreated, _⟩)
        · -- there was a row and it is gone, so the stream has ended
          have hfold := hold hadopted
          rw [hget] at hfold
          have hread : read ≠ [] := by
            rintro rfl
            rw [List.suffix_nil.mp hoverlap] at hall
            exact hall rfl
          have hmap : read.map SeqEvent.envelope ≠ [] := by simpa using hread
          have hended := (hd.fold_last hfold hmap).1.mp rfl
          rw [List.getLast_map] at hended
          have hnew : new = [] := by
            refine List.eq_nil_iff_forall_not_mem.mpr fun event hevent => ?_
            have hopen := (List.pairwise_append.mp hstream.ends).2.2 _ (List.getLast_mem hread) event
              hevent
            rw [hended] at hopen
            cases hopen
          rw [hsettled, hnew, List.append_nil]
          exact hfold
        · exact absurd (hd.eq_of_created hstream hgroup hevent (created_of_createdFor hcreated)) hall

/-! ### One poll -/

/-- What was read of a stream. -/
def readOf (db : Db) (kind : Aggregate) (k : Int) : List (SeqEvent kind.Event) :=
  Projection.read SeqEvent.id SeqEvent.seq SeqEvent.version (db.log kind) k

/-- The writes of a poll fail only for streams whose account is not there. -/
def OnlyOrphans (tz : Timestamptz) (d : Dependent kind Row) (env : PollEnv) (db : Db) : Prop :=
  ∀ k ∈ (kind.projectBatch tz env db).progress.rolledBack, ¬Adopts d db (db.stream kind k)

/-- The row of a stream is the fold of what was read of it once the stream has found its account. -/
structure Rebuilt (d : Dependent kind Row) (db : Db) (k : Int) (Adopted : Prop) : Prop where
  parent : Adopted → Adopts d db (db.stream kind k)
  row : Adopted →
    foldEvents d.apply none ((readOf db kind k).map SeqEvent.envelope) = .ok ((d.table db).get k)
  absent : ¬Adopted → (d.table db).get k = none

/-- The row of a stream that is not read stays. -/
theorem row_of_unread (hd : d.Lawful) (tz : Timestamptz) (env : PollEnv)
    (hunread : Projector.groupOf (db.batch kind) k = []) :
    (d.table (kind.projectBatch tz env db).progress.db).get k = (d.table db).get k := by
  refine Appends.projectBatch_related (R := fun a b => (d.table b).get k = (d.table a).get k)
    (fun _ => rfl) (fun hab hbc => hbc.trans hab) ?_ (fun before seq => by rw [hd.table_storePosition])
  intro before id after link hwritten
  rw [hd.project_eq] at hwritten
  obtain ⟨_, hpending, _, _, _, hothers, _⟩ :=
    hd.project_written_row (fun event hevent => (Projector.mem_groupOf.mp hevent).2) hwritten
  refine hothers k fun hk => ?_
  rw [← hk, hunread] at hpending
  exact hpending rfl

/-- A poll reads the events of a stream that are still in the window, and the next ones. -/
theorem readOf_poll (hlogs : Appends.Logs db) (tz : Timestamptz) (env : PollEnv) (kind : Aggregate)
    (k : Int) : ∃ overlap new, overlap <:+ readOf db kind k ∧
      readOf (kind.projectBatch tz env db).progress.db kind k = readOf db kind k ++ new ∧
      Projector.groupOf (db.batch kind) k = overlap ++ new ∧
      readOf db kind k ++ new <+: db.stream kind k := by
  obtain ⟨hevents, hlog, _, _⟩ := kind.projectBatch_spec tz env db
  obtain ⟨new, hread, hgroup, _⟩ := Projection.read_poll (hlogs.sound kind) (hlogs.ordered kind)
    (by decide : 0 < Projector.window) (by decide : Projector.window ≤ Projector.batchLimit) k
  have hafter : readOf (kind.projectBatch tz env db).progress.db kind k = readOf db kind k ++ new := by
    rw [readOf, hlog]
    exact hread
  have hlogs' : Appends.Logs (kind.projectBatch tz env db).progress.db :=
    (hlogs.step trivial : Appends.Logs (Coverage.step tz db (.poll kind env)))
  refine ⟨_, new, ?_, hafter, hgroup, ?_⟩
  · refine Projection.suffix_filter ?_
    refine (((hlogs.ordered kind).stream_seq k).sublist List.filter_sublist).imp fun {a b} hab ha => ?_
    simp only [decide_eq_true_eq] at ha ⊢
    omega
  · have hordered : Projection.Ordered SeqEvent.id SeqEvent.seq SeqEvent.version
        ((kind.projectBatch tz env db).progress.db.log kind).rows := hlogs'.ordered kind
    have hbegins := Projection.read_append_unread hordered k
    have hstream : Projection.stream SeqEvent.id SeqEvent.version
        ((kind.projectBatch tz env db).progress.db.log kind).rows k = db.stream kind k :=
      congrArg (Projector.groupOf · k) (hevents kind)
    rw [hstream] at hbegins
    rw [← hafter]
    exact ⟨_, hbegins⟩

theorem adopts_congr {after : Db} (h : after.accounts = db.accounts)
    (events : List (SeqEvent kind.Event)) : Adopts d after events ↔ Adopts d db events := by
  simp only [Adopts, Open, h]

theorem Rebuilt.poll (hd : d.Lawful) (hlogs : Appends.Logs db)
    (hstreams : ∀ id, d.Stream (db.stream kind id))
    (horphans : OnlyOrphans tz d env db) {Adopted : Prop} (h : Rebuilt d db k Adopted) :
    Rebuilt d (kind.projectBatch tz env db).progress.db k
      (Adopted ∨ Adopts d db (Projector.groupOf (db.batch kind) k)) := by
  have haccounts : (kind.projectBatch tz env db).progress.db.accounts = db.accounts :=
    (hd.only_projectBatch db).accounts
  have hstream : (kind.projectBatch tz env db).progress.db.stream kind k = db.stream kind k :=
    congrArg (Projector.groupOf · k) ((kind.projectBatch_spec tz env db).1 kind)
  have hgroupMem : ∀ event ∈ Projector.groupOf (db.batch kind) k, event ∈ db.stream kind k :=
    fun event hevent => (hlogs.group_sublist kind k).subset hevent
  have hparent : Adopted ∨ Adopts d db (Projector.groupOf (db.batch kind) k) →
      Adopts d db (db.stream kind k) :=
    fun hadopted => hadopted.elim h.parent fun hadopts => hadopts.mono hgroupMem
  have hsettled : (Adopted ∨ Adopts d db (Projector.groupOf (db.batch kind) k) →
        foldEvents d.apply none
          ((readOf (kind.projectBatch tz env db).progress.db kind k).map SeqEvent.envelope) =
            .ok ((d.table (kind.projectBatch tz env db).progress.db).get k)) ∧
      (¬(Adopted ∨ Adopts d db (Projector.groupOf (db.batch kind) k)) →
        (d.table (kind.projectBatch tz env db).progress.db).get k = none) := by
    obtain ⟨overlap, new, hoverlap, hread, hgroup, ⟨later, hlater⟩⟩ := readOf_poll hlogs tz env kind k
    rw [hread]
    by_cases hunread : Projector.groupOf (db.batch kind) k = []
    · obtain ⟨_, rfl⟩ := List.append_eq_nil_iff.mp (hgroup ▸ hunread)
      rw [row_of_unread hd tz env hunread, hunread, List.append_nil]
      have hnobody : ¬Adopts d db [] := by
        rintro ⟨_, hevent, _⟩
        cases hevent
      exact ⟨fun hadopted => h.row (hadopted.resolve_right hnobody),
        fun hnot => h.absent fun hadopted => hnot (.inl hadopted)⟩
    · obtain ⟨before, ⟨haccounts', hrow⟩, hresult⟩ := Appends.poll_handles
        (R := fun a b => b.accounts = a.accounts ∧ (d.table b).get k = (d.table a).get k)
        (fun _ => ⟨rfl, rfl⟩) (fun hab hbc => ⟨hbc.1.trans hab.1, hbc.2.trans hab.2⟩)
        (fun {_ _ _ _} hother hwritten => by
          rw [hd.project_eq] at hwritten
          obtain ⟨_, _, _, _, _, hothers, haccounts⟩ :=
            hd.project_written_row (fun event hevent => (Projector.mem_groupOf.mp hevent).2) hwritten
          exact ⟨haccounts, hothers k (Ne.symm hother)⟩)
        (fun before seq => ⟨rfl, by rw [hd.table_storePosition]⟩) hunread
      have hleaves : Leaves d env before k (db.stream kind k) (overlap ++ new)
          ((d.table (kind.projectBatch tz env db).progress.db).get k) := by
        rw [hd.project_eq, hgroup] at hresult
        rcases hresult with ⟨hskipped, _, hsame⟩ | ⟨after, link, hwritten, _, hsame⟩ |
          ⟨hrolledBack, ⟨_, hsame⟩, hlisted⟩
        · exact .inl ⟨hskipped, hsame⟩
        · exact .inr (.inl ⟨after, link, hwritten, hsame⟩)
        · exact .inr (.inr ⟨hrolledBack, hsame,
            (adopts_congr haccounts' _).not.mpr (horphans k hlisted)⟩)
      have hversions := (hlogs.ordered kind).stream_version k
      rw [show Projection.stream SeqEvent.id SeqEvent.version (db.events kind) k = db.stream kind k
        from rfl, ← hlater] at hversions
      have hstreamRead : d.Stream (readOf db kind k ++ new) := by
        have hbeginning := hstreams k
        rw [← hlater] at hbeginning
        exact hbeginning.beginning
      have hrebuilt := hleaves.rebuild hd
        (fun event hevent => (Projector.mem_groupOf.mp (hgroupMem event (hgroup ▸ hevent))).2)
        (hstreams k) (fun event hevent => hgroupMem event (hgroup ▸ hevent)) hstreamRead
        (List.pairwise_append.mp hversions).1 hoverlap (hgroup ▸ hunread)
        (fun hadopted => (adopts_congr haccounts' _).mpr (h.parent hadopted))
        (fun hadopted => (h.row hadopted).trans (by rw [hrow]))
        (fun hnot => hrow.trans (h.absent hnot))
      rw [adopts_congr haccounts'] at hrebuilt
      rw [hgroup]
      exact hrebuilt
  refine ⟨fun hadopted => ?_, hsettled.1, hsettled.2⟩
  rw [hstream, adopts_congr haccounts]
  exact hparent hadopted

/-- Other polls leave what was rebuilt. -/
theorem Rebuilt.transfer {after : Db} {Adopted : Prop} (h : Rebuilt d db k Adopted)
    (haccounts : ∀ accountId, Open db accountId → Open after accountId)
    (hlog : after.log kind = db.log kind) (htable : d.table after = d.table db) :
    Rebuilt d after k Adopted := by
  have hstream : after.stream kind k = db.stream kind k :=
    congrArg (Projector.groupOf · k) (congrArg Tailing.Log.rows hlog)
  refine ⟨fun hadopted => ?_, fun hadopted => ?_, fun hnot => ?_⟩
  · obtain ⟨event, hevent, accountId, hcreated, hget⟩ := h.parent hadopted
    exact ⟨event, hstream ▸ hevent, accountId, hcreated, haccounts accountId hget⟩
  · rw [htable, readOf, hlog]
    exact h.row hadopted
  · rw [htable]
    exact h.absent hnot

theorem Rebuilt.congr {Adopted Adopted' : Prop} (h : Rebuilt d db k Adopted)
    (hiff : Adopted' ↔ Adopted) : Rebuilt d db k Adopted' :=
  ⟨fun hadopted => h.parent (hiff.mp hadopted), fun hadopted => h.row (hiff.mp hadopted),
    fun hnot => h.absent (hiff.not.mp hnot)⟩

/-! ### Polls of the accounts -/

variable {id accountId : AccountId} {after : Db} {accountEvents : List (SeqEvent AccountEvent)}
  {link : Option (AccountId × AuthAccountId)}

/-- The write of an account that is marked deleted takes the rows of the account away, any other write
leaves the rows alone. -/
theorem account_write (hd : d.Lawful) (hseparate : d.Separate db) {account : Account}
    {created : Option AuthAccountId} (h : AccountProjector.write tz db account created id = .ok after) :
    ∃ upserted, AccountProjectionWriter.upsert tz db account = .ok upserted ∧
      after.accounts = upserted.accounts ∧
      ((account.deletedAt ≠ none ∧
          ∀ row, row ∈ (d.table after).rows ↔ row ∈ (d.table db).rows ∧ d.accountId row ≠ id) ∨
        (account.deletedAt = none ∧ d.table after = d.table db)) := by
  simp only [AccountProjector.write, Fallible.bind_eq_ok] at h
  obtain ⟨upserted, hupsert, hrest⟩ := h
  have htable : d.table upserted = d.table db := by
    simp only [AccountProjectionWriter.upsert, uniqueViolation, reject] at hupsert
    split_ifs at hupsert
    · cases hupsert
      exact hd.table_accounts db _ _
    · cases hupsert
      rfl
  refine ⟨upserted, hupsert, ?_⟩
  split_ifs at hrest with hdeleted
  · have hseparate' : d.Separate upserted := by
      rw [Dependent.Separate, htable]
      exact hseparate
    have hrows := hd.cascade hseparate' hrest
    rw [htable] at hrows
    obtain ⟨_, _, _, rfl⟩ := AccountProjector.cascade_tables hrest
    exact ⟨rfl, .inl ⟨Option.isSome_iff_ne_none.mp hdeleted, hrows⟩⟩
  · have hundeleted : account.deletedAt = none := by simpa using hdeleted
    cases created with
    | none =>
        cases hrest
        exact ⟨rfl, .inr ⟨hundeleted, htable⟩⟩
    | some authId =>
        simp only [AccountReadModel.linkAuthAccount, foreignKeyViolation, reject] at hrest
        split_ifs at hrest
        · cases hrest
          exact ⟨rfl, .inr ⟨hundeleted, htable⟩⟩
        · cases hrest
          exact ⟨rfl, .inr ⟨hundeleted, (hd.table_accounts upserted _ _).trans htable⟩⟩

/-- The account and the rows that hang on it are the same. -/
def Same (d : Dependent kind Row) (accountId : AccountId) (before after : Db) : Prop :=
  after.accounts.get accountId = before.accounts.get accountId ∧
    ∀ row, d.accountId row = accountId → (row ∈ (d.table after).rows ↔ row ∈ (d.table before).rows)

/-- Handling an account leaves the others and the rows that hang on them. -/
theorem account_others (hd : d.Lawful) (hids : ∀ event ∈ accountEvents, event.id = id)
    (hseparate : d.Separate db) (hother : id ≠ accountId)
    (h : AccountProjector.project tz env db id accountEvents = .written after link) :
    Same d accountId db after := by
  rcases AccountProjector.project_cases tz env db id accountEvents with
    ⟨_, heq⟩ | ⟨account, hentity, _, ⟨result, hwrite, heq⟩ | heq⟩
  · cases heq.symm.trans h
  · cases heq.symm.trans h
    have hid : account.id = id := AccountProjector.entity_id hids hentity
    obtain ⟨upserted, hupsert, haccounts, hrows⟩ := account_write hd hseparate hwrite
    refine ⟨?_, fun row hrow => ?_⟩
    · rw [haccounts, AccountProjector.upsert_row hupsert, if_neg]
      rintro ⟨hsame, _⟩
      exact hother (hid.symm.trans hsame.symm)
    · rcases hrows with ⟨_, hrows⟩ | ⟨_, htable⟩
      · rw [hrows, hrow]
        exact and_iff_left (Ne.symm hother)
      · rw [htable]
  · cases heq.symm.trans h

/-- What is folded onto a visible row and marks the account deleted is newer than the row. -/
theorem version_lt_of_deleted {stored : AccountRow} {account : Account}
    (hget : db.accounts.get id = some stored) (hundeleted : stored.deletedAt = none)
    (hentity : AccountProjector.entity env (AccountReadModel.findByIdUnfiltered db env.now id)
      accountEvents = .ok (some account))
    (hdeleted : account.deletedAt ≠ none) : stored.version < account.version := by
  rw [AccountProjector.findByIdUnfiltered_eq, hget, AccountProjector.decode_visible hundeleted,
    AccountProjector.entity] at hentity
  by_cases hnothing :
      AccountProjector.pending (some (stored.toAccount true env.now)) accountEvents = []
  · rw [hnothing] at hentity
    cases hentity
    exact absurd hundeleted hdeleted
  · have hmap : (AccountProjector.pending (some (stored.toAccount true env.now)) accountEvents).map
        SeqEvent.envelope ≠ [] := by simpa using hnothing
    obtain ⟨result, hresult, hversion⟩ := Account.foldEvents_ok hentity hmap
    cases hresult
    have hnewer := (List.mem_filter.mp (List.getLast_mem hnothing)).2
    rw [hversion, List.getLast_map]
    simp only [Option.all_some, decide_eq_true_eq] at hnewer
    exact hnewer

/-- An open account that is handled stays open and keeps its rows, or it is closed. -/
theorem account_open (hd : d.Lawful) (hids : ∀ event ∈ accountEvents, event.id = id)
    (hseparate : d.Separate db) (hopen : Open db id)
    (h : AccountProjector.project tz env db id accountEvents = .written after link) :
    (Open after id ∧
        ∀ row, d.accountId row = id → (row ∈ (d.table after).rows ↔ row ∈ (d.table db).rows)) ∨
      Closed after id := by
  obtain ⟨stored, hget, hundeleted⟩ := hopen
  rcases AccountProjector.project_cases tz env db id accountEvents with
    ⟨_, heq⟩ | ⟨account, hentity, _, ⟨result, hwrite, heq⟩ | heq⟩
  · cases heq.symm.trans h
  · cases heq.symm.trans h
    have hid : account.id = id := AccountProjector.entity_id hids hentity
    obtain ⟨upserted, hupsert, haccounts, hrows⟩ := account_write hd hseparate hwrite
    have hrow : after.accounts.get id =
        if stored.version < account.version then some (.ofAccount tz account) else some stored := by
      rw [haccounts, AccountProjector.upsert_row hupsert, hget, hid]
      simp
    rcases hrows with ⟨hdeleted, _⟩ | ⟨hkept, htable⟩
    · -- only a pending event marks an account deleted, so the row is replaced
      refine .inr ⟨.ofAccount tz account, ?_, ?_⟩
      · rw [hrow, if_pos (version_lt_of_deleted hget hundeleted hentity hdeleted)]
      · rw [AccountRow.ofAccount_deletedAt]
        simpa using hdeleted
    · refine .inl ⟨?_, fun row _ => by rw [htable]⟩
      rw [Open, hrow]
      split_ifs
      · refine ⟨_, rfl, ?_⟩
        rw [AccountRow.ofAccount_deletedAt, hkept]
        rfl
      · exact ⟨_, rfl, hundeleted⟩
  · cases heq.symm.trans h

/-- A poll of the accounts leaves an open account open and its rows as they are, or closes it. -/
theorem account_poll (tz : Timestamptz) (env : PollEnv) (hd : d.Lawful) (hgood : d.Good db)
    (hopen : Open db accountId) :
    let polled := (Aggregate.account.projectBatch tz env db).progress.db
    (Open polled accountId ∧ ∀ row, d.accountId row = accountId →
        (row ∈ (d.table polled).rows ↔ row ∈ (d.table db).rows)) ∨ Closed polled accountId := by
  have hids : ∀ id, ∀ event ∈ Projector.groupOf (db.batch .account) id, event.id = id :=
    fun id event hevent => (Projector.mem_groupOf.mp hevent).2
  -- rows stay separate from group to group
  let R : Db → Db → Prop := fun a b => d.Good a → d.Good b ∧ Same d accountId a b
  have hrefl : ∀ db, R db db := fun _ h => ⟨h, rfl, fun _ _ => Iff.rfl⟩
  have htrans : ∀ {a b c}, R a b → R b c → R a c := by
    intro a b c hab hbc ha
    obtain ⟨hb, hget, hrows⟩ := hab ha
    obtain ⟨hc, hget', hrows'⟩ := hbc hb
    exact ⟨hc, hget'.trans hget, fun row hrow => (hrows' row hrow).trans (hrows row hrow)⟩
  have hgoodWritten : ∀ {before id after link}, AccountProjector.project tz env before id
      (Projector.groupOf (db.batch .account) id) = .written after link → d.Good before →
      d.Good after := by
    intro before id after link hwritten hbefore
    obtain ⟨hrows, hclean⟩ := hd.good_account (hids id) hwritten hbefore.1 hbefore.2
    exact ⟨fun row hrow other hother => hbefore.1 row (hrows row hrow) other (hrows other hother),
      hclean⟩
  have hothers : ∀ {before other after link}, other ≠ accountId →
      Aggregate.account.project tz env before other (Projector.groupOf (db.batch .account) other) =
        .written after link → R before after :=
    fun hother hwritten hbefore => ⟨hgoodWritten hwritten hbefore,
      account_others hd (hids _) hbefore.1 hother hwritten⟩
  have hstore : ∀ before seq, R before (Projector.storePosition before .account seq) := by
    intro before seq hbefore
    refine ⟨hd.good_storePosition hbefore .account seq, rfl, fun row _ => ?_⟩
    rw [hd.table_storePosition]
  have hsame : ∀ {a b}, Same d accountId a b → Open a accountId → Open b accountId := by
    rintro a b ⟨hget, _⟩ ⟨row, hrow, hdeleted⟩
    exact ⟨row, hget.trans hrow, hdeleted⟩
  intro polled
  by_cases hunread : Projector.groupOf (db.batch .account) accountId = []
  · obtain ⟨_, hpolled⟩ := Appends.poll_unread hrefl htrans hothers hstore hunread hgood
    exact .inl ⟨hsame hpolled hopen, hpolled.2⟩
  · obtain ⟨before, hbefore, hresult⟩ := Appends.poll_handles hrefl htrans hothers hstore hunread
    obtain ⟨hgood', hbefore⟩ := hbefore hgood
    have hopen' : Open before accountId := hsame hbefore hopen
    rcases hresult with ⟨_, hrest⟩ | ⟨after, link, hwritten, hrest⟩ | ⟨_, hrest, _⟩
    · obtain ⟨_, hrest⟩ := hrest hgood'
      exact .inl ⟨hsame hrest hopen',
        fun row hrow => (hrest.2 row hrow).trans (hbefore.2 row hrow)⟩
    · obtain ⟨_, hrest⟩ := hrest (hgoodWritten hwritten hgood')
      rcases account_open hd (hids accountId) hgood'.1 hopen' hwritten with ⟨hopened, hrows⟩ | hclosed
      · exact .inl ⟨hsame hrest hopened, fun row hrow =>
          (hrest.2 row hrow).trans ((hrows row hrow).trans (hbefore.2 row hrow))⟩
      · obtain ⟨row, hget, hdeleted⟩ := hclosed
        exact .inr ⟨row, hrest.1.trans hget, hdeleted⟩
    · obtain ⟨_, hrest⟩ := hrest hgood'
      exact .inl ⟨hsame hrest hopen',
        fun row hrow => (hrest.2 row hrow).trans (hbefore.2 row hrow)⟩

/-! ### Runs -/

/-- The account of a row that was folded is the one its stream was created for. -/
theorem account_of_fold (hd : d.Lawful) {events : List (SeqEvent kind.Event)} {row : Row}
    (hfold : foldEvents d.apply none (events.map SeqEvent.envelope) = .ok (some row)) :
    ∃ event ∈ events, d.createdFor event.envelope.event = some (d.accountId row) := by
  rcases hd.fold_identity hfold with ⟨_, hnone, _⟩ | ⟨envelope, henvelope, hcreated⟩
  · cases hnone
  · obtain ⟨event, hevent, rfl⟩ := List.mem_map.mp henvelope
    refine ⟨event, hevent, ?_⟩
    rw [Dependent.createdFor, hcreated]
    rfl

/-- A poll of the projector reads the creation of the stream when the account is open. -/
def Causes (d : Dependent kind Row) (k : Int) (db : Db) (action : Coverage.Action) : Prop :=
  (∃ env, action = .poll kind env) ∧ Adopts d db (Projector.groupOf (db.batch kind) k)

theorem Rebuilt.account (hd : d.Lawful) (hgood : d.Good db)
    (hstream : d.Stream (db.stream kind k)) {Adopted : Prop} (h : Rebuilt d db k Adopted) :
    let polled := (Aggregate.account.projectBatch tz env db).progress.db
    Rebuilt d polled k (Adopted ∧ Adopts d polled (polled.stream kind k)) := by
  intro polled
  have hpolled : d.Good polled ∧ ∀ row ∈ (d.table polled).rows, row ∈ (d.table db).rows :=
    hd.good_projectAccounts hgood
  obtain ⟨hgood', hfewer⟩ := hpolled
  have hlog : polled.log kind = db.log kind := by
    obtain ⟨hevents, _, hothers, _⟩ := Aggregate.account.projectBatch_spec tz env db
    simp only [polled, Db.log, hevents kind, hothers kind hd.kind_ne]
  have hstreams : polled.stream kind k = db.stream kind k :=
    congrArg (Projector.groupOf · k) (congrArg Tailing.Log.rows hlog)
  have hread : readOf polled kind k = readOf db kind k := by rw [readOf, hlog, readOf]
  have hreadMem : ∀ event ∈ readOf db kind k, event ∈ db.stream kind k :=
    fun event hevent => (List.mem_filter.mp hevent).1
  have hkept : (d.table db).get k = none → (d.table polled).get k = none := by
    rw [Table.get_eq_none_iff, Table.get_eq_none_iff]
    exact fun habsent row hrow => habsent row (hfewer row hrow)
  -- the row of an adopted stream belongs to an account that was open
  have howner : Adopted → ∀ {row}, (d.table db).get k = some row →
      Open db (d.accountId row) ∧ ∀ {event accountId}, event ∈ db.stream kind k →
        d.createdFor event.envelope.event = some accountId → accountId = d.accountId row := by
    intro hadopted row hget
    have hfold := h.row hadopted
    rw [hget] at hfold
    obtain ⟨created, hcreated, hfor⟩ := account_of_fold hd hfold
    obtain ⟨parent, hparent, accountId, hnamed, hopen⟩ := h.parent hadopted
    refine ⟨?_, fun hevent hother => createdFor_unique hd hstream hevent (hreadMem _ hcreated) hother
      hfor⟩
    rw [createdFor_unique hd hstream (hreadMem _ hcreated) hparent hfor hnamed]
    exact hopen
  refine ⟨fun hadopted => hadopted.2, ?_, fun hnot => ?_⟩
  · rintro ⟨hadopted, event, hevent, accountId, hcreated, hopen⟩
    rw [hread, h.row hadopted]
    congr 1
    cases hget : (d.table db).get k with
    | none => exact (hkept hget).symm
    | some row =>
        obtain ⟨hbefore, hunique⟩ := howner hadopted hget
        obtain ⟨hmem, hid⟩ := Table.get_eq_some_iff.mp hget
        rcases account_poll tz env hd hgood hbefore with ⟨_, hrows⟩ | hclosed
        · exact (Table.get_eq_some_iff.mpr ⟨(hrows row rfl).mpr hmem, hid⟩).symm
        · rw [hunique (hstreams ▸ hevent) hcreated] at hopen
          exact absurd hclosed hopen.not_closed
  · by_contra hpresent
    obtain ⟨row, hget⟩ := Option.ne_none_iff_exists'.mp hpresent
    obtain ⟨hmem, hid⟩ := Table.get_eq_some_iff.mp hget
    have hgetBefore : (d.table db).get k = some row := Table.get_eq_some_iff.mpr ⟨hfewer row hmem, hid⟩
    have hadopted : Adopted := by
      by_contra hnever
      rw [h.absent hnever] at hgetBefore
      cases hgetBefore
    obtain ⟨hbefore, hunique⟩ := howner hadopted hgetBefore
    rcases account_poll tz env hd hgood hbefore with ⟨hopen, _⟩ |
      ⟨stored, hstored, hdeleted⟩
    · obtain ⟨event, hevent, accountId, hcreated, _⟩ := h.parent hadopted
      refine hnot ⟨hadopted, event, hstreams ▸ hevent, accountId, hcreated, ?_⟩
      rw [hunique hevent hcreated]
      exact hopen
    · exact hdeleted (hgood'.2 row hmem stored hstored)

/-- A new event is ahead of the reader. -/
theorem position_lt (hlogs : Appends.Logs db) {event : SeqEvent kind.Event}
    (hnext : Appends.Next kind (db.events kind) event) : db.position kind < event.seq := by
  cases hstored : db.checkpoints kind with
  | none =>
      rw [Db.position, hstored]
      exact hnext.positive
  | some seq =>
      obtain ⟨row, hrow, rfl⟩ := (hlogs.sound kind).attained seq hstored
      rw [Db.position, hstored]
      exact hnext.seq row hrow

/-- A new event is not read. -/
theorem readOf_append (hlogs : Appends.Logs db) {event : SeqEvent kind.Event}
    (hnext : Appends.Next kind (db.events kind) event) (k : Int) :
    readOf (Coverage.append db kind event) kind k = readOf db kind k := by
  rw [readOf, Coverage.log_append_self, readOf, Projection.read, Projection.read]
  by_cases hid : event.id = k
  · subst hid
    rw [Projection.stream_cons_self (hnext.ordered (hlogs.ordered kind)) hnext.version,
      List.filter_append]
    have hunread : [event].filter (fun event => event.seq ≤ db.position kind) = [] := by
      simpa using position_lt hlogs hnext
    exact (congrArg _ hunread).trans (List.append_nil _)
  · rw [Projection.stream_cons_of_ne hid]
    rfl

theorem Rebuilt.commit (hd : Resurrection.ReadModel d) (hlogs : Appends.Logs db) {other : Aggregate}
    {event : SeqEvent other.Event} (hnext : Appends.Next other (db.events other) event)
    {Adopted : Prop} (h : Rebuilt d db k Adopted) :
    Rebuilt d (Coverage.append db other event) k Adopted := by
  by_cases hkind : kind = other
  · subst hkind
    refine ⟨fun hadopted => ?_, fun hadopted => ?_, fun hnot => ?_⟩
    · rw [adopts_congr (Resurrection.table_append db kind event).1]
      refine (h.parent hadopted).mono fun created hcreated => ?_
      obtain ⟨hmem, hid⟩ := Projector.mem_groupOf.mp hcreated
      refine Projector.mem_groupOf.mpr ⟨?_, hid⟩
      rw [show (Coverage.append db kind event).events kind = event :: db.events kind from
        congrArg Tailing.Log.rows (Coverage.log_append_self db kind event)]
      exact List.mem_cons_of_mem _ hmem
    · rw [readOf_append hlogs hnext, hd.append]
      exact h.row hadopted
    · rw [hd.append]
      exact h.absent hnot
  · refine h.transfer (fun accountId => ?_) (Coverage.log_append_of_ne db event hkind)
      (hd.append db other event)
    rw [Open, Open, (Resurrection.table_append db other event).1]
    exact id

/-- The writes of the projector fail only for streams without an open account. -/
def Writes (tz : Timestamptz) (d : Dependent kind Row) (db : Db) (action : Coverage.Action) : Prop :=
  ∀ env, action = .poll kind env → OnlyOrphans tz d env db

theorem Rebuilt.step (hd : Resurrection.ReadModel d) (hlogs : Appends.Logs db) (hgood : d.Good db)
    {action : Coverage.Action} (hallowed : Appends.Allowed db action) (hwrites : Writes tz d db action)
    {Adopted : Prop} (h : Rebuilt d db k Adopted) :
    Rebuilt d (Coverage.step tz db action) k ((Adopted ∨ Causes d k db action) ∧
      Adopts d (Coverage.step tz db action) ((Coverage.step tz db action).stream kind k)) := by
  -- a step that causes nothing and keeps what there is
  have hkeep : (¬∃ env, action = .poll kind env) → Rebuilt d (Coverage.step tz db action) k Adopted →
      Rebuilt d (Coverage.step tz db action) k ((Adopted ∨ Causes d k db action) ∧
        Adopts d (Coverage.step tz db action) ((Coverage.step tz db action).stream kind k)) := by
    intro hidle hkept
    refine hkept.congr ⟨fun hadopted => ?_, fun hadopted => ⟨.inl hadopted, hkept.parent hadopted⟩⟩
    exact hadopted.1.resolve_right fun hcauses => hidle hcauses.1
  cases action with
  | commit other event =>
      exact hkeep (by rintro ⟨env, hcommit⟩; cases hcommit) (h.commit hd hlogs hallowed)
  | failedPoll other => exact hkeep (by rintro ⟨env, hpoll⟩; cases hpoll) h
  | write tables => exact hallowed.elim
  | poll other env =>
      by_cases hkind : other = kind
      · subst hkind
        have hpolled := h.poll hd.lawful hlogs (hd.streams hlogs) (hwrites env rfl)
        refine hpolled.congr ⟨fun hadopted => ?_, fun hadopted => ⟨?_, hpolled.parent hadopted⟩⟩
        · exact hadopted.1.imp_right fun hcauses => hcauses.2
        · exact hadopted.imp_right fun hcauses => ⟨⟨env, rfl⟩, hcauses⟩
      · have hidle : ¬∃ again, Coverage.Action.poll other env = .poll kind again := by
          rintro ⟨again, hsame⟩
          cases hsame
          exact hkind rfl
        by_cases haccount : other = .account
        · subst haccount
          refine (h.account hd.lawful hgood (hd.streams hlogs k)).congr (and_congr_left fun _ => ?_)
          exact or_iff_left fun hcauses => hidle hcauses.1
        · have honly := Dependent.only_projectBatch tz env haccount db
          refine hkeep hidle (h.transfer (fun accountId => ?_) ?_ (hd.lawful.table_only hkind honly))
          · rw [Open, Open, Coverage.step, honly.accounts]
            exact id
          · obtain ⟨hevents, _, hothers, _⟩ := other.projectBatch_spec tz env db
            simp only [Coverage.step, Db.log, hevents kind, hothers kind (Ne.symm hkind)]

/-- A poll has read the creation of the stream when its account was open, and the account has been open
in every state since. -/
def Adopted (tz : Timestamptz) (d : Dependent kind Row) (start : Db) (actions : List Coverage.Action)
    (k : Int) : Prop :=
  Runs.Since (Coverage.step tz) (Causes d k) (fun db => Adopts d db (db.stream kind k)) start actions

/-- What holds of one read model in every state of a run. -/
theorem rebuilt_run (hd : Resurrection.ReadModel d)
    (hgood : ∀ {db}, Resurrection.Inv db → d.Good db) {start : Db} (hfresh : Appends.Fresh start)
    (hrows : (d.table start).rows = []) {actions : List Coverage.Action}
    (hallowed : Runs.Along (Coverage.step tz) Appends.Allowed start actions)
    (hwrites : Runs.Along (Coverage.step tz) (Writes tz d) start actions) (k : Int) :
    Rebuilt d (Runs.run (Coverage.step tz) start actions) k (Adopted tz d start actions k) := by
  induction actions using List.reverseRecOn with
  | nil =>
      have hnone : ¬Adopted tz d start [] k := Runs.not_since_nil
      refine ⟨fun hadopted => absurd hadopted hnone, fun hadopted => absurd hadopted hnone, fun _ => ?_⟩
      refine Table.get_eq_none_iff.mpr fun row hrow => ?_
      rw [Runs.run_nil, hrows] at hrow
      cases hrow
  | append_singleton actions action ih =>
      obtain ⟨hfront, hlast, _⟩ := Runs.along_append.mp hallowed
      obtain ⟨hfrontWrites, hlastWrites, _⟩ := Runs.along_append.mp hwrites
      have hinv : Resurrection.Inv (Runs.run (Coverage.step tz) start actions) :=
        hfront.invariant (fun _ _ h hstep => h.step hstep) (Resurrection.inv_fresh hfresh)
      have hstep := (ih hfront hfrontWrites).step hd hinv.logs (hgood hinv) hlast hlastWrites
      rw [Runs.run_append]
      refine hstep.congr ?_
      rw [Adopted, Runs.since_concat, Runs.run_append]
      rfl

/-- In every state of every run the row of a profile or of a field is the fold of what was read of its
stream if the stream is adopted, and there is no row otherwise. -/
theorem rows_are_folds_of_adopted_streams (tz : Timestamptz) (start : Db)
    (hfresh : Appends.Fresh start) (actions : List Coverage.Action)
    (hallowed : Runs.Along (Coverage.step tz) Appends.Allowed start actions)
    (hprofiles : Runs.Along (Coverage.step tz) (Writes tz profiles) start actions)
    (hmetadatas : Runs.Along (Coverage.step tz) (Writes tz metadatas) start actions) :
    let db := Runs.run (Coverage.step tz) start actions
    (∀ k, (Adopted tz profiles start actions k →
          foldEvents Profile.apply none ((readOf db .profile k).map SeqEvent.envelope) =
            .ok (db.profiles.get k)) ∧
        (¬Adopted tz profiles start actions k → db.profiles.get k = none)) ∧
      ∀ k, (Adopted tz metadatas start actions k →
          foldEvents Metadata.apply none ((readOf db .metadata k).map SeqEvent.envelope) =
            .ok (db.metadatas.get k)) ∧
        (¬Adopted tz metadatas start actions k → db.metadatas.get k = none) := by
  intro db
  refine ⟨fun k => ?_, fun k => ?_⟩
  · have hrebuilt := rebuilt_run Resurrection.readModel_profiles Resurrection.Inv.profiles hfresh
      hfresh.profiles hallowed hprofiles k
    exact ⟨hrebuilt.row, hrebuilt.absent⟩
  · have hrebuilt := rebuilt_run Resurrection.readModel_metadatas Resurrection.Inv.metadatas hfresh
      hfresh.metadatas hallowed hmetadatas k
    exact ⟨hrebuilt.row, hrebuilt.absent⟩

/-! ### An account that comes back -/

def aliceCreated : SeqEvent AccountEvent := ⟨1, ⟨7, .Created "alice" false "alice-nanoid" 3, 20⟩⟩

def aliceDeactivated : SeqEvent AccountEvent := ⟨2, ⟨7, .Deactivated, 22⟩⟩

def aliceReactivated : SeqEvent AccountEvent := ⟨3, ⟨7, .Reactivated, 23⟩⟩

def aliceProfile : SeqEvent ProfileEvent :=
  ⟨1, ⟨50, .Created 7 (some "Alice") none none none "alice-profile", 21⟩⟩

/-- An account gets a profile. -/
def aliceAppears : List Coverage.Action :=
  [.commit .account aliceCreated, .poll .account (Coverage.plainEnv 10),
    .commit .profile aliceProfile, .poll .profile (Coverage.plainEnv 11)]

def aliceLeaves : List Coverage.Action :=
  [.commit .account aliceDeactivated, .poll .account (Coverage.plainEnv 12)]

def aliceReturns : List Coverage.Action :=
  [.commit .account aliceReactivated, .poll .account (Coverage.plainEnv 13),
    .poll .profile (Coverage.plainEnv 14)]

theorem allowed_commit (kind : Aggregate) (log : List (SeqEvent kind.Event))
    {event : SeqEvent kind.Event} (hlog : db.events kind = log)
    (hnext : Appends.Next kind log event) : Appends.Allowed db (.commit kind event) := by
  subst hlog
  exact hnext

open Resurrection (registry)

theorem fresh_registry : Appends.Fresh registry :=
  ⟨fun kind => by cases kind <;> rfl, fun _ => rfl, rfl, rfl, rfl⟩

theorem allowed_aliceAppears :
    Runs.Along (Coverage.step .microseconds) Appends.Allowed registry aliceAppears :=
  ⟨allowed_commit .account [] rfl ⟨by decide, by decide, by decide, ⟨_, rfl⟩⟩, trivial,
    allowed_commit .profile [] (by decide +kernel)
      ⟨by decide, by decide, by decide, ⟨_, rfl⟩, by decide⟩, trivial, trivial⟩

theorem allowed_aliceLeaves (hlog : db.accountEvents = [aliceCreated]) :
    Runs.Along (Coverage.step .microseconds) Appends.Allowed db aliceLeaves :=
  ⟨allowed_commit .account _ hlog ⟨by decide, by decide, by decide, ⟨_, rfl⟩⟩, trivial, trivial⟩

theorem allowed_aliceReturns (hlog : db.accountEvents = [aliceDeactivated, aliceCreated]) :
    Runs.Along (Coverage.step .microseconds) Appends.Allowed db aliceReturns :=
  ⟨allowed_commit .account _ hlog ⟨by decide, by decide, by decide, ⟨_, rfl⟩⟩, trivial, trivial, trivial⟩

theorem writes_of_rolledBack (h : (kind.projectBatch tz env db).progress.rolledBack = []) :
    Writes tz d db (.poll kind env) := by
  rintro _ ⟨⟩ k hk
  rw [h] at hk
  cases hk

theorem writes_of_ne {action : Coverage.Action} (h : ∀ env, action ≠ .poll kind env) :
    Writes tz d db action :=
  fun env hpoll => absurd hpoll (h env)

/-- The creation of the profile is still in the window when the account comes back, so the profile comes
back too. -/
theorem rows_are_folds_aliceReturns :
    let db := Runs.run (Coverage.step .microseconds) registry (aliceAppears ++ aliceLeaves ++ aliceReturns)
    (db.profiles.get 50).map (·.displayName) = some (some "Alice") ∧
      foldEvents Profile.apply none ((readOf db .profile 50).map SeqEvent.envelope) =
        .ok (db.profiles.get 50) := by
  intro db
  have hallowed : Runs.Along (Coverage.step .microseconds) Appends.Allowed registry
      (aliceAppears ++ aliceLeaves ++ aliceReturns) :=
    Runs.along_append.mpr ⟨Runs.along_append.mpr ⟨allowed_aliceAppears,
      allowed_aliceLeaves (by decide +kernel)⟩, allowed_aliceReturns (by decide +kernel)⟩
  have hidle : ∀ {kind : Aggregate} (event : SeqEvent kind.Event) {other : Aggregate} (env : PollEnv),
      Coverage.Action.commit kind event ≠ .poll other env := by
    intro kind event other env h
    cases h
  have hother : ∀ {kind other : Aggregate} (_ : kind ≠ other) (env again : PollEnv),
      Coverage.Action.poll kind env ≠ .poll other again := by
    intro kind other hne env again h
    cases h
    exact hne rfl
  have hprofiles : Runs.Along (Coverage.step .microseconds) (Writes .microseconds profiles) registry
      (aliceAppears ++ aliceLeaves ++ aliceReturns) :=
    ⟨writes_of_ne (hidle _), writes_of_ne (hother (by decide) _), writes_of_ne (hidle _),
      writes_of_rolledBack (by decide +kernel), writes_of_ne (hidle _),
      writes_of_ne (hother (by decide) _), writes_of_ne (hidle _), writes_of_ne (hother (by decide) _),
      writes_of_rolledBack (by decide +kernel), trivial⟩
  have hmetadatas : Runs.Along (Coverage.step .microseconds) (Writes .microseconds metadatas) registry
      (aliceAppears ++ aliceLeaves ++ aliceReturns) :=
    ⟨writes_of_ne (hidle _), writes_of_ne (hother (by decide) _), writes_of_ne (hidle _),
      writes_of_ne (hother (by decide) _), writes_of_ne (hidle _), writes_of_ne (hother (by decide) _),
      writes_of_ne (hidle _), writes_of_ne (hother (by decide) _), writes_of_ne (hother (by decide) _),
      trivial⟩
  have hname : (db.profiles.get 50).map (·.displayName) = some (some "Alice") := by decide +kernel
  obtain ⟨hrow, habsent⟩ := (rows_are_folds_of_adopted_streams .microseconds registry fresh_registry
    (aliceAppears ++ aliceLeaves ++ aliceReturns) hallowed hprofiles hmetadatas).1 50
  refine ⟨hname, hrow ?_⟩
  by_contra hnever
  rw [show db.profiles.get 50 = none from habsent hnever] at hname
  cases hname

/-! ### Rows that do not come back -/

/-- The creation of the stream is a window or more behind the reader, and there is no row. -/
structure Lost (d : Dependent kind Row) (db : Db) (k : Int) : Prop where
  behind : ∃ created ∈ db.stream kind k, (d.created created.envelope.event).isSome = true ∧
    created.seq ≤ db.position kind - Projector.window
  absent : (d.table db).get k = none

/-- A group that is written without a row holds the creation of its stream. -/
theorem created_of_written (hd : d.Lawful) (habsent : (d.table db).get k = none)
    (h : d.project env db k group = .written after link) :
    ∃ event ∈ group, (d.created event.envelope.event).isSome = true := by
  obtain ⟨entity, hpending, _, hentity, _⟩ := Dependent.project_written h
  rw [habsent, Dependent.pending_none] at hpending
  rw [habsent, Dependent.entity_none] at hentity
  obtain ⟨first, rest, rfl⟩ := List.exists_cons_of_ne_nil hpending
  obtain ⟨_, _, hcreated, _⟩ := hd.fold_head hentity
  refine ⟨first, List.mem_cons_self, ?_⟩
  rw [show d.created first.envelope.event = _ from hcreated]
  rfl

theorem Lost.projectBatch (hd : d.Lawful) (hlogs : Appends.Logs db)
    (hstreams : ∀ id, d.Stream (db.stream kind id)) (h : Lost d db k) :
    (d.table (kind.projectBatch tz env db).progress.db).get k = none := by
  obtain ⟨created, hmem, hcreated, hbehind⟩ := h.behind
  refine Appends.projectBatch_related
    (R := fun a b => (d.table a).get k = none → (d.table b).get k = none) (fun _ h => h)
    (fun hab hbc h => hbc (hab h)) ?_ ?_ h.absent
  · intro before id after link hwritten habsent
    rw [hd.project_eq] at hwritten
    by_cases hid : id = k
    · subst hid
      -- the creation is not in the window any more
      obtain ⟨event, hevent, hagain⟩ := created_of_written hd habsent hwritten
      have hsame : event = created := creation_unique hd (hstreams id)
        ((hlogs.group_sublist kind id).subset hevent) hmem hagain hcreated
      have hwithin := (Tailing.mem_of_mem_window SeqEvent.seq
        (Projector.mem_groupOf.mp hevent).1).2
      rw [hsame] at hwithin
      exact absurd hbehind (not_le.mpr hwithin)
    · obtain ⟨_, _, _, _, _, hothers, _⟩ :=
        hd.project_written_row (fun event hevent => (Projector.mem_groupOf.mp hevent).2) hwritten
      rw [hothers k (Ne.symm hid)]
      exact habsent
  · intro before seq habsent
    rw [hd.table_storePosition]
    exact habsent

theorem Lost.step (hd : Resurrection.ReadModel d) (hlogs : Appends.Logs db) (hgood : d.Good db)
    {action : Coverage.Action} (hallowed : Appends.Allowed db action) (h : Lost d db k) :
    Lost d (Coverage.step tz db action) k := by
  refine ⟨?_, ?_⟩
  · obtain ⟨created, hmem, hcreated, hbehind⟩ := h.behind
    obtain ⟨hevent, hid⟩ := Projector.mem_groupOf.mp hmem
    refine ⟨created, Projector.mem_groupOf.mpr ⟨Coverage.mem_events_step hevent action, hid⟩, hcreated,
      ?_⟩
    have hposition : db.position kind ≤ (Coverage.step tz db action).position kind :=
      Coverage.position_step hlogs.sound action kind
    omega
  · cases action with
    | commit other event =>
        rw [Coverage.step, hd.append]
        exact h.absent
    | failedPoll other => exact h.absent
    | write tables => exact hallowed.elim
    | poll other env =>
        by_cases hkind : other = kind
        · subst hkind
          exact h.projectBatch hd.lawful hlogs (hd.streams hlogs)
        · by_cases haccount : other = .account
          · subst haccount
            refine Table.get_eq_none_iff.mpr fun row hrow => ?_
            exact Table.get_eq_none_iff.mp h.absent row
              ((hd.lawful.good_projectAccounts hgood).2 row hrow)
          · have honly := Dependent.only_projectBatch tz env haccount db
            rw [Coverage.step, hd.lawful.table_only hkind honly]
            exact h.absent

/-- The event created the stream with the account and the nanoid of the row. -/
def Creates (d : Dependent kind Row) (row : Row) (event : SeqEvent kind.Event) : Prop :=
  d.created event.envelope.event = some (d.identity row)

theorem creates_folded (hd : d.Lawful) {existing : Option Row} {row : Row}
    (hentity : d.entity existing group = .ok (some row)) :
    (∃ event ∈ group, Creates d row event) ∨
      ∃ old, existing = some old ∧ ∀ event, Creates d old event → Creates d row event := by
  rcases hd.fold_identity hentity with ⟨old, hexisting, hidentity⟩ | ⟨envelope, henvelope, hcreated⟩
  · refine .inr ⟨old, hexisting, fun event hcreates => ?_⟩
    rw [Creates, hidentity]
    exact hcreates
  · obtain ⟨event, hevent, rfl⟩ := List.mem_map.mp henvelope
    exact .inl ⟨event, (List.mem_filter.mp hevent).1, hcreated⟩

/-- What holds in every state of a run of both read models. -/
structure Inv (db : Db) : Prop where
  base : Resurrection.Inv db
  profiles : Resurrection.Traced profiles (Creates profiles) db
  metadatas : Resurrection.Traced metadatas (Creates metadatas) db

theorem inv_fresh (h : Appends.Fresh db) : Inv db := by
  refine ⟨Resurrection.inv_fresh h, fun row hrow => ?_, fun row hrow => ?_⟩
  · rw [show (Emumet.profiles.table db).rows = [] from h.profiles] at hrow
    cases hrow
  · rw [show (Emumet.metadatas.table db).rows = [] from h.metadatas] at hrow
    cases hrow

theorem Inv.step (h : Inv db) {action : Coverage.Action} (hallowed : Appends.Allowed db action) :
    Inv (Coverage.step tz db action) :=
  ⟨h.base.step hallowed,
    Resurrection.readModel_profiles.traced_step (fun _ => creates_folded profiles_lawful) h.base.logs
      hallowed h.base.profiles h.profiles,
    Resurrection.readModel_metadatas.traced_step (fun _ => creates_folded metadatas_lawful) h.base.logs
      hallowed h.base.metadatas h.metadatas⟩

/-- A stream whose account is closed has no row. -/
theorem absent_of_closed (hd : d.Lawful) (hgood : d.Good db)
    (htraced : Resurrection.Traced d (Creates d) db) (hstream : d.Stream (db.stream kind k))
    {created : SeqEvent kind.Event} (hmem : created ∈ db.stream kind k)
    (hfor : d.createdFor created.envelope.event = some accountId) (hclosed : Closed db accountId) :
    (d.table db).get k = none := by
  by_contra hpresent
  obtain ⟨row, hget⟩ := Option.ne_none_iff_exists'.mp hpresent
  obtain ⟨hrow, rfl⟩ := Table.get_eq_some_iff.mp hget
  obtain ⟨event, hevent, hcreates⟩ := htraced row hrow
  have haccount : d.createdFor event.envelope.event = some (d.accountId row) := by
    rw [Dependent.createdFor, show d.created event.envelope.event = _ from hcreates]
    rfl
  obtain ⟨stored, hstored, hdeleted⟩ := hclosed
  rw [createdFor_unique hd hstream hmem hevent hfor haccount] at hstored
  exact hdeleted (hgood.2 row hrow stored hstored)

/-- The account of a stream is marked deleted, and the creation of the stream is a window or more behind
its reader. -/
def Buried (d : Dependent kind Row) (db : Db) (k : Int) : Prop :=
  ∃ created ∈ db.stream kind k, created.seq ≤ db.position kind - Projector.window ∧
    ∃ accountId, d.createdFor created.envelope.event = some accountId ∧ Closed db accountId

theorem Buried.lost (hd : d.Lawful) (hgood : d.Good db)
    (htraced : Resurrection.Traced d (Creates d) db) (hstream : d.Stream (db.stream kind k))
    (h : Buried d db k) : Lost d db k := by
  obtain ⟨created, hmem, hbehind, accountId, hfor, hclosed⟩ := h
  exact ⟨⟨created, hmem, created_of_createdFor hfor, hbehind⟩,
    absent_of_closed hd hgood htraced hstream hmem hfor hclosed⟩

/-- A profile or a field whose account was deactivated when its creation was a window or more behind the
reader has no row in any later state, also after the account is reactivated. -/
theorem buried_rows_stay_away (tz : Timestamptz) (start : Db) (hfresh : Appends.Fresh start)
    (actions : List Coverage.Action)
    (hallowed : Runs.Along (Coverage.step tz) Appends.Allowed start actions)
    (more : List Coverage.Action) :
    let db := Runs.run (Coverage.step tz) start actions
    Runs.Along (Coverage.step tz) Appends.Allowed db more →
      (∀ k, Buried profiles db k → (Runs.run (Coverage.step tz) db more).profiles.get k = none) ∧
        ∀ k, Buried metadatas db k → (Runs.run (Coverage.step tz) db more).metadatas.get k = none := by
  intro db hmore
  have hinv : Inv db := hallowed.invariant (fun _ _ h hstep => h.step hstep) (inv_fresh hfresh)
  have hlost : ∀ {kind : Aggregate} {Row : Type} {d : Dependent kind Row} {k : Int},
      Resurrection.ReadModel d → (∀ {db}, Inv db → d.Good db) → Lost d db k →
        Lost d (Runs.run (Coverage.step tz) db more) k := by
    intro kind Row d k hd hgood hlost
    have hboth : Inv (Runs.run (Coverage.step tz) db more) ∧
        Lost d (Runs.run (Coverage.step tz) db more) k := by
      refine @Runs.Along.invariant _ _ _ _ (fun db => Inv db ∧ Lost d db k) ?_ _ ⟨hinv, hlost⟩ _ hmore
      rintro before action ⟨hbefore, hlost⟩ hstep
      exact ⟨hbefore.step hstep, hlost.step hd hbefore.base.logs (hgood hbefore) hstep⟩
    exact hboth.2
  refine ⟨fun k hburied => ?_, fun k hburied => ?_⟩
  · exact (hlost Resurrection.readModel_profiles (fun h => h.base.profiles)
      (hburied.lost profiles_lawful hinv.base.profiles hinv.profiles
        (Resurrection.readModel_profiles.streams hinv.base.logs k))).absent
  · exact (hlost Resurrection.readModel_metadatas (fun h => h.base.metadatas)
      (hburied.lost metadatas_lawful hinv.base.metadatas hinv.metadatas
        (Resurrection.readModel_metadatas.streams hinv.base.logs k))).absent

def bobProfile : SeqEvent ProfileEvent :=
  ⟨150, ⟨51, .Created 8 (some "Bob") none none none "bob-profile", 24⟩⟩

/-- The reader of the profiles moves on. -/
def bobAppears : List Coverage.Action :=
  [.commit .profile bobProfile, .poll .profile (Coverage.plainEnv 12)]

/-- The profile was there, and it does not come back with its account. -/
theorem buried_rows_stay_away_aliceReturns :
    let before := Runs.run (Coverage.step .microseconds) registry (aliceAppears ++ bobAppears)
    let db := Runs.run (Coverage.step .microseconds) registry (aliceAppears ++ bobAppears ++ aliceLeaves)
    let after := Runs.run (Coverage.step .microseconds) db aliceReturns
    before.profiles.contains 50 = true ∧ (after.accounts.get 7).map (·.deletedAt) = some none ∧
      after.profiles.get 50 = none := by
  intro before db after
  have hbob : Runs.Along (Coverage.step .microseconds) Appends.Allowed
      (Runs.run (Coverage.step .microseconds) registry aliceAppears) bobAppears :=
    ⟨allowed_commit .profile [aliceProfile] (by decide +kernel)
      ⟨by decide, by decide, by decide, ⟨_, rfl⟩, by decide⟩, trivial, trivial⟩
  have hallowed : Runs.Along (Coverage.step .microseconds) Appends.Allowed registry
      (aliceAppears ++ bobAppears ++ aliceLeaves) :=
    Runs.along_append.mpr ⟨Runs.along_append.mpr ⟨allowed_aliceAppears, hbob⟩,
      allowed_aliceLeaves (by decide +kernel)⟩
  have hdeleted : (db.accounts.get 7).map (·.deletedAt.isSome) = some true := by decide +kernel
  have hburied : Buried profiles db 50 := by
    obtain ⟨row, hget, hclosed⟩ := Option.map_eq_some_iff.mp hdeleted
    exact ⟨aliceProfile, by decide +kernel, by decide +kernel, 7, rfl, row, hget,
      Option.isSome_iff_ne_none.mp hclosed⟩
  exact ⟨by decide +kernel, by decide +kernel, (buried_rows_stay_away .microseconds registry
    fresh_registry _ hallowed aliceReturns (allowed_aliceReturns (by decide +kernel))).1 50 hburied⟩

end Adoption

end Emumet

import Emumet.ProjectorAdoption
import Emumet.ProjectorOwnerLink

/-! Rebuilding the read model from the logs. A row that hangs on an account is written only when the
account is there already; if it is not, the write is rolled back and the position moves on. So a stream
gets its row in the tick that reads its creation after the account was created, if there is one. -/

namespace Emumet

namespace Rebuild

open AccountProjector Adoption

variable {tz : Timestamptz} {env : PollEnv} {db : Db} {id : AccountId}

/-! ### Accounts -/

/-- No account is marked deleted. -/
def Live (db : Db) : Prop := ∀ row ∈ db.accounts.rows, row.deletedAt = none

/-- No account is deactivated. -/
def Undeactivated (events : List (SeqEvent AccountEvent)) : Prop :=
  ∀ event ∈ events, event.envelope.event ≠ .Deactivated

theorem Live.entity (hlive : Live db) {events : List (SeqEvent AccountEvent)}
    (hevents : Undeactivated events) {account : Account}
    (hentity : entity env (decode env.now (db.accounts.get id)) events = .ok (some account)) :
    account.deletedAt = none := by
  refine Account.foldEvents_deletedAt hentity (fun existing hexisting => ?_) fun envelope henvelope => ?_
  · obtain ⟨row, hrow, rfl⟩ := Option.map_eq_some_iff.mp hexisting
    exact hlive row (Table.get_eq_some_iff.mp (Option.filter_eq_some_iff.mp hrow).1).1
  · obtain ⟨event, hevent, rfl⟩ := List.mem_map.mp henvelope
    exact hevents event (List.mem_filter.mp hevent).1

/-- Only accounts, owner links and positions differ. -/
def OnlyAccounts (before after : Db) : Prop :=
  ∃ accounts authEmumetAccounts checkpoints,
    after = { before with accounts, authEmumetAccounts, checkpoints }

/-- Handling an account that is not deactivated leaves the rows that hang on accounts alone. -/
theorem Live.written (hlive : Live db) {events : List (SeqEvent AccountEvent)}
    (hevents : Undeactivated events) {after : Db} {link : Option (AccountId × AuthAccountId)}
    (h : project tz env db id events = .written after link) : Live after ∧ OnlyAccounts db after := by
  rcases project_cases tz env db id events with
    ⟨_, heq⟩ | ⟨account, hentity, _, ⟨result, hwrite, heq⟩ | heq⟩
  · cases heq.symm.trans h
  · cases heq.symm.trans h
    have hdeleted : account.deletedAt = none := hlive.entity hevents hentity
    simp only [write, Fallible.bind_eq_ok, hdeleted, Option.isSome_none, Bool.false_eq_true,
      if_false] at hwrite
    obtain ⟨upserted, hupsert, hrest⟩ := hwrite
    have hupserted : Live upserted ∧ ∃ accounts, upserted = { db with accounts } := by
      simp only [AccountProjectionWriter.upsert, uniqueViolation, reject] at hupsert
      split_ifs at hupsert
      · cases hupsert
        refine ⟨fun row hrow => ?_, _, rfl⟩
        rcases Table.mem_put.mp hrow with rfl | ⟨hbefore, _⟩
        · rw [AccountRow.ofAccount_deletedAt, hdeleted]
          rfl
        · exact hlive row hbefore
      · cases hupsert
        exact ⟨hlive, _, rfl⟩
    obtain ⟨hlive', accounts, rfl⟩ := hupserted
    cases hcreated : createdAuthAccountId events with
    | none =>
        rw [hcreated] at hrest
        cases hrest
        exact ⟨hlive', _, _, _, rfl⟩
    | some authId =>
        rw [hcreated] at hrest
        simp only [AccountReadModel.linkAuthAccount, foreignKeyViolation, reject] at hrest
        split_ifs at hrest
        · cases hrest
          exact ⟨hlive', _, _, _, rfl⟩
        · cases hrest
          exact ⟨hlive', _, _, _, rfl⟩
  · cases heq.symm.trans h

theorem Live.poll (hlive : Live db) (hevents : Undeactivated db.accountEvents) (tz : Timestamptz)
    (env : PollEnv) :
    Live (Aggregate.account.projectBatch tz env db).progress.db ∧
      OnlyAccounts db (Aggregate.account.projectBatch tz env db).progress.db := by
  refine Appends.projectBatch_related (R := fun a b => Live a → Live b ∧ OnlyAccounts a b)
    (fun _ h => ⟨h, _, _, _, rfl⟩) ?_ ?_ ?_ hlive
  · intro a b c hab hbc ha
    obtain ⟨hb, _, _, _, rfl⟩ := hab ha
    obtain ⟨hc, _, _, _, rfl⟩ := hbc hb
    exact ⟨hc, _, _, _, rfl⟩
  · intro before id after link hwritten hbefore
    refine hbefore.written (fun event hevent => ?_) hwritten
    exact hevents event (Tailing.mem_of_mem_window SeqEvent.seq (Projector.mem_groupOf.mp hevent).1).1
  · intro before seq hbefore
    exact ⟨hbefore, _, _, _, rfl⟩

variable {kind : Aggregate} {Row : Type} {d : Dependent kind Row} {k : Int}

theorem OnlyAccounts.table (hd : d.Lawful) {after : Db} (h : OnlyAccounts db after) :
    d.table after = d.table db := by
  obtain ⟨accounts, authEmumetAccounts, checkpoints, rfl⟩ := h
  refine Eq.trans ?_ (hd.table_accounts db accounts authEmumetAccounts)
  exact hd.table_only hd.kind_ne.symm ⟨checkpoints, rfl⟩

/-- There is a row exactly if an event was applied. -/
def Present (_ : PollEnv) (row : Option AccountRow) (events : List (SeqEvent AccountEvent)) : Prop :=
  row = none ↔ events = []

theorem correct_present (tz : Timestamptz) :
    Projection.Correct SeqEvent.id SeqEvent.version (update tz) Present
      (fun events => ∃ entity, Account.fold 0 (events.map SeqEvent.envelope) = .ok entity)
      (fun _ _ _ _ => True) (fun _ _ => True) := by
  constructor
  · exact fun h _ => h
  · rintro before env id row applied overlap new hpresent - hoverlap hne - - ⟨entity, hfold⟩ -
    cases row with
    | some stored =>
        have happlied : applied ≠ [] := fun hnil => by cases hpresent.mpr hnil
        exact ⟨fun hnone => absurd hnone (OwnerLink.updateRow_ne_none stored),
          fun hnil => absurd (List.append_eq_nil_iff.mp hnil).1 happlied⟩
    | none =>
        obtain rfl := hpresent.mp rfl
        obtain rfl := List.suffix_nil.mp hoverlap
        rw [List.nil_append] at hne hfold ⊢
        obtain ⟨account, rfl, _⟩ := Account.foldEvents_ok hfold (by simpa using hne)
        obtain ⟨refolded, hrefolded, _⟩ := Deactivation.foldEvents_agree env.now .none hfold
        have hupdated : update tz env id none new = some (.ofAccount tz refolded) :=
          updateRow_afresh rfl hne hrefolded rfl
        rw [Present, hupdated]
        exact ⟨fun hnone => absurd hnone (Option.some_ne_none _), fun hnil => absurd hnil hne⟩

/-- Rows of accounts are there as soon as an event of theirs was read. -/
def Tracked (db : Db) : Prop :=
  ∀ last, Projection.Tracks SeqEvent.id SeqEvent.seq SeqEvent.version Present db.accountEvents 0
    (projection db last)

theorem Tracked.poll (h : Tracked db) (hlogs : Appends.Logs db)
    (hok : (Aggregate.account.projectBatch tz env db).progress.rolledBack = []) :
    Tracked (Aggregate.account.projectBatch tz env db).progress.db := by
  intro last
  have hevents : (Aggregate.account.projectBatch tz env db).progress.db.accountEvents =
      db.accountEvents := (Aggregate.account.projectBatch_spec tz env db).1 .account
  have hmargin : Projection.Tracks SeqEvent.id SeqEvent.seq SeqEvent.version Present
      db.accountEvents Projector.window (projection db env) := (h env).mono (Int.natCast_nonneg _)
  have hpolled : Projection.Tracks SeqEvent.id SeqEvent.seq SeqEvent.version Present
      db.accountEvents 0 ((projection db env).poll SeqEvent.id SeqEvent.seq SeqEvent.version
        Projector.window Projector.batchLimit (update tz) env) :=
    hmargin.poll (correct_present tz) (by decide) (by decide) (hlogs.streams .account)
      OwnerLink.folds_front trivial (fun _ _ => trivial)
  rw [← projection_projectBatch env hok] at hpolled
  rw [hevents]
  exact ⟨hpolled.sound, hpolled.ordered, hpolled.visible, hpolled.rows⟩

/-- An account is there exactly if its creation was read. -/
theorem Tracked.get_ne_none (h : Tracked db) (hlogs : Appends.Logs db) :
    db.accounts.get id ≠ none ↔ ∃ created ∈ db.accountEvents, created.id = id ∧
      created.envelope.event.isCreated = true ∧ created.seq ≤ db.position .account := by
  obtain ⟨applied, rest, hsplit, hpresent, happlied, hrest⟩ := (h (Coverage.plainEnv 0)).rows id
  have hstream : db.stream .account id = applied ++ rest := hsplit
  constructor
  · intro hget
    have hne : applied ≠ [] := mt hpresent.mpr hget
    have hfold := hlogs.streams .account id
    rw [hstream] at hfold
    obtain ⟨first, later, authId, hcons, hcreated, _⟩ :=
      OwnerLink.exists_created hne (OwnerLink.folds_front hfold)
    have hmem : first ∈ applied := by simp [hcons]
    obtain ⟨hevent, hid⟩ := Projector.mem_groupOf.mp
      (show first ∈ db.stream .account id from hstream ▸ List.mem_append_left _ hmem)
    refine ⟨first, hevent, hid, ?_, happlied first hmem⟩
    by_contra hnot
    rw [OwnerLink.createdBy_eq_none_iff.mpr (by simpa using hnot)] at hcreated
    cases hcreated
  · rintro ⟨created, hevent, hid, _, hread⟩ hget
    have hnil : applied = [] := hpresent.mp hget
    have hmem : created ∈ db.stream .account id := Projector.mem_groupOf.mpr ⟨hevent, hid⟩
    rw [hstream, hnil, List.nil_append] at hmem
    have habove := hrest created hmem
    rw [sub_zero] at habove
    exact absurd hread (not_le.mpr habove)

/-- Among live accounts those that are there are open. -/
theorem Live.open_iff (hlive : Live db) : Open db id ↔ db.accounts.get id ≠ none := by
  constructor
  · rintro ⟨row, hget, _⟩ hnone
    rw [hget] at hnone
    cases hnone
  · intro hget
    obtain ⟨row, hrow⟩ := Option.ne_none_iff_exists'.mp hget
    exact ⟨row, hrow, hlive row (Table.get_eq_some_iff.mp hrow).1⟩

/-! ### Ticks of the worker -/

/-- One tick of the worker: one poll of each projector. -/
structure Tick where
  account : PollEnv
  profile : PollEnv
  metadata : PollEnv

/-- After the account poll. -/
def Tick.accounts (tz : Timestamptz) (db : Db) (t : Tick) : Db :=
  Coverage.step tz db (.poll .account t.account)

/-- After the account and the profile poll. -/
def Tick.profiles (tz : Timestamptz) (db : Db) (t : Tick) : Db :=
  Coverage.step tz (t.accounts tz db) (.poll .profile t.profile)

def tick (tz : Timestamptz) (db : Db) (t : Tick) : Db :=
  Coverage.step tz (t.profiles tz db) (.poll .metadata t.metadata)

/-- The writes of a tick fail only for want of an account. -/
structure Succeeds (tz : Timestamptz) (db : Db) (t : Tick) : Prop where
  accounts : (Aggregate.account.projectBatch tz t.account db).progress.rolledBack = []
  profiles : OnlyOrphans tz profiles t.profile (t.accounts tz db)
  metadatas : OnlyOrphans tz metadatas t.metadata (t.profiles tz db)

/-- A log and the position of its reader after some polls. -/
def reads {Event : Type} (log : Tailing.Log (SeqEvent Event)) (n : Nat) :
    Tailing.Log (SeqEvent Event) :=
  (fun log => (tailingPoll log).1)^[n] log

theorem reads_succ {Event : Type} (log : Tailing.Log (SeqEvent Event)) (n : Nat) :
    reads log (n + 1) = (tailingPoll (reads log n)).1 :=
  Function.iterate_succ_apply' _ n log

/-- The tick reads the creation of the stream, and by then the creation of its account was read. -/
def AdoptedIn (d : Dependent kind Row) (start : Db) (k : Int) (n : Nat) : Prop :=
  ∃ event ∈ (reads (start.log kind) n).batch SeqEvent.seq Projector.window Projector.batchLimit,
    event.id = k ∧ ∃ accountId, d.createdFor event.envelope.event = some accountId ∧
      ∃ created ∈ start.accountEvents, created.id = accountId ∧
        created.envelope.event.isCreated = true ∧
        created.seq ≤ (reads (start.log .account) (n + 1)).position

theorem reads_rows {Event : Type} (log : Tailing.Log (SeqEvent Event)) (n : Nat) :
    (reads log n).rows = log.rows := by
  induction n with
  | zero => rfl
  | succ n ih =>
      rw [reads_succ]
      simp only [Tailing.Log.poll]
      split_ifs
      · exact ih
      · exact ih

theorem adopts_iff {start : Db} {n : Nat} (hlogs : Appends.Logs db) (hlive : Live db)
    (htracked : Tracked db)
    (hlog : db.log kind = reads (start.log kind) n)
    (haccount : db.log .account = reads (start.log .account) (n + 1)) :
    Adopts d db (Projector.groupOf (db.batch kind) k) ↔ AdoptedIn d start k n := by
  have hposition : db.position .account = (reads (start.log .account) (n + 1)).position :=
    congrArg Tailing.Log.position haccount
  have hevents : db.accountEvents = start.accountEvents :=
    (congrArg Tailing.Log.rows haccount).trans (reads_rows _ _)
  simp only [Adopts, AdoptedIn, Projector.mem_groupOf, hlive.open_iff, htracked.get_ne_none hlogs,
    hevents, hposition, Db.batch_eq, hlog, and_assoc]

/-- What holds after some polls of the accounts, the profiles and the metadata. -/
structure After (start db : Db) (a p m : Nat) : Prop where
  logs : Appends.Logs db
  accountLog : db.log .account = reads (start.log .account) a
  profileLog : db.log .profile = reads (start.log .profile) p
  metadataLog : db.log .metadata = reads (start.log .metadata) m
  live : Live db
  tracked : Tracked db
  profiles : ∀ k, Rebuilt profiles db k (∃ i < p, AdoptedIn profiles start k i)
  metadatas : ∀ k, Rebuilt metadatas db k (∃ i < m, AdoptedIn metadatas start k i)

variable {start : Db} {n : Nat}

/-- A stream is adopted before the next tick, or in this one. -/
theorem adopted_succ (d : Dependent kind Row) (start : Db) (k : Int) (n : Nat) :
    (∃ m < n + 1, AdoptedIn d start k m) ↔
      (∃ m < n, AdoptedIn d start k m) ∨ AdoptedIn d start k n := by
  constructor
  · rintro ⟨m, hlt, hadopted⟩
    rcases Nat.lt_succ_iff_lt_or_eq.mp hlt with hlt | rfl
    · exact .inl ⟨m, hlt, hadopted⟩
    · exact .inr hadopted
  · rintro (⟨m, hlt, hadopted⟩ | hadopted)
    · exact ⟨m, hlt.trans (Nat.lt_succ_self n), hadopted⟩
    · exact ⟨n, Nat.lt_succ_self n, hadopted⟩

/-- The polled log moves on, the others stay. -/
theorem log_poll (tz : Timestamptz) (env : PollEnv) (db : Db) (kind : Aggregate) :
    (Coverage.step tz db (.poll kind env)).log kind = (tailingPoll (db.log kind)).1 ∧
      ∀ other, other ≠ kind → (Coverage.step tz db (.poll kind env)).log other = db.log other := by
  obtain ⟨hevents, hlog, hothers, _⟩ := kind.projectBatch_spec tz env db
  refine ⟨hlog, fun other hother => ?_⟩
  simp only [Coverage.step, Db.log, hevents other, hothers other hother]

theorem tracked_congr {after : Db} (h : Tracked db) (hlog : after.log .account = db.log .account)
    (haccounts : after.accounts = db.accounts) : Tracked after := by
  intro last
  have hevents : after.accountEvents = db.accountEvents := congrArg Tailing.Log.rows hlog
  have hsame : projection after last = projection db last := by
    simp only [projection, hlog, haccounts]
  rw [hsame, hevents]
  exact h last

/-- The poll of a dependent projector in a tick. -/
theorem rebuilt_poll (hd : d.Lawful) (hlogs : Appends.Logs db)
    (hstreams : ∀ id, d.Stream (db.stream kind id)) (hlive : Live db) (htracked : Tracked db)
    (hlog : db.log kind = reads (start.log kind) n)
    (haccount : db.log .account = reads (start.log .account) (n + 1))
    (horphans : OnlyOrphans tz d env db)
    (h : Rebuilt d db k (∃ m < n, AdoptedIn d start k m)) :
    Rebuilt d (Coverage.step tz db (.poll kind env)) k (∃ m < n + 1, AdoptedIn d start k m) := by
  refine (h.poll hd hlogs hstreams horphans).congr ?_
  rw [adopted_succ, adopts_iff hlogs hlive htracked hlog haccount]

theorem After.account (h : After start db n n n) (hundeactivated : Undeactivated start.accountEvents)
    (hok : (Aggregate.account.projectBatch tz env db).progress.rolledBack = []) :
    After start (Coverage.step tz db (.poll .account env)) (n + 1) n n := by
  have hundeactivated' : Undeactivated db.accountEvents := by
    rw [show db.accountEvents = start.accountEvents from
      (congrArg Tailing.Log.rows h.accountLog).trans (reads_rows _ _)]
    exact hundeactivated
  obtain ⟨hlog, hothers⟩ := log_poll tz env db .account
  have hlogs : Appends.Logs (Coverage.step tz db (.poll .account env)) := h.logs.step trivial
  have htracked : Tracked (Coverage.step tz db (.poll .account env)) := h.tracked.poll h.logs hok
  have hpolled : Live (Coverage.step tz db (.poll .account env)) ∧
      OnlyAccounts db (Coverage.step tz db (.poll .account env)) :=
    h.live.poll hundeactivated' tz env
  obtain ⟨hlive, honly⟩ := hpolled
  -- an account that is there stays
  have hkept : ∀ accountId, Open db accountId →
      Open (Coverage.step tz db (.poll .account env)) accountId := by
    intro accountId
    rw [h.live.open_iff, hlive.open_iff, h.tracked.get_ne_none h.logs, htracked.get_ne_none hlogs]
    rintro ⟨created, hmem, hid, hcreated, hread⟩
    have hmem' : created ∈ (Coverage.step tz db (.poll .account env)).events .account :=
      Coverage.mem_events_step hmem _
    exact ⟨created, hmem', hid, hcreated,
      hread.trans (Coverage.position_step h.logs.sound (.poll .account env) .account)⟩
  have hprofileLog := hothers .profile (by decide)
  have hmetadataLog := hothers .metadata (by decide)
  exact ⟨hlogs, by rw [hlog, h.accountLog, reads_succ], hprofileLog.trans h.profileLog,
    hmetadataLog.trans h.metadataLog, hlive, htracked,
    fun k => (h.profiles k).transfer hkept hprofileLog (honly.table profiles_lawful),
    fun k => (h.metadatas k).transfer hkept hmetadataLog (honly.table metadatas_lawful)⟩

theorem After.profile (h : After start db (n + 1) n n)
    (horphans : OnlyOrphans tz Emumet.profiles env db) :
    After start (Coverage.step tz db (.poll .profile env)) (n + 1) (n + 1) n := by
  obtain ⟨hlog, hothers⟩ := log_poll tz env db .profile
  have honly : Aggregate.profile.Only db (Coverage.step tz db (.poll .profile env)) :=
    profiles_lawful.only_projectBatch db
  have haccounts := honly.accounts
  have hmetadataLog := hothers .metadata (by decide)
  refine ⟨h.logs.step trivial, (hothers .account (by decide)).trans h.accountLog,
    by rw [hlog, h.profileLog, reads_succ], hmetadataLog.trans h.metadataLog, ?_,
    tracked_congr h.tracked (hothers .account (by decide)) haccounts, fun k => ?_, fun k => ?_⟩
  · rw [Live, haccounts]
    exact h.live
  · exact rebuilt_poll profiles_lawful h.logs (Resurrection.readModel_profiles.streams h.logs) h.live
      h.tracked h.profileLog h.accountLog horphans (h.profiles k)
  · refine (h.metadatas k).transfer (fun accountId => ?_) hmetadataLog
      (metadatas_lawful.table_only (by decide) honly)
    rw [Open, Open, haccounts]
    exact fun hget => hget

theorem After.metadata (h : After start db (n + 1) (n + 1) n)
    (horphans : OnlyOrphans tz Emumet.metadatas env db) :
    After start (Coverage.step tz db (.poll .metadata env)) (n + 1) (n + 1) (n + 1) := by
  obtain ⟨hlog, hothers⟩ := log_poll tz env db .metadata
  have honly : Aggregate.metadata.Only db (Coverage.step tz db (.poll .metadata env)) :=
    metadatas_lawful.only_projectBatch db
  have haccounts := honly.accounts
  have hprofileLog := hothers .profile (by decide)
  refine ⟨h.logs.step trivial, (hothers .account (by decide)).trans h.accountLog,
    hprofileLog.trans h.profileLog, by rw [hlog, h.metadataLog, reads_succ], ?_,
    tracked_congr h.tracked (hothers .account (by decide)) haccounts, fun k => ?_, fun k => ?_⟩
  · rw [Live, haccounts]
    exact h.live
  · refine (h.profiles k).transfer (fun accountId => ?_) hprofileLog
      (profiles_lawful.table_only (by decide) honly)
    rw [Open, Open, haccounts]
    exact fun hget => hget
  · exact rebuilt_poll metadatas_lawful h.logs (Resurrection.readModel_metadatas.streams h.logs) h.live
      h.tracked h.metadataLog h.accountLog horphans (h.metadatas k)

theorem After.tick (h : After start db n n n) (hundeactivated : Undeactivated start.accountEvents)
    {t : Tick} (hsucceeds : Succeeds tz db t) :
    After start (tick tz db t) (n + 1) (n + 1) (n + 1) :=
  ((h.account hundeactivated hsucceeds.accounts).profile hsucceeds.profiles).metadata
    hsucceeds.metadatas

/-! ### The rebuilt read model -/

/-- Logs and nothing projected from them. -/
structure Unprojected (db : Db) : Prop where
  logs : Appends.Logs db
  checkpoints : ∀ kind, db.checkpoints kind = none
  accounts : db.accounts.rows = []
  profiles : db.profiles.rows = []
  metadatas : db.metadatas.rows = []

theorem after_start (h : Unprojected start) : After start start 0 0 0 := by
  have hget : ∀ {κ ρ : Type} [DecidableEq κ] {key : ρ → κ} (t : Table key), t.rows = [] →
      ∀ k, t.get k = none := by
    intro κ ρ _ key t hrows k
    refine Table.get_eq_none_iff.mpr fun row hrow => ?_
    rw [hrows] at hrow
    cases hrow
  have hposition : (start.log .account).position = 0 := by
    rw [Tailing.Log.position, Db.log, h.checkpoints]
    rfl
  refine ⟨h.logs, rfl, rfl, rfl, fun row hrow => ?_, fun last => ?_, fun k => ?_, fun k => ?_⟩
  · rw [h.accounts] at hrow
    cases hrow
  · refine ⟨h.logs.sound .account, h.logs.ordered .account, fun k => List.prefix_rfl, fun k => ?_⟩
    refine ⟨[], _, rfl, ⟨fun _ => rfl, fun _ => hget start.accounts h.accounts k⟩, by simp, ?_⟩
    intro event hevent
    have hpositive := (h.logs.sound .account).positive event (Projection.mem_stream.mp hevent).1
    rw [show (projection start last).log.position = 0 from hposition]
    simpa using hpositive
  · exact ⟨fun hadopted => by simp at hadopted, fun hadopted => by simp at hadopted,
      fun _ => hget start.profiles h.profiles k⟩
  · exact ⟨fun hadopted => by simp at hadopted, fun hadopted => by simp at hadopted,
      fun _ => hget start.metadatas h.metadatas k⟩

/-- Every stream that folds to a row has that row. -/
def Restored (d : Dependent kind Row) (start db : Db) : Prop :=
  ∀ k row, foldEvents d.apply none ((start.stream kind k).map SeqEvent.envelope) = .ok (some row) →
    (d.table db).get k = some row

/-- Every stream that folds to a row is adopted by some tick. -/
def Timely (d : Dependent kind Row) (start : Db) : Prop :=
  ∀ k row, foldEvents d.apply none ((start.stream kind k).map SeqEvent.envelope) = .ok (some row) →
    ∃ n, AdoptedIn d start k n

/-- A reader that does not move does not move later. -/
theorem reads_of_le {Event : Type} {log : Tailing.Log (SeqEvent Event)} {n m : Nat}
    (hstays : (tailingPoll (reads log n)).1 = reads log n) (hle : n ≤ m) : reads log m = reads log n := by
  induction m, hle using Nat.le_induction with
  | base => rfl
  | succ m _ ih => rw [reads_succ, ih, hstays]

/-- When nothing is left to read, rows are restored exactly if streams are adopted. -/
theorem restored_iff (hlogs : Appends.Logs db) (hlog : db.log kind = reads (start.log kind) (n + 1))
    (hstays : (tailingPoll (db.log kind)).1 = db.log kind)
    (hrest : reads (start.log kind) (n + 1) = reads (start.log kind) n)
    (haccount : (tailingPoll (reads (start.log .account) n)).1 = reads (start.log .account) n)
    (hrebuilt : ∀ k, Rebuilt d db k (∃ m < n + 1, AdoptedIn d start k m)) :
    Restored d start db ↔ Timely d start := by
  have hdrained : ∀ event ∈ (db.log kind).rows, event.seq ≤ (db.log kind).position :=
    fun event hevent => (hlogs.sound kind).drained (by decide) (by decide)
      (congrArg Tailing.Log.position hstays) hevent
  have hread : ∀ k, readOf db kind k = start.stream kind k := by
    intro k
    refine (Projection.read_eq_stream hdrained k).trans ?_
    rw [hlog, reads_rows]
    rfl
  constructor
  · intro hrestored k row hfold
    by_contra hnever
    have habsent := (hrebuilt k).absent (by
      rintro ⟨m, _, hadopted⟩
      exact hnever ⟨m, hadopted⟩)
    rw [hrestored k row hfold] at habsent
    cases habsent
  · intro htimely k row hfold
    obtain ⟨m, hadopted⟩ := htimely k row hfold
    have hbounded : ∃ m < n + 1, AdoptedIn d start k m := by
      rcases Nat.lt_or_ge m (n + 1) with hlt | hge
      · exact ⟨m, hlt, hadopted⟩
      · -- from here on every tick is the same
        refine ⟨n, Nat.lt_succ_self n, ?_⟩
        have hle : n ≤ m := (Nat.le_succ n).trans hge
        have hkind := reads_of_le ((reads_succ (start.log kind) n).symm.trans hrest) hle
        have hthen := reads_of_le haccount (hle.trans (Nat.le_succ m))
        have hnow := reads_of_le haccount (Nat.le_succ n)
        rw [AdoptedIn, hkind, hthen] at hadopted
        rw [AdoptedIn, hnow]
        exact hadopted
    have hrow := (hrebuilt k).row hbounded
    rw [hread, hfold] at hrow
    exact (Except.ok.inj hrow).symm

theorem after_run {ticks : List Tick} (h : After start db n n n)
    (hundeactivated : Undeactivated start.accountEvents)
    (hsucceeds : Runs.Along (tick tz) (Succeeds tz) db ticks) :
    After start (Runs.run (tick tz) db ticks) (n + ticks.length) (n + ticks.length)
      (n + ticks.length) := by
  induction ticks generalizing db n with
  | nil => exact h
  | cons t ticks ih =>
      have hrest := ih (h.tick hundeactivated hsucceeds.1) hsucceeds.2
      rw [Nat.add_right_comm] at hrest
      exact hrest

/-- Ticks that go on until no poll changes anything leave every profile stream and every field that is
not deleted with the row it folds to exactly if for each of them there is a tick that reads its creation
when the creation of its account was read before. -/
theorem read_model_rebuilt_iff (tz : Timestamptz) (start : Db) (hstart : Unprojected start)
    (hundeactivated : Undeactivated start.accountEvents) (ticks : List Tick) (last : Tick)
    (hsucceeds : Runs.Along (tick tz) (Succeeds tz) start (ticks ++ [last])) :
    let db := Runs.run (tick tz) start ticks
    last.accounts tz db = db → last.profiles tz db = db → tick tz db last = db →
      (Restored profiles start db ∧ Restored metadatas start db ↔
        Timely profiles start ∧ Timely metadatas start) := by
  intro db haccounts hprofiles hmetadatas
  obtain ⟨hticks, hlast, _⟩ := Runs.along_append.mp hsucceeds
  have hafter : After start db ticks.length ticks.length ticks.length := by
    have hrun := after_run (after_start hstart) hundeactivated hticks
    rw [Nat.zero_add] at hrun
    exact hrun
  have hagain : After start db (ticks.length + 1) (ticks.length + 1) (ticks.length + 1) :=
    hmetadatas ▸ hafter.tick hundeactivated hlast
  have hstaysAccount : (tailingPoll (db.log .account)).1 = db.log .account := by
    rw [← (log_poll tz last.account db .account).1]
    exact congrArg (Db.log · .account) haccounts
  have hstaysProfile : (tailingPoll (db.log .profile)).1 = db.log .profile := by
    rw [← (log_poll tz last.profile db .profile).1]
    rw [Tick.profiles, haccounts] at hprofiles
    exact congrArg (Db.log · .profile) hprofiles
  have hstaysMetadata : (tailingPoll (db.log .metadata)).1 = db.log .metadata := by
    rw [← (log_poll tz last.metadata db .metadata).1]
    rw [tick, hprofiles] at hmetadatas
    exact congrArg (Db.log · .metadata) hmetadatas
  have haccount : (tailingPoll (reads (start.log .account) ticks.length)).1 =
      reads (start.log .account) ticks.length := by
    rw [← hafter.accountLog]
    exact hstaysAccount
  refine and_congr ?_ ?_
  · exact restored_iff hagain.logs hagain.profileLog hstaysProfile
      (hagain.profileLog.symm.trans hafter.profileLog) haccount hagain.profiles
  · exact restored_iff hagain.logs hagain.metadataLog hstaysMetadata
      (hagain.metadataLog.symm.trans hafter.metadataLog) haccount hagain.metadatas

/-! ### Two accounts -/

/-- A poll of the accounts that leaves their table, the links and its position alone changes nothing. -/
theorem account_poll_eq (hlive : Live db) (hevents : Undeactivated db.accountEvents)
    (haccounts : (Coverage.step tz db (.poll .account env)).accounts.rows = db.accounts.rows)
    (hlinks : (Coverage.step tz db (.poll .account env)).authEmumetAccounts = db.authEmumetAccounts)
    (hposition : (Coverage.step tz db (.poll .account env)).checkpoints .account =
      db.checkpoints .account) :
    Coverage.step tz db (.poll .account env) = db := by
  have hcheckpoints : (Coverage.step tz db (.poll .account env)).checkpoints = db.checkpoints := by
    funext kind
    by_cases hkind : kind = .account
    · rw [hkind, hposition]
    · exact (Aggregate.account.projectBatch_spec tz env db).2.2.1 kind hkind
  have hpoll : OnlyAccounts db (Coverage.step tz db (.poll .account env)) :=
    (hlive.poll hevents tz env).2
  obtain ⟨accounts, links, checkpoints, hpoll⟩ := hpoll
  rw [hpoll] at haccounts hlinks hcheckpoints ⊢
  obtain rfl := Table.eq_of_rows haccounts
  obtain rfl : links = db.authEmumetAccounts := hlinks
  obtain rfl : checkpoints = db.checkpoints := hcheckpoints
  rfl

theorem profile_poll_eq
    (hprofiles : (Coverage.step tz db (.poll .profile env)).profiles.rows = db.profiles.rows)
    (hposition : (Coverage.step tz db (.poll .profile env)).checkpoints .profile =
      db.checkpoints .profile) :
    Coverage.step tz db (.poll .profile env) = db := by
  have hcheckpoints : (Coverage.step tz db (.poll .profile env)).checkpoints = db.checkpoints := by
    funext kind
    by_cases hkind : kind = .profile
    · rw [hkind, hposition]
    · exact (Aggregate.profile.projectBatch_spec tz env db).2.2.1 kind hkind
  have hpoll : Aggregate.profile.Only db (Coverage.step tz db (.poll .profile env)) :=
    profiles_lawful.only_projectBatch db
  obtain ⟨profiles, checkpoints, hpoll⟩ := hpoll
  rw [hpoll] at hprofiles hcheckpoints ⊢
  obtain rfl := Table.eq_of_rows hprofiles
  obtain rfl : checkpoints = db.checkpoints := hcheckpoints
  rfl

def plainTick : Tick := ⟨Coverage.plainEnv 10, Coverage.plainEnv 10, Coverage.plainEnv 10⟩

def aliceCreated : SeqEvent AccountEvent := ⟨1, ⟨7, .Created "alice" true "alice-nanoid" 3, 1⟩⟩

def bobCreated : SeqEvent AccountEvent := ⟨2, ⟨8, .Created "bob" false "bob-nanoid" 4, 2⟩⟩

def bobProfile : SeqEvent ProfileEvent := ⟨1, ⟨50, .Created 8 none none none none "bob-profile", 1⟩⟩

def owners : Db := { Db.empty with authAccounts := [3, 4] }

/-- Two accounts, one of them with a profile. -/
def twoAccounts : Db :=
  Coverage.append (Coverage.append (Coverage.append owners .account aliceCreated) .account bobCreated)
    .profile bobProfile

theorem unprojected_twoAccounts : Unprojected twoAccounts := by
  refine ⟨?_, fun _ => rfl, rfl, rfl, rfl⟩
  have hfresh : Appends.Fresh owners :=
    ⟨fun kind => by cases kind <;> rfl, fun _ => rfl, rfl, rfl, rfl⟩
  have halice : Appends.Logs (Coverage.step .microseconds owners (.commit .account aliceCreated)) :=
    hfresh.logs.step ⟨by decide, by decide, by decide, ⟨_, rfl⟩⟩
  have hbob : Appends.Logs (Coverage.step .microseconds _ (.commit .account bobCreated)) :=
    halice.step ⟨by decide, by decide, by decide, ⟨_, rfl⟩⟩
  have hprofile : Appends.Logs (Coverage.step .microseconds _ (.commit .profile bobProfile)) :=
    hbob.step ⟨by decide, by decide, by decide, ⟨_, rfl⟩, .cons (by decide) .nil⟩
  exact hprofile

theorem undeactivated_twoAccounts : Undeactivated twoAccounts.accountEvents := by
  intro event hevent
  rcases List.mem_cons.mp hevent with rfl | hevent
  · simp [bobCreated]
  · rw [List.mem_singleton.mp hevent]
    simp [aliceCreated]

/-- The writes of a tick succeed if none of its polls rolls back a write. -/
theorem Succeeds.of_rolledBack {t : Tick}
    (haccounts : (Aggregate.account.projectBatch tz t.account db).progress.rolledBack = [])
    (hprofiles : (Aggregate.profile.projectBatch tz t.profile (t.accounts tz db)).progress.rolledBack = [])
    (hmetadatas : (Aggregate.metadata.projectBatch tz t.metadata (t.profiles tz db)).progress.rolledBack =
      []) : Succeeds tz db t := by
  refine ⟨haccounts, fun k hk => ?_, fun k hk => ?_⟩
  · rw [hprofiles] at hk
    cases hk
  · rw [hmetadatas] at hk
    cases hk

/-- One tick restores the profile, and the next one changes nothing. -/
theorem read_model_rebuilt_twoAccounts :
    let db := Runs.run (tick .microseconds) twoAccounts [plainTick]
    tick .microseconds db plainTick = db ∧ Restored profiles twoAccounts db ∧
      (db.profiles.get 50).map (·.nanoid) = some "bob-profile" := by
  intro db
  have hsucceeds : Runs.Along (tick .microseconds) (Succeeds .microseconds) twoAccounts
      [plainTick, plainTick] :=
    ⟨.of_rolledBack (by decide +kernel) (by decide +kernel) (by decide +kernel),
      .of_rolledBack (by decide +kernel) (by decide +kernel) (by decide +kernel), trivial⟩
  have hevents : db.accountEvents = twoAccounts.accountEvents := by decide +kernel
  have haccounts : plainTick.accounts .microseconds db = db :=
    account_poll_eq (by rw [Live]; decide +kernel) (hevents ▸ undeactivated_twoAccounts)
      (by decide +kernel) (by decide +kernel) (by decide +kernel)
  have hprofiles : plainTick.profiles .microseconds db = db := by
    rw [Tick.profiles, haccounts]
    exact profile_poll_eq (by decide +kernel) (by decide +kernel)
  have htick : tick .microseconds db plainTick = db := by
    rw [tick, hprofiles, Coverage.step, Aggregate.projectBatch_of_nil (by decide +kernel)]
  have hprofile : Timely profiles twoAccounts := by
    intro k row hfold
    obtain rfl : 50 = k := by
      by_contra hne
      rw [show twoAccounts.stream .profile k = [] from Projection.stream_cons_of_ne hne] at hfold
      cases hfold
    exact ⟨0, bobProfile, by decide +kernel, rfl, 8, rfl, bobCreated, .head _, rfl, rfl,
      by decide +kernel⟩
  have hmetadata : Timely metadatas twoAccounts := by
    intro k row hfold
    cases hfold
  exact ⟨htick, ((read_model_rebuilt_iff .microseconds twoAccounts unprojected_twoAccounts
    undeactivated_twoAccounts [plainTick] plainTick hsucceeds haccounts hprofiles htick).mpr
      ⟨hprofile, hmetadata⟩).1, by decide +kernel⟩

end Rebuild

end Emumet

import Emumet.LibRuns
import Emumet.ProjectorCoverage
import Emumet.ServiceAccountDetail

/-! Concurrent updates of one profile under READ COMMITTED. A transaction appends an event without an
expected version, reloads the stream it can see, which is what is committed and its own event, and
overwrites the row with what that folds to. The overwrite looks at no version, so a transaction that
reloaded before another one committed an older event drops that event from the row, and the projector,
which reads events newer than the row, does not bring it back. -/

namespace Emumet

namespace ProfileRace

/-! ### The machine -/

/-- What one transaction sets, and the values it draws. -/
structure Update where
  displayName : FieldAction String
  summary : FieldAction String
  icon : FieldAction ImageId
  banner : FieldAction ImageId
  stamp : Stamp

def Update.isUnchanged (update : Update) : Bool :=
  update.displayName.isUnchanged && update.summary.isUnchanged && update.icon.isUnchanged &&
    update.banner.isUnchanged

def Update.command (update : Update) (id : ProfileId) : CommandEnvelope ProfileEvent :=
  Profile.update id update.displayName update.summary update.icon update.banner

inductive Phase where
  | idle
  | appended (row : SeqEvent ProfileEvent)
  | reloaded (row : SeqEvent ProfileEvent) (profile : Profile)
  | committed
  | failed (report : Report)
  deriving DecidableEq

/-- The event a transaction has inserted and not committed. -/
def Phase.uncommitted : Phase → Option (SeqEvent ProfileEvent)
  | .appended row => some row
  | .reloaded row _ => some row
  | _ => none

/-- What is committed, and how far each transaction is. -/
structure State (ι : Type) where
  db : Db
  phase : ι → Phase

/-- The statements of the transactions, polls of the profile projector, and events of other profiles
becoming visible. The `UPDATE` of the row and the `COMMIT` are one step: the row is locked from one to
the other, so nothing else writes it in between and nothing reads what was written. -/
inductive Action (ι : Type) where
  | append (i : ι)
  | reload (i : ι)
  | commit (i : ι)
  | poll (env : PollEnv)
  | elsewhere (event : SeqEvent ProfileEvent)

/-- The committed data with the event of the transaction itself. -/
def visible (db : Db) (row : SeqEvent ProfileEvent) : Db :=
  { db with profileEvents := row :: db.profileEvents }

def append (id : ProfileId) (update : Update) (db : Db) : Phase :=
  if update.isUnchanged then .committed
  else
    match ProfileEventStore.persistInternal db.profileEvents (update.command id) update.stamp.version
        update.stamp.seq with
    | .ok row => .appended row
    | .error report => .failed report

def reload (id : ProfileId) (row : SeqEvent ProfileEvent) (db : Db) : Phase :=
  match ProfileRepository.load (visible db row) id with
  | .ok rehydrated => .reloaded row rehydrated.aggregate
  | .error report => .failed report

variable {ι : Type} [DecidableEq ι]

def State.setPhase (s : State ι) (i : ι) (phase : Phase) : State ι :=
  { s with phase := Function.update s.phase i phase }

/-- Before any of the transactions has run. -/
def State.start (db : Db) : State ι := ⟨db, fun _ => .idle⟩

def commit (i : ι) (row : SeqEvent ProfileEvent) (profile : Profile) (s : State ι) : State ι :=
  match ProfileReadModel.update (visible s.db row) profile with
  | .ok db => { s.setPhase i .committed with db }
  | .error report => s.setPhase i (.failed report)

/-- A failed statement rolls its transaction back. -/
def step (id : ProfileId) (updates : ι → Update) (s : State ι) : Action ι → State ι
  | .append i =>
      match s.phase i with
      | .idle => s.setPhase i (append id (updates i) s.db)
      | _ => s
  | .reload i =>
      match s.phase i with
      | .appended row => s.setPhase i (reload id row s.db)
      | _ => s
  | .commit i =>
      match s.phase i with
      | .reloaded row profile => commit i row profile s
      | _ => s
  | .poll env => { s with db := (ProfileProjector.projectBatch env s.db).progress.db }
  | .elsewhere event => if event.id = id then s else { s with db := visible s.db event }

@[simp] theorem phase_setPhase (s : State ι) (i j : ι) (phase : Phase) :
    (s.setPhase i phase).phase j = if j = i then phase else s.phase j := by
  simp [State.setPhase, Function.update_apply]

@[simp] theorem db_setPhase (s : State ι) (i : ι) (phase : Phase) : (s.setPhase i phase).db = s.db :=
  rfl

/-- The statements of the use case. -/
theorem updateProfile_eq {call : Call} {update : Update} (hstamp : call.profileStamp = update.stamp)
    (id : ProfileId) (db : Db) :
    updateProfile call id update.displayName update.summary update.icon update.banner db =
      if update.isUnchanged then .ok db
      else
        ProfileEventStore.persistInternal db.profileEvents (update.command id) update.stamp.version
            update.stamp.seq >>= fun row =>
          ProfileRepository.load (visible db row) id >>= fun rehydrated =>
            ProfileReadModel.update (visible db row) rehydrated.aggregate := by
  simp only [updateProfile, ProfileRepository.save, hstamp, bind_assoc, pure_bind]
  rfl

/-- Run on its own, a transaction does what the use case does. -/
theorem run_alone (id : ProfileId) (updates : ι → Update) (i : ι) (call : Call) (db : Db)
    (hstamp : call.profileStamp = (updates i).stamp) :
    let s := Runs.run (step id updates) (.start db) [.append i, .reload i, .commit i]
    match updateProfile call id (updates i).displayName (updates i).summary (updates i).icon
        (updates i).banner db with
    | .ok after => s.phase i = .committed ∧ s.db = after
    | .error report => s.phase i = .failed report ∧ s.db = db := by
  simp only [Runs.run_cons, Runs.run_nil, updateProfile_eq hstamp]
  cases hunchanged : (updates i).isUnchanged with
  | true => simp [step, State.start, append, hunchanged]
  | false =>
      cases hrow : ProfileEventStore.persistInternal db.profileEvents ((updates i).command id)
          (updates i).stamp.version (updates i).stamp.seq with
      | error report => simp [step, State.start, append, hunchanged, hrow, bind, Except.bind]
      | ok row =>
          cases hload : ProfileRepository.load (visible db row) id with
          | error report =>
              simp [step, State.start, append, reload, hunchanged, hrow, hload, bind, Except.bind]
          | ok rehydrated =>
              cases hupdate : ProfileReadModel.update (visible db row) rehydrated.aggregate <;>
                simp [step, State.start, append, reload, commit, hunchanged, hrow, hload, hupdate,
                  bind, Except.bind]

/-! ### Reloading in version order -/

/-- The row is what the committed events of the profile fold to, in version order. -/
def RowIsFold (id : ProfileId) (db : Db) : Prop :=
  ∃ profile, Profile.fold (EventStore.findById db.profileEvents id none) = .ok (some profile) ∧
    db.profiles.get id = some profile

/-- A version that is drawn is above those of the profile's events, committed or not. -/
def VersionsIncrease (id : ProfileId) (updates : ι → Update) (s : State ι) : Action ι → Prop
  | .append i =>
      (∀ event ∈ s.db.profileEvents, event.id = id → event.version < (updates i).stamp.version) ∧
        ∀ j, ∀ row ∈ (s.phase j).uncommitted, row.version < (updates i).stamp.version
  | _ => True

/-- A transaction reloads when the uncommitted events of all others are newer than its own. -/
def OldestReloads (s : State ι) : Action ι → Prop
  | .reload i => ∀ j, j ≠ i → ∀ row ∈ (s.phase i).uncommitted,
      ∀ other ∈ (s.phase j).uncommitted, row.version < other.version
  | _ => True

instance [Fintype ι] (id : ProfileId) (updates : ι → Update) (s : State ι) :
    ∀ action, Decidable (VersionsIncrease id updates s action)
  | .append i => inferInstanceAs (Decidable
      ((∀ event ∈ s.db.profileEvents, event.id = id → event.version < (updates i).stamp.version) ∧
        ∀ j, ∀ row ∈ (s.phase j).uncommitted, row.version < (updates i).stamp.version))
  | .reload _ | .commit _ | .poll _ | .elsewhere _ => isTrue trivial

instance [Fintype ι] (s : State ι) : ∀ action, Decidable (OldestReloads s action)
  | .reload i => inferInstanceAs (Decidable (∀ j, j ≠ i → ∀ row ∈ (s.phase i).uncommitted,
      ∀ other ∈ (s.phase j).uncommitted, row.version < other.version))
  | .append _ | .commit _ | .poll _ | .elsewhere _ => isTrue trivial

omit [DecidableEq ι] in
/-- What holds between steps when transactions reload in version order. -/
structure Serial (id : ProfileId) (s : State ι) : Prop where
  row : RowIsFold id s.db
  updated : ∀ i, ∀ row ∈ (s.phase i).uncommitted, row.id = id ∧
    ∃ displayName summary icon banner, row.envelope.event = .Updated displayName summary icon banner
  /-- Uncommitted events are newer than the committed ones. -/
  newer : ∀ i, ∀ row ∈ (s.phase i).uncommitted, ∀ event ∈ s.db.profileEvents, event.id = id →
    event.version < row.version
  /-- What a transaction has reloaded is still what it would reload, and it is the next to commit. -/
  reloaded : ∀ i row profile, s.phase i = .reloaded row profile →
    Profile.fold (EventStore.findById (visible s.db row).profileEvents id none) =
        .ok (some profile) ∧
      ∀ j, j ≠ i → ∀ other ∈ (s.phase j).uncommitted, row.version < other.version

variable {id : ProfileId} {updates : ι → Update} {s : State ι} {i : ι}

omit [DecidableEq ι] in
theorem Serial.start {db : Db} (h : RowIsFold id db) : Serial id (State.start db : State ι) := by
  refine ⟨h, ?_, ?_, ?_⟩
  · intro i row hrow
    cases hrow
  · intro i row hrow
    cases hrow
  · intro i row profile hphase
    cases hphase

/-- A transaction that ends without an event of its own. -/
theorem Serial.leave (h : Serial id s) {phase : Phase} (hphase : phase.uncommitted = none) :
    Serial id (s.setPhase i phase) := by
  have hkept : ∀ j, ∀ row ∈ ((s.setPhase i phase).phase j).uncommitted,
      row ∈ (s.phase j).uncommitted := by
    intro j row hrow
    by_cases hj : j = i
    · simp [hj, hphase] at hrow
    · simpa [hj] using hrow
  refine ⟨h.row, fun j row hrow => h.updated j row (hkept j row hrow),
    fun j row hrow => h.newer j row (hkept j row hrow), ?_⟩
  intro j row profile hj
  have hne : j ≠ i := by
    rintro rfl
    rw [phase_setPhase, if_pos rfl] at hj
    rw [hj] at hphase
    cases hphase
  rw [phase_setPhase, if_neg hne] at hj
  obtain ⟨hfold, hnext⟩ := h.reloaded j row profile hj
  exact ⟨hfold, fun k hk other hother => hnext k hk other (hkept k other hother)⟩

/-- A transaction that holds an uncommitted event: what it has reloaded is current, and those that
have reloaded before it hold older events. -/
theorem Serial.hold (h : Serial id s) {phase : Phase} {row : SeqEvent ProfileEvent}
    (hphase : phase.uncommitted = some row)
    (hupdated : row.id = id ∧ ∃ displayName summary icon banner,
      row.envelope.event = .Updated displayName summary icon banner)
    (hnewer : ∀ event ∈ s.db.profileEvents, event.id = id → event.version < row.version)
    (hreloaded : ∀ profile, phase = .reloaded row profile →
      Profile.fold (EventStore.findById (visible s.db row).profileEvents id none) =
          .ok (some profile) ∧
        ∀ j, j ≠ i → ∀ other ∈ (s.phase j).uncommitted, row.version < other.version)
    (hbehind : ∀ j, j ≠ i → ∀ other profile, s.phase j = .reloaded other profile →
      other.version < row.version) : Serial id (s.setPhase i phase) := by
  have hkept : ∀ j, ∀ other ∈ ((s.setPhase i phase).phase j).uncommitted,
      (j = i ∧ other = row) ∨ (j ≠ i ∧ other ∈ (s.phase j).uncommitted) := by
    intro j other hother
    by_cases hj : j = i
    · rw [phase_setPhase, if_pos hj, hphase] at hother
      exact Or.inl ⟨hj, (Option.mem_some.mp hother).symm⟩
    · rw [phase_setPhase, if_neg hj] at hother
      exact Or.inr ⟨hj, hother⟩
  refine ⟨h.row, ?_, ?_, ?_⟩
  · intro j other hother
    obtain ⟨_, rfl⟩ | ⟨_, hother⟩ := hkept j other hother
    · exact hupdated
    · exact h.updated j other hother
  · intro j other hother
    obtain ⟨_, rfl⟩ | ⟨_, hother⟩ := hkept j other hother
    · exact hnewer
    · exact h.newer j other hother
  · intro j first profile hj
    by_cases hji : j = i
    · subst hji
      rw [phase_setPhase, if_pos rfl] at hj
      obtain rfl : first = row := by
        rw [hj] at hphase
        exact Option.some.inj hphase
      obtain ⟨hfold, hnext⟩ := hreloaded profile hj
      refine ⟨hfold, fun k hk other hother => ?_⟩
      obtain ⟨hkj, _⟩ | ⟨_, hother⟩ := hkept k other hother
      · exact absurd hkj hk
      · exact hnext k hk other hother
    · rw [phase_setPhase, if_neg hji] at hj
      obtain ⟨hfold, hnext⟩ := h.reloaded j first profile hj
      refine ⟨hfold, fun k hk other hother => ?_⟩
      obtain ⟨rfl, rfl⟩ | ⟨_, hother⟩ := hkept k other hother
      · exact hbehind j hji first profile hj
      · exact hnext k hk other hother

/-- An insert fails, is not made, or adds the event of the command. -/
theorem append_cases (id : ProfileId) (update : Update) (db : Db) :
    (append id update db).uncommitted = none ∨
      append id update db = .appended
        (EventStore.insertedRow (update.command id) update.stamp.version update.stamp.seq) := by
  unfold append
  split_ifs
  · exact Or.inl rfl
  · split
    · rename_i row hrow
      simp only [ProfileEventStore.persistInternal, EventStore.persistInternal, uniqueViolation,
        reject] at hrow
      split_ifs at hrow
      cases hrow
      exact Or.inr rfl
    · exact Or.inl rfl

theorem Serial.append (h : Serial id s)
    (hversions : VersionsIncrease id updates s (.append i)) :
    Serial id (s.setPhase i (append id (updates i) s.db)) := by
  obtain hnone | hrow := append_cases id (updates i) s.db
  · exact h.leave hnone
  · rw [hrow]
    refine h.hold rfl ⟨rfl, _, _, _, _, rfl⟩ hversions.1 (fun profile hphase => nomatch hphase) ?_
    intro j _ other profile hj
    exact hversions.2 j other (by rw [hj]; rfl)

theorem Serial.reload (h : Serial id s) {row : SeqEvent ProfileEvent}
    (hrow : s.phase i = .appended row) (holdest : OldestReloads s (.reload i)) :
    Serial id (s.setPhase i (reload id row s.db)) := by
  have hmem : row ∈ (s.phase i).uncommitted := by
    rw [hrow]
    rfl
  unfold ProfileRace.reload
  split
  · rename_i rehydrated hload
    refine h.hold rfl (h.updated i row hmem) (h.newer i row hmem) ?_ ?_
    · intro profile hphase
      cases hphase
      exact ⟨(ProfileRepository.load_eq_ok.mp hload).1,
        fun j hj other hother => holdest j hj row hmem other hother⟩
    · intro j hj other profile hother
      exact (h.reloaded j other profile hother).2 i hj.symm row hmem
  · exact h.leave rfl

/-- A transaction whose event is newest writes the fold of the stream with it. -/
theorem row_commit {db after : Db} {row : SeqEvent ProfileEvent} {profile : Profile}
    (h : RowIsFold id db) (hid : row.id = id)
    (hevent : ∃ displayName summary icon banner,
      row.envelope.event = .Updated displayName summary icon banner)
    (hnewer : ∀ event ∈ db.profileEvents, event.id = id → event.version < row.version)
    (hfold : Profile.fold (EventStore.findById (visible db row).profileEvents id none) =
      .ok (some profile))
    (hupdate : ProfileReadModel.update (visible db row) profile = .ok after) :
    after.profileEvents = row :: db.profileEvents ∧ RowIsFold id after := by
  obtain ⟨stored, hstored, hget⟩ := h
  -- The update changes neither the account nor the nanoid, which the statement does not write.
  have hkept : profile.id = id ∧ profile.accountId = stored.accountId ∧
      profile.nanoid = stored.nanoid := by
    subst hid
    rw [visible, EventStore.findById_cons_newest hnewer] at hfold
    obtain ⟨middle, hmiddle, happly⟩ := foldEvents_concat.mp hfold
    obtain rfl : middle = some stored := Except.ok.inj (hmiddle.symm.trans hstored)
    obtain ⟨displayName, summary, icon, banner, hevent⟩ := hevent
    simp only [Profile.apply, hevent] at happly
    cases happly
    exact ⟨(Table.get_eq_some_iff.mp hget).2, rfl, rfl⟩
  obtain ⟨rfl, haccount, hnanoid⟩ := hkept
  have hwritten : ({ profile with accountId := stored.accountId, nanoid := stored.nanoid } :
      Profile) = profile := by
    rw [← haccount, ← hnanoid]
  have hfound : (visible db row).profiles.get profile.id = some stored := hget
  simp only [ProfileReadModel.update, hfound, hwritten, foreignKeyViolation, reject] at hupdate
  split_ifs at hupdate
  cases hupdate
  exact ⟨rfl, profile, hfold, Table.get_put_self _ _⟩

theorem Serial.commit (h : Serial id s) {row : SeqEvent ProfileEvent} {profile : Profile}
    (hphase : s.phase i = .reloaded row profile) : Serial id (commit i row profile s) := by
  have hmem : row ∈ (s.phase i).uncommitted := by
    rw [hphase]
    rfl
  obtain ⟨hfold, hnext⟩ := h.reloaded i row profile hphase
  obtain ⟨hid, hevent⟩ := h.updated i row hmem
  unfold ProfileRace.commit
  split
  · rename_i after hupdate
    obtain ⟨hevents, hrow⟩ := row_commit h.row hid hevent (h.newer i row hmem) hfold hupdate
    have hothers : Serial id (s.setPhase i .committed) := h.leave rfl
    refine ⟨hrow, hothers.updated, ?_, ?_⟩
    · intro j other hother event hmember hevent
      have hji : j ≠ i := by
        rintro rfl
        simp [State.setPhase, Phase.uncommitted] at hother
      have hstill : other ∈ (s.phase j).uncommitted := by
        simpa [State.setPhase, Function.update_of_ne hji] using hother
      rw [hevents] at hmember
      rcases List.mem_cons.mp hmember with rfl | hold
      · exact hnext j hji other hstill
      · exact h.newer j other hstill event hold hevent
    · -- Of two transactions that have reloaded, each would be the older one.
      intro j other reloaded hj
      have hji : j ≠ i := by
        rintro rfl
        simp [State.setPhase] at hj
      have hother : s.phase j = .reloaded other reloaded := by
        simpa [State.setPhase, Function.update_of_ne hji] using hj
      have hlater := hnext j hji other (by rw [hother]; rfl)
      have hearlier := (h.reloaded j other reloaded hother).2 i hji.symm row hmem
      exact absurd hlater hearlier.asymm
  · exact h.leave rfl

omit [DecidableEq ι] in
/-- A step that leaves the transactions, the row and the events of the profile as they are. -/
theorem Serial.frame (h : Serial id s) {db : Db} (hrow : db.profiles.get id = s.db.profiles.get id)
    (hevents : db.profileEvents.filter (fun event => event.id = id) =
      s.db.profileEvents.filter fun event => event.id = id) : Serial id { s with db } := by
  have hmem : ∀ event ∈ db.profileEvents, event.id = id → event ∈ s.db.profileEvents := by
    intro event hevent hid
    have hkept : event ∈ db.profileEvents.filter fun event => event.id = id :=
      List.mem_filter.mpr ⟨hevent, by simpa using hid⟩
    rw [hevents] at hkept
    exact (List.mem_filter.mp hkept).1
  have hstream : EventStore.findById db.profileEvents id none =
      EventStore.findById s.db.profileEvents id none := by
    simp [EventStore.findById, hevents]
  have hreload : ∀ row : SeqEvent ProfileEvent,
      EventStore.findById (visible db row).profileEvents id none =
        EventStore.findById (visible s.db row).profileEvents id none := by
    intro row
    simp only [visible, EventStore.findById, Option.all_none, Bool.and_true, List.filter_cons, hevents]
  refine ⟨?_, h.updated, fun i row hi event hevent hid =>
    h.newer i row hi event (hmem event hevent hid) hid, fun i row profile hi => ?_⟩
  · obtain ⟨profile, hfold, hget⟩ := h.row
    exact ⟨profile, hstream ▸ hfold, hrow.trans hget⟩
  · rw [hreload]
    exact h.reloaded i row profile hi

omit [DecidableEq ι] in
/-- The row is as new as the committed events, so a poll leaves it alone. -/
theorem Serial.poll (h : Serial id s) (env : PollEnv) :
    Serial id { s with db := (ProfileProjector.projectBatch env s.db).progress.db } := by
  obtain ⟨profile, hfold, hget⟩ := h.row
  have hevents : (ProfileProjector.projectBatch env s.db).progress.db.profileEvents =
      s.db.profileEvents :=
    (Aggregate.projectBatch_spec .microseconds env .profile s.db).1 .profile
  refine h.frame ?_ (by rw [hevents])
  rw [hget]
  exact ProfileProjector.projectBatch_current env hget fun event hevent hid =>
    EventStore.le_of_findById_getLast (Profile.fold_version hfold) hevent hid

theorem Serial.step (s : State ι) (action : Action ι) (h : Serial id s)
    (hallowed : VersionsIncrease id updates s action ∧ OldestReloads s action) :
    Serial id (step id updates s action) := by
  obtain ⟨hversions, holdest⟩ := hallowed
  cases action with
  | append i =>
      simp only [ProfileRace.step]
      split
      · exact h.append hversions
      · exact h
  | reload i =>
      simp only [ProfileRace.step]
      split
      · rename_i row hrow
        exact h.reload hrow holdest
      · exact h
  | commit i =>
      simp only [ProfileRace.step]
      split
      · rename_i row profile hphase
        exact h.commit hphase
      · exact h
  | poll env => exact h.poll env
  | elsewhere event =>
      simp only [ProfileRace.step]
      split_ifs with hid
      · exact h
      · refine h.frame rfl ?_
        simp [visible, hid]

/-- Concurrent updates of a profile leave its row equal to the fold of its committed events, in every
state of every run in which transactions reload in version order, provided versions are drawn in
increasing order. -/
theorem concurrent_profile_updates_converge (id : ProfileId) (updates : ι → Update) (db : Db)
    (hstart : RowIsFold id db) (actions : List (Action ι))
    (hversions : Runs.Along (step id updates) (VersionsIncrease id updates) (.start db) actions)
    (holdest : Runs.Along (step id updates) OldestReloads (.start db) actions) :
    RowIsFold id (Runs.run (step id updates) (.start db) actions).db :=
  ((hversions.and holdest).invariant Serial.step (Serial.start hstart)).row

/-! ### The lost update -/

/-- A profile of account 7 right after its creation. -/
def raceDb : Db :=
  let alice : Account :=
    { id := 7, name := "alice", isBot := false, status := .Active, deletedAt := none, version := 1
      nanoid := "alice-nanoid", createdAt := 0 }
  let profile : Profile :=
    { id := 5, accountId := 7, displayName := none, summary := none, icon := none, banner := none
      version := 10, nanoid := "profile-nanoid" }
  { Db.empty with
    accounts := Table.empty.put (.ofAccount .microseconds alice)
    profiles := Table.empty.put profile
    profileEvents := [⟨1, ⟨5, .Created 7 none none none none "profile-nanoid", 10⟩⟩] }

/-- One transaction sets the display name, the other the summary. -/
def raceUpdates : Bool → Update
  | false => ⟨.Set "Alice", .Unchanged, .Unchanged, .Unchanged, ⟨20, 2⟩⟩
  | true => ⟨.Unchanged, .Set "Gardener", .Unchanged, .Unchanged, ⟨21, 3⟩⟩

theorem rowIsFold_raceDb : RowIsFold 5 raceDb := ⟨_, rfl, rfl⟩

/-- The second transaction inserts beside the first and reloads after its commit. -/
def orderedRace : List (Action Bool) :=
  [.append false, .reload false, .append true, .commit false, .poll (Coverage.plainEnv 0),
    .reload true, .commit true, .poll (Coverage.plainEnv 0)]

theorem concurrent_profile_updates_converge_orderedRace :
    RowIsFold 5 (Runs.run (step 5 raceUpdates) (.start raceDb) orderedRace).db :=
  concurrent_profile_updates_converge 5 raceUpdates raceDb rowIsFold_raceDb orderedRace
    (by decide +kernel) (by decide +kernel)

/-- Both transactions reload before either commits. The second one's update of the row drops the
display name, and the projector, which has nothing left to read, does not restore it. -/
theorem concurrent_profile_update_is_lost :
    let actions : List (Action Bool) := [.append false, .append true, .reload false, .reload true,
      .commit false, .commit true, .poll (Coverage.plainEnv 0)]
    let s := Runs.run (step 5 raceUpdates) (.start raceDb) actions
    RowIsFold 5 raceDb ∧
      Runs.Along (step 5 raceUpdates) (VersionsIncrease 5 raceUpdates) (.start raceDb) actions ∧
      (∀ i, s.phase i = .committed) ∧
      (∀ event ∈ s.db.profileEvents, event.seq ≤ s.db.position .profile) ∧
      ¬RowIsFold 5 s.db := by
  refine ⟨rowIsFold_raceDb, by decide +kernel, by decide +kernel, by decide +kernel, ?_⟩
  rintro ⟨profile, hfold, hrow⟩
  cases hrow
  revert hfold
  decide +kernel

end ProfileRace

end Emumet

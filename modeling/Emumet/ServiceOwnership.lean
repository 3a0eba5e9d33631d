import Emumet.ProjectorRows
import Emumet.ServiceStreams

/-! The owner relation of an account. Creation, deactivation, reactivation and the account projector all
write it in the permission service, after the transaction that decides it, so that other transactions
and other writes come in between. -/

namespace Emumet

namespace Ownership

/-! ### The permission service -/

/-- A relation tuple of the `Account` namespace. -/
structure RelationTuple where
  accountId : AccountId
  relation : AccountRelation
  subject : AuthAccountId
  deriving DecidableEq, Repr

/-- `create_relation` and `delete_relation`; a tuple that is there already, or is not there, is no
error. -/
inductive Write where
  | create (tuple : RelationTuple)
  | delete (tuple : RelationTuple)
  deriving DecidableEq, Repr

namespace Write

def tuple : Write → RelationTuple
  | .create tuple => tuple
  | .delete tuple => tuple

def creates : Write → Bool
  | .create _ => true
  | .delete _ => false

def apply (tuples : List RelationTuple) : Write → List RelationTuple
  | .create tuple => tuples.insert tuple
  | .delete tuple => tuples.filter (· ≠ tuple)

theorem mem_apply {tuples : List RelationTuple} {write : Write} {tuple : RelationTuple} :
    tuple ∈ write.apply tuples ↔
      if write.tuple = tuple then write.creates = true else tuple ∈ tuples := by
  cases write with
  | create written => by_cases h : tuple = written <;> simp [apply, Write.tuple, creates, h, Ne.symm]
  | delete written => by_cases h : tuple = written <;> simp [apply, Write.tuple, creates, h, Ne.symm]

end Write

/-! ### Calls in flight -/

/-- The use cases and polls. The gap is how far the generator of versions has moved on by the time the
call draws one. -/
inductive Job where
  | createAccount (call : Call) (gap : Nat) (dto : CreateAccountDto)
  | deactivateAccount (call : Call) (gap : Nat) (accountNanoid : String)
  | reactivateAccount (call : Call) (gap : Nat) (accountNanoid : String)
  | projectBatch (env : PollEnv)

/-- How far a call is: what it has read, or which writes to the permission service are left. A call
without writes left has returned. -/
inductive Phase where
  | start
  | found (id : AccountId)
  | linked (id : AccountId)
  | writing (writes : List Write)
  deriving DecidableEq, Repr

def Phase.writes : Phase → List Write
  | .writing writes => writes
  | _ => []

/-- The database, the tuples of the permission service and the last version that was drawn. -/
structure World where
  db : Db
  tuples : List RelationTuple
  lastVersion : EventVersion

namespace World

/-- `generate_id` gives a version above all before it. -/
def draw (world : World) (gap : Nat) : EventVersion := world.lastVersion + 1 + gap

def stamped (world : World) (call : Call) (gap : Nat) : Call :=
  { call with accountStamp := { call.accountStamp with version := world.draw gap } }

def commit (world : World) (gap : Nat) (db : Db) : World :=
  { world with db, lastVersion := world.draw gap }

end World

def relations : List AccountRelation := [.Owner, .Editor, .Signer]

/-- The next statement, transaction or write of a call. -/
def Job.next (tz : Timestamptz) (owner : AuthAccountId) (world : World) : Job → Phase → Phase × World
  | .createAccount call gap dto, .start =>
      match createTransaction tz (world.stamped call gap) owner dto world.db with
      | .ok (account, db) => (.writing [.create ⟨account.id, .Owner, owner⟩], world.commit gap db)
      | .error _ => (.writing [], world)
  | .deactivateAccount call _ accountNanoid, .start =>
      match AccountReadModel.findByNanoid world.db call.now accountNanoid,
          checkPermission call.permission with
      | some projection, .ok _ => (.found projection.id, world)
      | _, _ => (.writing [], world)
  | .deactivateAccount call gap _, .found id =>
      match commandTransaction (world.stamped call gap) id (fun _ => .ok ()) (Account.deactivate id)
          world.db with
      | .ok db => (.writing (relations.map fun relation => .delete ⟨id, relation, owner⟩),
          world.commit gap db)
      | .error _ => (.writing [], world)
  | .reactivateAccount call _ accountNanoid, .start =>
      match AccountReadModel.findByNanoidIncludingDeleted world.db call.now accountNanoid with
      | some projection => (.found projection.id, world)
      | none => (.writing [], world)
  | .reactivateAccount .., .found id =>
      if AccountReadModel.isLinkedIncludingDeleted world.db owner id then (.linked id, world)
      else (.writing [], world)
  | .reactivateAccount call gap _, .linked id =>
      match commandTransaction (world.stamped call gap) id
          (fun account => if account.deletedAt.isNone then reject .Rejected "Account is not deactivated"
            else .ok ()) (Account.reactivate id) world.db with
      | .ok db => (.writing (relations.map fun relation => .create ⟨id, relation, owner⟩),
          world.commit gap db)
      | .error _ => (.writing [], world)
  | .projectBatch env, .start =>
      let progress := (AccountProjector.projectBatch tz env world.db).progress
      (.writing (progress.owners.reverse.map fun link => .create ⟨link.1, .Owner, link.2⟩),
        { world with db := progress.db })
  | _, .writing (write :: rest) =>
      (.writing rest, { world with tuples := write.apply world.tuples })
  | _, phase => (phase, world)

variable {ι : Type} [DecidableEq ι]

structure State (ι : Type) where
  world : World
  phase : ι → Phase

/-- One call makes its next step. -/
def step (tz : Timestamptz) (owner : AuthAccountId) (jobs : ι → Job) (s : State ι) (i : ι) : State ι :=
  let next := (jobs i).next tz owner s.world (s.phase i)
  { world := next.2, phase := Function.update s.phase i next.1 }

/-! ### The standing of an account -/

/-- The committed events of the account fold to one that is not deactivated. -/
def active (now : OffsetDateTime) (db : Db) (id : AccountId) : Bool :=
  match Account.fold now (EventStore.findById db.accountEvents id none) with
  | .ok (some account) => account.deletedAt.isNone
  | _ => false

/-- An event of the account that is as new as any. -/
def IsLast (db : Db) (id : AccountId) (event : SeqEvent AccountEvent) : Prop :=
  event ∈ db.accountEvents ∧ event.id = id ∧
    ∀ other ∈ db.accountEvents, other.id = id → other.version ≤ event.version

/-- What the events and the row of the account say about its deactivation. The account can be loaded
before each command, so only its last event can fail to fold. -/
structure Standing (now : OffsetDateTime) (id : AccountId) (lastVersion : EventVersion) (db : Db) :
    Prop where
  bounded : ∀ event ∈ db.accountEvents, event.id = id → event.version ≤ lastVersion
  distinct : ∀ event ∈ db.accountEvents, ∀ other ∈ db.accountEvents, event.id = id → other.id = id →
    event.version = other.version → event = other
  last : ∀ event, IsLast db id event →
    (active now db id = true ↔ event.envelope.event ≠ .Deactivated)
  row : ∀ row, db.accounts.get id = some row → row.deletedAt = none →
    ∃ event ∈ db.accountEvents, event.id = id ∧ event.version = row.version ∧
      event.envelope.event ≠ .Deactivated

variable {now : OffsetDateTime} {id : AccountId} {owner : AuthAccountId} {db after : Db}
  {lastVersion : EventVersion} {row : SeqEvent AccountEvent}

theorem active_eq_true_iff : active now db id = true ↔
    ∃ account, Account.fold now (EventStore.findById db.accountEvents id none) = .ok (some account) ∧
      account.deletedAt = none := by
  unfold active
  split
  · next account hfold => simp [hfold]
  · next hother =>
      simp only [Bool.false_eq_true, false_iff, not_exists, not_and]
      exact fun account hfold => absurd hfold (hother account)

theorem exists_event_of_active (h : active now db id = true) :
    ∃ event ∈ db.accountEvents, event.id = id := by
  obtain ⟨account, hfold, _⟩ := active_eq_true_iff.mp h
  by_contra hnone
  have hempty : EventStore.findById db.accountEvents id none = [] :=
    EventStore.findById_of_nothing (by simpa [EventStore.guardHolds] using hnone)
  rw [hempty] at hfold
  cases hfold

theorem active_congr (h : after.accountEvents = db.accountEvents) :
    active now after id = active now db id := by
  rw [active, active, h]

/-- The database with one more event. -/
def appended (db : Db) (row : SeqEvent AccountEvent) : Db :=
  { db with accountEvents := row :: db.accountEvents }

/-- Events of other accounts do not matter. -/
theorem active_appended_of_ne (hid : row.id ≠ id) :
    active now (appended db row) id = active now db id := by
  simp only [active, appended, EventStore.findById_cons_of_ne hid]

/-- The account is active after an event exactly if the event applies and leaves it active. -/
theorem active_appended_iff (hnewest : ∀ other ∈ db.accountEvents, other.id = row.id →
      other.version < row.version) :
    active now (appended db row) row.id = true ↔
      ∃ entity account,
        Account.fold now (EventStore.findById db.accountEvents row.id none) = .ok entity ∧
          Account.apply now entity row.envelope = .ok (some account) ∧ account.deletedAt = none := by
  rw [active_eq_true_iff]
  simp only [appended, EventStore.findById_cons_newest hnewest, Account.fold, foldEvents_concat]
  constructor
  · rintro ⟨account, ⟨entity, hfold, happly⟩, hdeleted⟩
    exact ⟨entity, account, hfold, happly, hdeleted⟩
  · rintro ⟨entity, account, hfold, happly, hdeleted⟩
    exact ⟨account, ⟨entity, hfold, happly⟩, hdeleted⟩

theorem apply_deactivated {entity : Option Account} {account : Account} {event : EventEnvelope AccountEvent}
    (hevent : event.event = .Deactivated) (h : Account.apply now entity event = .ok (some account)) :
    account.deletedAt ≠ none := by
  obtain ⟨eventId, payload, version⟩ := event
  subst hevent
  cases entity with
  | none => cases h
  | some existing =>
      simp only [Account.apply, reject] at h
      split_ifs at h
      cases h
      exact Option.some_ne_none now

/-- The standing depends on the events and the row of the account only. -/
theorem Standing.transfer (h : Standing now id lastVersion db)
    (hevents : after.accountEvents = db.accountEvents)
    (hrow : ∀ row, after.accounts.get id = some row → row.deletedAt = none →
      ∃ event ∈ db.accountEvents, event.id = id ∧ event.version = row.version ∧
        event.envelope.event ≠ .Deactivated) : Standing now id lastVersion after where
  bounded := by
    rw [hevents]
    exact h.bounded
  distinct := by
    rw [hevents]
    exact h.distinct
  last := by
    intro event hlast
    rw [active_congr hevents]
    rw [IsLast, hevents] at hlast
    exact h.last event hlast
  row := by
    rw [hevents]
    exact hrow

/-- A new event that is no deactivation applies. -/
def Applies (now : OffsetDateTime) (db : Db) (row : SeqEvent AccountEvent) : Prop :=
  row.envelope.event ≠ .Deactivated → active now (appended db row) row.id = true

/-- A new event is the last one of its account and decides its standing. -/
theorem Standing.append (h : Standing now id lastVersion db) (row : SeqEvent AccountEvent)
    (hnewest : lastVersion < row.version) (happlies : row.id = id → Applies now db row) :
    Standing now id row.version (appended db row) ∧ active now (appended db row) id =
      if row.id = id then decide (row.envelope.event ≠ .Deactivated) else active now db id := by
  have hactive : row.id = id →
      active now (appended db row) id = decide (row.envelope.event ≠ .Deactivated) := by
    rintro rfl
    by_cases hevent : row.envelope.event = .Deactivated
    · rw [decide_eq_false (not_not.mpr hevent), Bool.eq_false_iff, Ne, active_appended_iff
        fun other hother hid => lt_of_le_of_lt (h.bounded other hother hid) hnewest]
      rintro ⟨entity, account, _, happly, hdeleted⟩
      exact apply_deactivated hevent happly hdeleted
    · rw [decide_eq_true hevent]
      exact happlies rfl hevent
  refine ⟨⟨?_, ?_, ?_, ?_⟩, ?_⟩
  · intro event hevent hid
    rcases List.mem_cons.mp hevent with rfl | hold
    · exact le_refl _
    · exact (h.bounded event hold hid).trans hnewest.le
  · intro event hevent other hother hid hotherId hversion
    rcases List.mem_cons.mp hevent with rfl | hold <;> rcases List.mem_cons.mp hother with rfl | hold'
    · rfl
    · exact absurd (h.bounded other hold' hotherId) (not_le.mpr (hversion ▸ hnewest))
    · exact absurd (h.bounded event hold hid) (not_le.mpr (hversion ▸ hnewest))
    · exact h.distinct event hold other hold' hid hotherId hversion
  · rintro event ⟨hevent, hid, hmax⟩
    by_cases hrow : row.id = id
    · rcases List.mem_cons.mp hevent with rfl | hold
      · rw [hactive hrow, decide_eq_true_iff]
      · have habove : row.version ≤ event.version := hmax row List.mem_cons_self hrow
        exact absurd (habove.trans (h.bounded event hold hid)) (not_le.mpr hnewest)
    · rw [active_appended_of_ne hrow]
      refine h.last event ⟨(List.mem_cons.mp hevent).resolve_left fun heq => hrow (heq ▸ hid), hid, ?_⟩
      exact fun other hother => hmax other (List.mem_cons_of_mem _ hother)
  · intro stored hstored hvisible
    obtain ⟨event, hevent, hrest⟩ := h.row stored hstored hvisible
    exact ⟨event, List.mem_cons_of_mem _ hevent, hrest⟩
  · split_ifs with hrow
    · exact hactive hrow
    · exact active_appended_of_ne hrow

/-! ### The transactions -/

variable {tz : Timestamptz} {call : Call}

/-- A command that commits appends its event to a stream that loads. -/
theorem commandTransaction_ok {check : Account → Result Unit}
    {command : EventVersion → CommandEnvelope AccountEvent}
    (h : commandTransaction call id check command db = .ok after) :
    ∃ loaded, AccountRepository.load db call.now id = .ok loaded ∧ check loaded.aggregate = .ok () ∧
      after = appended db ⟨call.accountStamp.seq, ⟨(command loaded.version).id,
        (command loaded.version).event, call.accountStamp.version⟩⟩ := by
  simp only [commandTransaction, Fallible.bind_eq_ok] at h
  obtain ⟨loaded, hload, _, hcheck, ⟨envelope, saved⟩, hsave, hresult⟩ := h
  obtain ⟨_, rfl, rfl⟩ := AccountRepository.save_ok hsave
  cases hresult
  exact ⟨loaded, hload, hcheck, rfl⟩

/-- A creation that commits starts the stream of its account and inserts its row. -/
theorem createTransaction_ok {dto : CreateAccountDto} {account : Account}
    (h : createTransaction tz call owner dto db = .ok (account, after)) :
    (∀ event ∈ db.accountEvents, event.id ≠ call.accountId) ∧ account.id = call.accountId ∧
      after.accountEvents = ⟨call.accountStamp.seq, ⟨call.accountId,
        .Created dto.name dto.isBot call.accountNanoid owner, call.accountStamp.version⟩⟩ ::
          db.accountEvents ∧
      ∃ row : AccountRow, row.id = call.accountId ∧ row.version = call.accountStamp.version ∧
        after.accounts = db.accounts.put row := by
  simp only [createTransaction, Fallible.bind_eq_ok] at h
  obtain ⟨⟨created, saved⟩, hsave, applied, happlied, constructed, hconstructed, afterCreate, hcreate,
    afterLink, hlink, ⟨createdProfile, savedProfile⟩, hsaveProfile, appliedProfile, _, profile, _,
    afterProfile, hprofile, _, _, hresult⟩ := h
  cases hresult
  obtain ⟨hguard, rfl, rfl⟩ := AccountRepository.save_ok hsave
  obtain ⟨expected, hexpected, hid, hversion, _⟩ := Account.apply_created call.now
    call.accountId dto.name dto.isBot call.accountNanoid owner call.accountStamp.version
  obtain rfl : some expected = applied := Except.ok.inj (hexpected.symm.trans happlied)
  cases hconstructed
  have hprofiles := (Streams.sameAccounts_saveProfile hsaveProfile).trans
    (Streams.sameAccounts_createProfile hprofile)
  have hlinked : afterLink.accountEvents = afterCreate.accountEvents ∧
      afterLink.accounts = afterCreate.accounts := by
    simp only [AccountReadModel.linkAuthAccount, foreignKeyViolation, reject] at hlink
    split_ifs at hlink <;> cases hlink <;> exact ⟨rfl, rfl⟩
  simp only [AccountReadModel.create, uniqueViolation, reject] at hcreate
  split_ifs at hcreate
  cases hcreate
  refine ⟨fun event hevent heq => ?_, hid, ?_,
    .ofAccount tz { account with status := .Active, deletedAt := none }, ?_, ?_, ?_⟩
  · have hnone : EventStore.findById db.accountEvents call.accountId none = [] :=
      EventStore.findById_of_nothing hguard
    exact absurd (EventStore.envelope_mem_findById hevent heq) (by rw [hnone]; simp)
  · rw [hprofiles.events, hlinked.1]
    rfl
  · exact (AccountRow.ofAccount_id tz _).trans hid
  · exact (AccountRow.ofAccount_version tz _).trans hversion
  · rw [hprofiles.rows, hlinked.2]

/-- A deactivation ends the activity of its account, also when its stream then fails to fold. -/
theorem Standing.deactivate (h : Standing now id lastVersion db) {target : AccountId}
    (hnewest : lastVersion < call.accountStamp.version)
    (hok : commandTransaction call target (fun _ => .ok ()) (Account.deactivate target) db =
      .ok after) :
    Standing now id call.accountStamp.version after ∧
      active now after id = if target = id then false else active now db id := by
  obtain ⟨loaded, _, _, rfl⟩ := commandTransaction_ok hok
  exact h.append ⟨call.accountStamp.seq, ⟨target, .Deactivated, call.accountStamp.version⟩⟩ hnewest
    fun _ hne => absurd rfl hne

/-- A reactivation makes its account active. -/
theorem Standing.reactivate (h : Standing now id lastVersion db) {target : AccountId}
    (hnewest : lastVersion < call.accountStamp.version)
    (hok : commandTransaction call target (fun account =>
      if account.deletedAt.isNone then reject .Rejected "Account is not deactivated" else .ok ())
        (Account.reactivate target) db = .ok after) :
    Standing now id call.accountStamp.version after ∧
      active now after id = if target = id then true else active now db id := by
  obtain ⟨loaded, hload, hcheck, rfl⟩ := commandTransaction_ok hok
  refine h.append ⟨call.accountStamp.seq, ⟨target, .Reactivated, call.accountStamp.version⟩⟩ hnewest
    fun htarget _ => ?_
  change target = id at htarget
  subst htarget
  refine (active_appended_iff ?_).mpr ?_
  · exact fun other hother hid => lt_of_le_of_lt (h.bounded other hother hid) hnewest
  -- the stream folds at every clock as it did for the command
  obtain ⟨result, hresult, hrelated⟩ := Account.foldEvents_alike (T := fun _ _ => True)
    (fun _ => trivial) .none (fun _ _ _ => trivial) (AccountRepository.load_eq_ok.mp hload).1
  cases hrelated with
  | @some _ account halike =>
      have hdeleted : loaded.aggregate.deletedAt.isNone = false := by
        simp only [reject] at hcheck
        split_ifs at hcheck with hnone
        exact Bool.eq_false_iff.mpr hnone
      have hsome : account.deletedAt.isNone = false := by
        rw [← Option.not_isSome, ← optionRel_isSome halike.deletedAt, Option.not_isSome]
        exact hdeleted
      refine ⟨some account,
        { account with deletedAt := none, version := call.accountStamp.version }, hresult, ?_, rfl⟩
      simp only [Account.apply, hsome]
      rfl

/-- A creation makes its account active, which had no events before. -/
theorem Standing.create (h : Standing now id lastVersion db) {dto : CreateAccountDto}
    {account : Account} (hnewest : lastVersion < call.accountStamp.version)
    (hok : createTransaction tz call owner dto db = .ok (account, after)) :
    Standing now id call.accountStamp.version after ∧
      active now after id = if call.accountId = id then true else active now db id := by
  obtain ⟨hnone, _, hevents, stored, hstoredId, hstoredVersion, haccounts⟩ := createTransaction_ok hok
  obtain ⟨hstanding, hactive⟩ := h.append ⟨call.accountStamp.seq, ⟨call.accountId,
      .Created dto.name dto.isBot call.accountNanoid owner, call.accountStamp.version⟩⟩ hnewest (by
    refine fun _ _ => (active_appended_iff ?_).mpr ?_
    · exact fun other hother hid => absurd hid (hnone other hother)
    have hempty : EventStore.findById db.accountEvents call.accountId none = [] :=
      EventStore.findById_of_nothing (by simpa [EventStore.guardHolds] using hnone)
    obtain ⟨created, hcreated, _, _, _, hdeleted⟩ := Account.apply_created now call.accountId dto.name
      dto.isBot call.accountNanoid owner call.accountStamp.version
    refine ⟨none, created, ?_, hcreated, hdeleted⟩
    change Account.fold now (EventStore.findById db.accountEvents call.accountId none) = _
    rw [hempty]
    rfl)
  refine ⟨hstanding.transfer hevents fun row hrow hvisible => ?_, ?_⟩
  · rw [haccounts, Table.get_put, hstoredId] at hrow
    split_ifs at hrow with hid
    · cases hrow
      exact ⟨_, List.mem_cons_self, hid.symm, hstoredVersion.symm, by simp⟩
    · exact hstanding.row row hrow hvisible
  · exact (active_congr hevents).trans hactive

/-! ### A poll -/

open AccountProjector

variable {env : PollEnv} {events : List (SeqEvent AccountEvent)} {account : Account}

/-- An entity that is not deactivated is the one of a visible row, or its last event is none of
deactivation. -/
theorem entity_active {existing : Option Account}
    (hsorted : events.Pairwise fun a b => a.version ≤ b.version)
    (hentity : entity env existing events = .ok (some account)) (hdeleted : account.deletedAt = none) :
    (existing = some account ∧ ∀ event ∈ events, event.version ≤ account.version) ∨
      ∃ last ∈ pending existing events, last.version = account.version ∧
        last.envelope.event ≠ .Deactivated ∧
          ∀ event ∈ pending existing events, event.version ≤ last.version := by
  rcases List.eq_nil_or_concat (pending existing events) with hnil | ⟨front, last, hconcat⟩
  · rw [entity, hnil] at hentity
    cases hentity
    refine .inl ⟨rfl, fun event hevent => ?_⟩
    simpa using List.filter_eq_nil_iff.mp hnil event hevent
  · rw [List.concat_eq_append] at hconcat
    rw [entity, hconcat, List.map_append, List.map_singleton, foldEvents_concat] at hentity
    obtain ⟨middle, _, happly⟩ := hentity
    obtain ⟨result, hresult, hversion⟩ := Account.apply_ok happly
    cases hresult
    have hpending : (front ++ [last]).Pairwise fun a b => a.version ≤ b.version :=
      hconcat ▸ hsorted.sublist List.filter_sublist
    refine .inr ⟨last, by simp [hconcat], hversion.symm, fun hevent => ?_, fun event hevent => ?_⟩
    · exact apply_deactivated hevent happly hdeleted
    · rw [hconcat, List.mem_append, List.mem_singleton] at hevent
      rcases hevent with hfront | rfl
      · exact (List.pairwise_append.mp hpending).2.2 event hfront last List.mem_cons_self
      · exact le_refl _

/-- What an entity that is not deactivated says about the account. -/
theorem Standing.entity (h : Standing now id lastVersion db)
    (hevents : ∀ event ∈ events, event ∈ db.accountEvents ∧ event.id = id)
    (hsorted : events.Pairwise fun a b => a.version ≤ b.version)
    (hentity : entity env (decode env.now (db.accounts.get id)) events = .ok (some account))
    (hdeleted : account.deletedAt = none) :
    ∃ event ∈ db.accountEvents, event.id = id ∧ event.version = account.version ∧
      event.envelope.event ≠ .Deactivated ∧
      ∀ last ∈ events, IsLast db id last → last = event := by
  rcases entity_active hsorted hentity hdeleted with ⟨hexisting, hold⟩ | ⟨event, hevent, hversion, hne, hmax⟩
  · -- nothing is newer than the row, whose version is that of an event
    rw [decode, Option.map_eq_some_iff] at hexisting
    obtain ⟨stored, hstored, rfl⟩ := hexisting
    obtain ⟨hget, hvisible⟩ := Option.filter_eq_some_iff.mp hstored
    obtain ⟨event, hevent, hid, hversion, hne⟩ :=
      h.row stored hget (Option.isNone_iff_eq_none.mp hvisible)
    refine ⟨event, hevent, hid, hversion, hne, fun last hlast hisLast => ?_⟩
    have hle : last.version ≤ event.version := hversion ▸ hold last hlast
    exact h.distinct last hisLast.1 event hevent hisLast.2.1 hid
      (le_antisymm hle (hisLast.2.2 event hevent hid))
  · obtain ⟨hmem, hnewer⟩ := List.mem_filter.mp hevent
    obtain ⟨hstored, hid⟩ := hevents event hmem
    refine ⟨event, hstored, hid, hversion, hne, fun last hlast hisLast => ?_⟩
    have hle : event.version ≤ last.version := hisLast.2.2 event hstored hid
    have hpending : last ∈ pending (decode env.now (db.accounts.get id)) events := by
      refine List.mem_filter.mpr ⟨hlast, ?_⟩
      simp only [Option.all_eq_true, decide_eq_true_eq] at hnewer ⊢
      exact fun existing hexisting => lt_of_lt_of_le (hnewer existing hexisting) hle
    exact h.distinct last hisLast.1 event hstored hisLast.2.1 hid
      (le_antisymm (hmax last hpending) hle)

/-- A group that is written keeps the standing, and asks for an owner only when the account is active,
provided that the group reaches its last event. -/
theorem Standing.project (h : Standing now id lastVersion db) {k : AccountId}
    (hevents : ∀ event ∈ events, event ∈ db.accountEvents ∧ event.id = k)
    (hsorted : events.Pairwise fun a b => a.version ≤ b.version)
    {link : Option (AccountId × AuthAccountId)}
    (hproject : AccountProjector.project tz env db k events = .written after link) :
    after.accountEvents = db.accountEvents ∧ Standing now id lastVersion after ∧
      ∀ a, (id, a) ∈ link → k = id ∧ events ≠ [] ∧
        ((∃ event ∈ events, IsLast db id event) → active now db id = true) := by
  have hlogs : db.SameLogs after :=
    @Aggregate.sameLogs_project tz env .account db after k events link hproject
  have hsame : after.accountEvents = db.accountEvents := hlogs.events .account
  have hrow := project_written_row (fun event hevent => (hevents event hevent).2) hproject
  rcases project_cases tz env db k events with
    ⟨_, heq⟩ | ⟨account, hentity, hsome, ⟨result, hwrite, heq⟩ | heq⟩
  · cases heq.symm.trans hproject
  · cases heq.symm.trans hproject
    rw [findByIdUnfiltered_eq] at hentity hsome
    refine ⟨hsame, h.transfer hsame fun row hget hvisible => ?_, ?_⟩
    · rw [hrow id] at hget
      split_ifs at hget with hk
      · subst hk
        rw [updateRow, if_neg hsome, hentity] at hget
        simp only at hget
        split_ifs at hget
        · cases hget
          have hdeleted : account.deletedAt = none := by simpa using hvisible
          obtain ⟨event, hevent, hid, hversion, hne, _⟩ := h.entity hevents hsorted hentity hdeleted
          exact ⟨event, hevent, hid, by rw [hversion, AccountRow.ofAccount_version], hne⟩
        · exact h.row row hget hvisible
      · exact h.row row hget hvisible
    · intro a ha
      unfold owner at ha
      split_ifs at ha with hsomeDeleted
      · cases ha
      obtain ⟨_, hcreated, hlink⟩ := Option.map_eq_some_iff.mp ha
      cases hlink
      have hdeleted : account.deletedAt = none := by simpa using hsomeDeleted
      refine ⟨rfl, fun hnil => by simp [hnil, createdAuthAccountId] at hcreated, ?_⟩
      rintro ⟨last, hlast, hisLast⟩
      obtain ⟨event, _, _, _, hne, honly⟩ := h.entity hevents hsorted hentity hdeleted
      rw [h.last last hisLast, honly last hlast hisLast]
      exact hne
  · cases heq.symm.trans hproject

/-- A batch that holds events of the account holds its last one. -/
def Reaches (db : Db) (id : AccountId) : Prop :=
  (∃ event ∈ db.batch .account, event.id = id) → ∃ event ∈ db.batch .account, IsLast db id event

theorem sorted_groupOf (batch : List (SeqEvent AccountEvent)) (k : AccountId) :
    (Projector.groupOf batch k).Pairwise fun a b => a.version ≤ b.version := by
  have : Std.Total fun a b : SeqEvent AccountEvent => a.version ≤ b.version :=
    ⟨fun a b => le_total a.version b.version⟩
  have : IsTrans (SeqEvent AccountEvent) fun a b => a.version ≤ b.version := ⟨fun _ _ _ => le_trans⟩
  exact List.pairwise_insertionSort _ _

theorem batch_subset {event : SeqEvent AccountEvent} (h : event ∈ db.batch .account) :
    event ∈ db.accountEvents :=
  (Tailing.mem_of_mem_window SeqEvent.seq h).1

/-- The groups handled so far keep the standing and ask for the owner of an active account only. -/
structure Kept (now : OffsetDateTime) (id : AccountId) (lastVersion : EventVersion) (db : Db)
    (progress : Progress) : Prop where
  events : progress.db.accountEvents = db.accountEvents
  standing : Standing now id lastVersion progress.db
  owners : ∀ a, (id, a) ∈ progress.owners → active now db id = true

theorem Kept.handle {progress : Progress} (h : Kept now id lastVersion db progress)
    (hreaches : Reaches db id) (k : AccountId) :
    Kept now id lastVersion db
      (Projector.handle (AccountProjector.project tz env) (db.batch .account) progress k) := by
  unfold Projector.handle
  split
  · exact h
  · next after link hwritten =>
      have hevents : ∀ event ∈ Projector.groupOf (db.batch .account) k,
          event ∈ progress.db.accountEvents ∧ event.id = k := by
        intro event hevent
        obtain ⟨hbatch, hid⟩ := Projector.mem_groupOf.mp hevent
        exact ⟨h.events ▸ batch_subset hbatch, hid⟩
      obtain ⟨hafter, hkept, hactive⟩ := h.standing.project hevents (sorted_groupOf _ k) hwritten
      refine ⟨hafter.trans h.events, hkept, fun a ha => ?_⟩
      rcases List.mem_append.mp ha with hnew | hold
      · -- the group is that of the account, so it reaches the last event
        obtain ⟨rfl, hne, hreached⟩ := hactive a (Option.mem_toList.mp hnew)
        obtain ⟨first, hfirst⟩ := List.exists_mem_of_ne_nil _ hne
        obtain ⟨last, hlast, hisLast⟩ := hreaches ⟨first, Projector.mem_groupOf.mp hfirst⟩
        rw [← active_congr h.events]
        refine hreached ⟨last, Projector.mem_groupOf.mpr ⟨hlast, hisLast.2.1⟩, ?_⟩
        rw [IsLast, h.events]
        exact hisLast
      · exact h.owners a hold
  · exact ⟨h.events, h.standing, h.owners⟩

/-- A poll keeps the standing, and asks for the owner of an active account only. -/
theorem Standing.poll (h : Standing now id lastVersion db) (hreaches : Reaches db id) :
    Kept now id lastVersion db (AccountProjector.projectBatch tz env db).progress := by
  have hstart : Kept now id lastVersion db ⟨db, [], []⟩ := ⟨rfl, h, by simp⟩
  by_cases hempty : db.batch .account = []
  · have hpoll : AccountProjector.projectBatch tz env db = _ :=
      @Aggregate.projectBatch_of_nil tz env .account db hempty
    rw [hpoll]
    exact hstart
  · have hpoll : AccountProjector.projectBatch tz env db = _ :=
      @Aggregate.projectBatch_of_ne_nil tz env .account db hempty
    have hprogress : Kept now id lastVersion db (Aggregate.account.progress tz env db) :=
      List.foldlRecOn _ _ hstart fun _ hkept k _ => hkept.handle hreaches k
    rw [hpoll]
    exact ⟨hprogress.events, hprogress.standing.transfer rfl hprogress.standing.row, hprogress.owners⟩

/-! ### Writes that are left -/

/-- The writes that are left agree with the standing of the account, and so does the tuple when none is
left. -/
structure Inv (now : OffsetDateTime) (id : AccountId) (owner : AuthAccountId) (s : State ι) : Prop where
  standing : Standing now id s.world.lastVersion s.world.db
  agree : ∀ i, ∀ write ∈ (s.phase i).writes, write.tuple = ⟨id, .Owner, owner⟩ →
    write.creates = active now s.world.db id
  settled : (∃ i, ∃ write ∈ (s.phase i).writes, write.tuple = ⟨id, .Owner, owner⟩) ∨
    (⟨id, .Owner, owner⟩ ∈ s.world.tuples ↔ active now s.world.db id = true)
  fresh : (∀ event ∈ s.world.db.accountEvents, event.id ≠ id) → ∀ i, ∀ write ∈ (s.phase i).writes,
    write.tuple ≠ ⟨id, .Owner, owner⟩

variable {s : State ι} {i : ι}

theorem mem_writes_update {phases : ι → Phase} {phase : Phase} {j : ι} {write : Write} :
    write ∈ (Function.update phases i phase j).writes ↔
      j = i ∧ write ∈ phase.writes ∨ j ≠ i ∧ write ∈ (phases j).writes := by
  by_cases hj : j = i
  · subst hj
    simp
  · simp [hj]

/-- A step that makes no write may leave some to be made. -/
theorem Inv.issue (h : Inv now id owner s) (hidle : (s.phase i).writes = []) {phase : Phase}
    {lastVersion : EventVersion} (hstanding : Standing now id lastVersion after)
    (hissued : ∀ write ∈ phase.writes, write.tuple = ⟨id, .Owner, owner⟩ →
      write.creates = active now after id)
    (hothers : active now after id = active now s.world.db id ∨
      (∀ j, ∀ write ∈ (s.phase j).writes, write.tuple = ⟨id, .Owner, owner⟩ →
        write.creates = active now after id) ∧
      ∃ write ∈ phase.writes, write.tuple = ⟨id, .Owner, owner⟩)
    (hfresh : (∀ event ∈ after.accountEvents, event.id ≠ id) →
      (∀ event ∈ s.world.db.accountEvents, event.id ≠ id) ∧
        ∀ write ∈ phase.writes, write.tuple ≠ ⟨id, .Owner, owner⟩) :
    Inv now id owner ⟨⟨after, s.world.tuples, lastVersion⟩, Function.update s.phase i phase⟩ where
  standing := hstanding
  agree := by
    intro j write hwrite htuple
    rcases mem_writes_update.mp hwrite with ⟨_, hnew⟩ | ⟨_, hold⟩
    · exact hissued write hnew htuple
    · rcases hothers with hsame | ⟨hagree, _⟩
      · exact (h.agree j write hold htuple).trans hsame.symm
      · exact hagree j write hold htuple
  settled := by
    rcases hothers with hsame | ⟨_, write, hwrite, htuple⟩
    · rcases h.settled with ⟨j, write, hwrite, htuple⟩ | htuples
      · refine .inl ⟨j, write, mem_writes_update.mpr (.inr ⟨?_, hwrite⟩), htuple⟩
        rintro rfl
        rw [hidle] at hwrite
        cases hwrite
      · exact .inr (by rw [hsame]; exact htuples)
    · exact .inl ⟨i, write, mem_writes_update.mpr (.inl ⟨rfl, hwrite⟩), htuple⟩
  fresh := by
    intro hnone j write hwrite
    obtain ⟨hbefore, hnew⟩ := hfresh hnone
    rcases mem_writes_update.mp hwrite with ⟨_, hissue⟩ | ⟨_, hold⟩
    · exact hnew write hissue
    · exact h.fresh hbefore j write hold

/-- A write makes the tuple agree. -/
theorem Inv.write (h : Inv now id owner s) {write : Write} {rest : List Write}
    (hphase : s.phase i = .writing (write :: rest)) :
    Inv now id owner ⟨{ s.world with tuples := write.apply s.world.tuples },
      Function.update s.phase i (.writing rest)⟩ := by
  have hwrites : (s.phase i).writes = write :: rest := by rw [hphase, Phase.writes]
  have hless : ∀ j, ∀ left ∈ (Function.update s.phase i (.writing rest) j).writes,
      left ∈ (s.phase j).writes := by
    intro j left hleft
    rcases mem_writes_update.mp hleft with ⟨rfl, hrest⟩ | ⟨_, hold⟩
    · rw [hwrites]
      exact List.mem_cons_of_mem _ hrest
    · exact hold
  have hhead : write ∈ (s.phase i).writes := hwrites ▸ List.mem_cons_self
  refine ⟨h.standing, fun j left hleft => h.agree j left (hless j left hleft), ?_,
    fun hnone j left hleft => h.fresh hnone j left (hless j left hleft)⟩
  by_cases htuple : write.tuple = ⟨id, .Owner, owner⟩
  · refine .inr (Write.mem_apply.trans ?_)
    rw [if_pos htuple, h.agree i write hhead htuple]
  · rcases h.settled with ⟨j, left, hleft, hlefttuple⟩ | htuples
    · refine .inl ⟨j, left, mem_writes_update.mpr ?_, hlefttuple⟩
      by_cases hj : j = i
      · subst hj
        rw [hwrites] at hleft
        exact .inl ⟨rfl, (List.mem_cons.mp hleft).resolve_left fun heq => htuple (heq ▸ hlefttuple)⟩
      · exact .inr ⟨hj, hleft⟩
    · refine .inr (Write.mem_apply.trans ?_)
      rw [if_neg htuple]
      exact htuples

/-! ### Steps and runs -/

/-- An account is deactivated while no creation of its owner relation is left, and reactivated while no
deletion is left; a poll that reads events of the account reads its last one. -/
def Allowed (jobs : ι → Job) (id : AccountId) (owner : AuthAccountId) (s : State ι) (i : ι) : Prop :=
  match jobs i, s.phase i with
  | .deactivateAccount .., .found target =>
      target = id → ∀ j, Write.create ⟨id, .Owner, owner⟩ ∉ (s.phase j).writes
  | .reactivateAccount .., .linked target =>
      target = id → ∀ j, Write.delete ⟨id, .Owner, owner⟩ ∉ (s.phase j).writes
  | .projectBatch _, .start => Reaches s.world.db id
  | _, _ => True

instance (db : Db) (id : AccountId) (event : SeqEvent AccountEvent) : Decidable (IsLast db id event) :=
  inferInstanceAs (Decidable (_ ∧ _ ∧ _))

instance (db : Db) (id : AccountId) : Decidable (Reaches db id) :=
  inferInstanceAs (Decidable (_ → _))

instance [Fintype ι] (jobs : ι → Job) (id : AccountId) (owner : AuthAccountId) (s : State ι) (i : ι) :
    Decidable (Allowed jobs id owner s i) := by
  unfold Allowed
  split <;> infer_instance

theorem Inv.idle (h : Inv now id owner s) (hidle : (s.phase i).writes = []) {phase : Phase}
    (hphase : phase.writes = []) :
    Inv now id owner ⟨s.world, Function.update s.phase i phase⟩ := by
  have hnothing : ∀ write, write ∉ phase.writes := by simp [hphase]
  exact h.issue hidle h.standing (fun write hwrite => absurd hwrite (hnothing write)) (.inl rfl)
    fun hnone => ⟨hnone, fun write hwrite => absurd hwrite (hnothing write)⟩

theorem World.lt_draw (world : World) (gap : Nat) : world.lastVersion < world.draw gap :=
  lt_of_lt_of_le (lt_add_one _) (le_add_of_nonneg_right (Int.natCast_nonneg gap))

/-- A transaction that commits an event decides the standing of its account, and the writes it leaves
say the same. -/
theorem Inv.commit (h : Inv now id owner s) (hidle : (s.phase i).writes = []) {target : AccountId}
    {writes : List Write} {gap : Nat} {creates : Bool}
    (hstanding : Standing now id (s.world.draw gap) after ∧
      active now after id = if target = id then creates else active now s.world.db id)
    (hevents : ∃ row, row.id = target ∧ after.accountEvents = row :: s.world.db.accountEvents)
    (hwrites : ∀ write ∈ writes, write.tuple.accountId = target ∧ write.creates = creates)
    (howner : ∃ write ∈ writes, write.tuple = ⟨target, .Owner, owner⟩)
    (hothers : target = id → ∀ j, ∀ write ∈ (s.phase j).writes,
      write.tuple = ⟨id, .Owner, owner⟩ → write.creates = creates) :
    Inv now id owner ⟨s.world.commit gap after, Function.update s.phase i (.writing writes)⟩ := by
  obtain ⟨hstanding, hactive⟩ := hstanding
  obtain ⟨row, hrow, hevents⟩ := hevents
  have hown : ∀ write ∈ writes, write.tuple = ⟨id, .Owner, owner⟩ → target = id := by
    intro write hwrite htuple
    rw [← (hwrites write hwrite).1, htuple]
  refine h.issue hidle hstanding (fun write hwrite htuple => ?_) ?_ fun hnone => ⟨?_, ?_⟩
  · rw [hactive, if_pos (hown write hwrite htuple)]
    exact (hwrites write hwrite).2
  · by_cases hid : target = id
    · rw [hactive, if_pos hid]
      exact .inr ⟨hothers hid, hid ▸ howner⟩
    · exact .inl (by rw [hactive, if_neg hid])
  · exact fun event hevent => hnone event (hevents ▸ List.mem_cons_of_mem _ hevent)
  · intro write hwrite htuple
    exact hnone row (hevents ▸ List.mem_cons_self) (hrow.trans (hown write hwrite htuple))

theorem Write.creates_eq_false {write : Write} {tuple : RelationTuple} (htuple : write.tuple = tuple)
    (hne : write ≠ .create tuple) : write.creates = false := by
  cases write with
  | create _ => exact absurd (congrArg Write.create htuple) hne
  | delete _ => rfl

theorem Write.creates_eq_true {write : Write} {tuple : RelationTuple} (htuple : write.tuple = tuple)
    (hne : write ≠ .delete tuple) : write.creates = true := by
  cases write with
  | create _ => rfl
  | delete _ => exact absurd (congrArg Write.delete htuple) hne

variable {jobs : ι → Job}

theorem Inv.createAccount (h : Inv now id owner s) (hphase : s.phase i = .start) {gap : Nat}
    {dto : CreateAccountDto} (hjob : jobs i = .createAccount call gap dto) :
    Inv now id owner (step tz owner jobs s i) := by
  have hidle : (s.phase i).writes = [] := by
    rw [hphase]
    rfl
  rw [step, hjob, hphase]
  simp only [Job.next]
  split
  · next account after hok =>
      obtain ⟨hnone, hid, hevents, _⟩ := createTransaction_ok hok
      refine h.commit hidle (h.standing.create (s.world.lt_draw gap) hok) ⟨_, rfl, hevents⟩ ?_
        ⟨_, List.mem_cons_self, by rw [← hid]; rfl⟩ ?_
      · rintro write hwrite
        cases List.mem_singleton.mp hwrite
        exact ⟨hid, rfl⟩
      · rintro rfl j write hwrite htuple
        exact absurd htuple (h.fresh hnone j write hwrite)
  · exact h.idle hidle rfl

theorem Inv.deactivateAccount (h : Inv now id owner s) {target : AccountId}
    (hphase : s.phase i = .found target) {gap : Nat} {accountNanoid : String}
    (hjob : jobs i = .deactivateAccount call gap accountNanoid)
    (hallowed : target = id → ∀ j, Write.create ⟨id, .Owner, owner⟩ ∉ (s.phase j).writes) :
    Inv now id owner (step tz owner jobs s i) := by
  have hidle : (s.phase i).writes = [] := by
    rw [hphase]
    rfl
  rw [step, hjob, hphase]
  simp only [Job.next]
  split
  · next after hok =>
      obtain ⟨loaded, _, _, hafter⟩ := commandTransaction_ok hok
      refine h.commit hidle (h.standing.deactivate (s.world.lt_draw gap) hok)
        ⟨_, rfl, congrArg Db.accountEvents hafter⟩ ?_ ⟨_, List.mem_cons_self, rfl⟩ ?_
      · rintro write hwrite
        obtain ⟨relation, _, rfl⟩ := List.mem_map.mp hwrite
        exact ⟨rfl, rfl⟩
      · intro hid j write hwrite htuple
        exact Write.creates_eq_false htuple fun heq => hallowed hid j (heq ▸ hwrite)
  · exact h.idle hidle rfl

theorem Inv.reactivateAccount (h : Inv now id owner s) {target : AccountId}
    (hphase : s.phase i = .linked target) {gap : Nat} {accountNanoid : String}
    (hjob : jobs i = .reactivateAccount call gap accountNanoid)
    (hallowed : target = id → ∀ j, Write.delete ⟨id, .Owner, owner⟩ ∉ (s.phase j).writes) :
    Inv now id owner (step tz owner jobs s i) := by
  have hidle : (s.phase i).writes = [] := by
    rw [hphase]
    rfl
  rw [step, hjob, hphase]
  simp only [Job.next]
  split
  · next after hok =>
      obtain ⟨loaded, _, _, hafter⟩ := commandTransaction_ok hok
      refine h.commit hidle (h.standing.reactivate (s.world.lt_draw gap) hok)
        ⟨_, rfl, congrArg Db.accountEvents hafter⟩ ?_ ⟨_, List.mem_cons_self, rfl⟩ ?_
      · rintro write hwrite
        obtain ⟨relation, _, rfl⟩ := List.mem_map.mp hwrite
        exact ⟨rfl, rfl⟩
      · intro hid j write hwrite htuple
        exact Write.creates_eq_true htuple fun heq => hallowed hid j (heq ▸ hwrite)
  · exact h.idle hidle rfl

theorem Inv.projectBatch (h : Inv now id owner s) (hphase : s.phase i = .start)
    (hjob : jobs i = .projectBatch env) (hallowed : Reaches s.world.db id) :
    Inv now id owner (step tz owner jobs s i) := by
  have hidle : (s.phase i).writes = [] := by
    rw [hphase]
    rfl
  rw [step, hjob, hphase]
  have hkept : Kept now id s.world.lastVersion s.world.db
      (AccountProjector.projectBatch tz env s.world.db).progress := h.standing.poll hallowed
  have hsame : active now (AccountProjector.projectBatch tz env s.world.db).progress.db id =
      active now s.world.db id := active_congr hkept.events
  have hissued : ∀ write ∈ (AccountProjector.projectBatch tz env s.world.db).progress.owners.reverse.map
      (fun link => Write.create ⟨link.1, .Owner, link.2⟩), write.tuple = ⟨id, .Owner, owner⟩ →
        write.creates = true ∧ active now s.world.db id = true := by
    intro write hwrite htuple
    obtain ⟨link, hlink, rfl⟩ := List.mem_map.mp hwrite
    cases htuple
    exact ⟨rfl, hkept.owners _ (List.mem_reverse.mp hlink)⟩
  refine h.issue hidle hkept.standing (fun write hwrite htuple => ?_) (.inl hsame) fun hnone => ?_
  · obtain ⟨hcreates, hactive⟩ := hissued write hwrite htuple
    rw [hcreates, hsame, hactive]
  · rw [hkept.events] at hnone
    refine ⟨hnone, fun write hwrite htuple => ?_⟩
    obtain ⟨event, hevent, hid⟩ := exists_event_of_active (hissued write hwrite htuple).2
    exact hnone event hevent hid

theorem Inv.step (h : Inv now id owner s) (hallowed : Allowed jobs id owner s i) :
    Inv now id owner (step tz owner jobs s i) := by
  unfold Allowed at hallowed
  cases hphase : s.phase i with
  | start =>
      have hidle : (s.phase i).writes = [] := by
        rw [hphase]
        rfl
      cases hjob : jobs i with
      | createAccount call gap dto => exact h.createAccount hphase hjob
      | deactivateAccount call gap accountNanoid =>
          rw [Ownership.step, hjob, hphase]
          simp only [Job.next]
          split <;> exact h.idle hidle rfl
      | reactivateAccount call gap accountNanoid =>
          rw [Ownership.step, hjob, hphase]
          simp only [Job.next]
          split <;> exact h.idle hidle rfl
      | projectBatch env =>
          rw [hjob, hphase] at hallowed
          exact h.projectBatch hphase hjob hallowed
  | found target =>
      have hidle : (s.phase i).writes = [] := by
        rw [hphase]
        rfl
      cases hjob : jobs i with
      | deactivateAccount call gap accountNanoid =>
          rw [hjob, hphase] at hallowed
          exact h.deactivateAccount hphase hjob hallowed
      | reactivateAccount call gap accountNanoid =>
          rw [Ownership.step, hjob, hphase]
          simp only [Job.next]
          split_ifs <;> exact h.idle hidle rfl
      | _ =>
          rw [Ownership.step, hjob, hphase]
          exact h.idle hidle rfl
  | linked target =>
      cases hjob : jobs i with
      | reactivateAccount call gap accountNanoid =>
          rw [hjob, hphase] at hallowed
          exact h.reactivateAccount hphase hjob hallowed
      | _ =>
          rw [Ownership.step, hjob, hphase]
          exact h.idle (by rw [hphase]; rfl) rfl
  | writing writes =>
      cases writes with
      | nil =>
          have hnext : (jobs i).next tz owner s.world (.writing []) = (.writing [], s.world) := by
            cases jobs i <;> rfl
          rw [Ownership.step, hphase, hnext]
          exact h.idle (by rw [hphase]; rfl) rfl
      | cons write rest =>
          have hnext : (jobs i).next tz owner s.world (.writing (write :: rest)) =
              (.writing rest, { s.world with tuples := write.apply s.world.tuples }) := by
            cases jobs i <;> rfl
          rw [Ownership.step, hphase, hnext]
          exact h.write hphase

/-- In every schedule whose steps are allowed, once every call has returned, the owner relation of an
account that was created in it exists exactly if the account's committed events fold to one that is not
deactivated. -/
theorem ownership_follows_lifecycle (tz : Timestamptz) (owner : AuthAccountId) (jobs : ι → Job)
    (id : AccountId) (start : World) (hevents : ∀ event ∈ start.db.accountEvents, event.id ≠ id)
    (hrow : start.db.accounts.get id = none) (htuple : ⟨id, .Owner, owner⟩ ∉ start.tuples)
    (schedule : List ι)
    (hallowed : Runs.Along (step tz owner jobs) (Allowed jobs id owner) ⟨start, fun _ => .start⟩ schedule)
    (hreturned : ∀ i, (Runs.run (step tz owner jobs) ⟨start, fun _ => .start⟩ schedule).phase i =
      .writing []) (now : OffsetDateTime) :
    let after := (Runs.run (step tz owner jobs) ⟨start, fun _ => .start⟩ schedule).world
    ⟨id, .Owner, owner⟩ ∈ after.tuples ↔ active now after.db id = true := by
  have hinactive : active now start.db id ≠ true := by
    intro hactive
    obtain ⟨event, hevent, hid⟩ := exists_event_of_active hactive
    exact hevents event hevent hid
  have hstanding : Standing now id start.lastVersion start.db :=
    ⟨fun event hevent hid => absurd hid (hevents event hevent),
      fun event hevent _ _ hid => absurd hid (hevents event hevent),
      fun event hlast => absurd hlast.2.1 (hevents event hlast.1),
      fun row hget => by rw [hrow] at hget; cases hget⟩
  have hstart : Inv now id owner (⟨start, fun _ => .start⟩ : State ι) :=
    ⟨hstanding, nofun, .inr (iff_of_false htuple hinactive), nofun⟩
  have hinv := hallowed.invariant (fun s i h hstep => h.step hstep) hstart
  rcases hinv.settled with ⟨i, write, hwrite, _⟩ | hsettled
  · rw [hreturned i] at hwrite
    cases hwrite
  · exact hsettled

open Streams (permitted registered)
open Coverage (plainEnv)

def create : Job := .createAccount (permitted 1 (.ok ())) 0 ⟨"alice", false⟩

def poll : Job := .projectBatch (plainEnv 2)

def deactivate : Job := .deactivateAccount (permitted 3 (.ok ())) 0 "alice-nanoid"

def reactivate : Job := .reactivateAccount (permitted 4 (.ok ())) 0 "alice-nanoid"

/-- One call after the other. -/
theorem ownership_follows_sequence :
    let after := (Runs.run (step .microseconds 3 ![create, poll, deactivate, reactivate])
      ⟨⟨registered, [], 100⟩, fun _ => .start⟩ [0, 0, 1, 1, 2, 2, 2, 2, 2, 3, 3, 3, 3, 3, 3]).world
    after.db.accountEvents.length = 3 ∧ ⟨7, .Owner, 3⟩ ∈ after.tuples :=
  ⟨by decide +kernel,
    (ownership_follows_lifecycle .microseconds 3 ![create, poll, deactivate, reactivate] 7
      ⟨registered, [], 100⟩ (by decide) (by decide) (by decide)
      [0, 0, 1, 1, 2, 2, 2, 2, 2, 3, 3, 3, 3, 3, 3] (by decide +kernel) (by decide +kernel) 9).mpr
      (by decide +kernel)⟩

/-- Three calls of Alice's owner in the order of a schedule. -/
def raced (jobs : Fin 3 → Job) (schedule : List (Fin 3)) : State (Fin 3) :=
  Runs.run (step .microseconds 3 jobs) ⟨⟨registered, [], 100⟩, fun _ => .start⟩ schedule

/-- The poll reads the creation and writes after the deactivation. -/
def latePoll : State (Fin 3) := raced ![create, poll, deactivate] [0, 0, 1, 2, 2, 2, 2, 2, 1]

/-- The deactivation commits before the reactivation and deletes after it. -/
def lateDeletion : State (Fin 3) :=
  raced ![create, deactivate, reactivate] [0, 0, 1, 1, 2, 2, 2, 2, 2, 2, 1, 1, 1]

/-- A deactivated account keeps its owner, and an active one loses it. -/
theorem ownership_lost_in_races :
    ((∀ i, latePoll.phase i = .writing []) ∧ ⟨7, .Owner, 3⟩ ∈ latePoll.world.tuples ∧
        active 9 latePoll.world.db 7 = false) ∧
      (∀ i, lateDeletion.phase i = .writing []) ∧ ⟨7, .Owner, 3⟩ ∉ lateDeletion.world.tuples ∧
        active 9 lateDeletion.world.db 7 = true := by
  decide +kernel

end Ownership

end Emumet

import Emumet.ProjectorDeactivation

/-! The link of an account to its owner. The account projector writes it with the first row of the
account and never removes it, but only when the batch that holds the `Created` event folds to an account
that is not deactivated. -/

namespace Emumet

namespace OwnerLink

open AccountProjector Convergence

/-! ### The links a poll writes -/

/-- The owners an account is linked to. -/
def linked (db : Db) (id : AccountId) : Set AuthAccountId := { a | (id, a) ∈ db.authEmumetAccounts }

/-- The link that handling the events of an account asks for. -/
def linkOf (env : PollEnv) (row : Option AccountRow) (id : AccountId)
    (events : List (SeqEvent AccountEvent)) : Option (AccountId × AuthAccountId) :=
  match entity env (decode env.now row) events with
  | .ok (some account) => owner account (createdAuthAccountId events) id
  | _ => none

variable {tz : Timestamptz} {env : PollEnv} {db after : Db} {id : AccountId}
  {events : List (SeqEvent AccountEvent)} {account : Account}

theorem owner_fst {created : Option AuthAccountId} {link : AccountId × AuthAccountId}
    (h : owner account created id = some link) : link.1 = id := by
  unfold owner at h
  split_ifs at h
  obtain ⟨authId, _, rfl⟩ := Option.map_eq_some_iff.mp h
  rfl

theorem upsert_links (h : AccountProjectionWriter.upsert tz db account = .ok after) :
    after.authEmumetAccounts = db.authEmumetAccounts := by
  simp only [AccountProjectionWriter.upsert, uniqueViolation, reject] at h
  split_ifs at h <;> cases h <;> rfl

/-- The cascade keeps the links; the other branch adds the owner's. -/
theorem write_links {created : Option AuthAccountId} (h : write tz db account created id = .ok after)
    (link : AccountId × AuthAccountId) :
    link ∈ after.authEmumetAccounts ↔
      link ∈ db.authEmumetAccounts ∨ owner account created id = some link := by
  simp only [write, Fallible.bind_eq_ok] at h
  obtain ⟨upserted, hupsert, hrest⟩ := h
  rw [← upsert_links hupsert]
  unfold owner
  split_ifs at hrest with hdeleted
  · obtain ⟨profiles, metadatas, follows, rfl⟩ := cascade_tables hrest
    simp [hdeleted]
  · rw [if_neg hdeleted]
    cases created with
    | none =>
        cases hrest
        simp
    | some authId =>
        simp only [AccountReadModel.linkAuthAccount, foreignKeyViolation, reject] at hrest
        split_ifs at hrest with hlinked
        · cases hrest
          refine ⟨.inl, ?_⟩
          rintro (h | h)
          · exact h
          · cases h
            exact hlinked
        · cases hrest
          simp [or_comm, eq_comm]

/-- The row and the owners of an account. -/
def view (db : Db) (id : AccountId) : Option AccountRow × Set AuthAccountId :=
  (db.accounts.get id, linked db id)

def updateView (tz : Timestamptz) (env : PollEnv) (id : AccountId)
    (view : Option AccountRow × Set AuthAccountId) (events : List (SeqEvent AccountEvent)) :
    Option AccountRow × Set AuthAccountId :=
  (updateRow tz env view.1 events, view.2 ∪ { a | linkOf env view.1 id events = some (id, a) })

theorem project_written_links {written : Option (AccountId × AuthAccountId)}
    (h : project tz env db id events = .written after written) (link : AccountId × AuthAccountId) :
    link ∈ after.authEmumetAccounts ↔
      link ∈ db.authEmumetAccounts ∨ linkOf env (db.accounts.get id) id events = some link := by
  rcases project_cases tz env db id events with
    ⟨_, heq⟩ | ⟨account, hentity, _, ⟨result, hwrite, heq⟩ | heq⟩
  · rw [heq] at h
    cases h
  · rw [heq] at h
    cases h
    rw [findByIdUnfiltered_eq] at hentity
    rw [write_links hwrite, linkOf, hentity]
  · rw [heq] at h
    cases h

theorem project_skipped_links (h : project tz env db id events = .skipped) :
    linkOf env (db.accounts.get id) id events = none := by
  rcases project_cases tz env db id events with
    ⟨hnothing | hfails, _⟩ | ⟨account, _, _, ⟨result, _, heq⟩ | heq⟩
  · unfold linkOf
    split
    · simp [owner, hnothing.2]
    · rfl
  · rw [findByIdUnfiltered_eq] at hfails
    unfold linkOf
    split
    · next account hentity => exact absurd hentity (hfails account)
    · rfl
  · rw [heq] at h
    cases h
  · rw [heq] at h
    cases h

/-- Handling a group that is not rolled back. -/
theorem handle_view {batch : List (SeqEvent AccountEvent)} {progress : Progress}
    (hok : (Projector.handle (project tz env) batch progress id).rolledBack = []) :
    progress.rolledBack = [] ∧ ∀ k, view (Projector.handle (project tz env) batch progress id).db k =
      if k = id then updateView tz env k (view progress.db k) (Projector.groupOf batch k)
      else view progress.db k := by
  obtain ⟨hstart, hrows⟩ := handle_row hok
  have hlinks : ∀ link, link ∈
      (Projector.handle (project tz env) batch progress id).db.authEmumetAccounts ↔
        link ∈ progress.db.authEmumetAccounts ∨
          linkOf env (progress.db.accounts.get id) id (Projector.groupOf batch id) = some link := by
    intro link
    unfold Projector.handle at hok ⊢
    split at hok
    · next hskipped => simp [project_skipped_links hskipped]
    · next hwritten => exact project_written_links hwritten link
    · cases hok
  refine ⟨hstart, fun k => ?_⟩
  by_cases hk : k = id
  · subst hk
    rw [if_pos rfl]
    refine Prod.ext ((hrows k).trans (if_pos rfl)) (Set.ext fun a => hlinks (k, a))
  · rw [if_neg hk]
    refine Prod.ext ((hrows k).trans (if_neg hk)) (Set.ext fun a => (hlinks (k, a)).trans ?_)
    refine or_iff_left fun hlink => hk ?_
    unfold linkOf at hlink
    split at hlink
    · exact owner_fst hlink
    · cases hlink

/-! ### A poll is a poll of the projection machine -/

/-- The account events with the rows and owners projected from them. -/
def projection (db : Db) (last : PollEnv) : Projection.State (SeqEvent AccountEvent) AccountId
    (Option AccountRow × Set AuthAccountId) PollEnv :=
  ⟨db.log .account, view db, last⟩

theorem projection_projectBatch (last : PollEnv)
    (hok : (projectBatch tz env db).progress.rolledBack = []) :
    projection (projectBatch tz env db).progress.db env =
      (projection db last).poll SeqEvent.id SeqEvent.seq SeqEvent.version Projector.window
        Projector.batchLimit (updateView tz) env := by
  have hlog : (projectBatch tz env db).progress.db.log .account =
      (tailingPoll (db.log .account)).1 := (Aggregate.account.projectBatch_spec tz env db).2.1
  have hview := projectBatch_view view (updateView tz env) (fun _ _ => rfl) handle_view hok
  simp only [projection, hlog, funext hview]
  rfl

/-! ### Streams and their first event -/

variable {clock : OffsetDateTime} {applied overlap new : List (SeqEvent AccountEvent)}

/-- The owner a `Created` event names. -/
def createdBy (event : SeqEvent AccountEvent) : Option AuthAccountId :=
  match event.envelope.event with
  | .Created _ _ _ authAccountId => some authAccountId
  | _ => none

theorem createdAuthAccountId_eq (events : List (SeqEvent AccountEvent)) :
    createdAuthAccountId events = events.findSome? createdBy := rfl

theorem createdBy_eq_none_iff {event : SeqEvent AccountEvent} :
    createdBy event = none ↔ event.envelope.event.isCreated = false := by
  unfold createdBy AccountEvent.isCreated
  cases event.envelope.event <;> simp

/-- A stream that folds names its owner in its first event and nowhere else. -/
theorem exists_created (hne : events ≠ [])
    (hfold : ∃ entity, Account.fold clock (events.map SeqEvent.envelope) = .ok entity) :
    ∃ first rest a, events = first :: rest ∧ createdBy first = some a ∧
      ∀ event ∈ rest, createdBy event = none := by
  cases events with
  | nil => exact absurd rfl hne
  | cons first rest =>
      obtain ⟨entity, hentity⟩ := hfold
      rw [List.map_cons, Account.fold, foldEvents, List.foldlM_cons, Fallible.bind_eq_ok] at hentity
      obtain ⟨middle, happly, hrest⟩ := hentity
      have hcreated := Account.apply_none happly
      obtain ⟨account, rfl, _⟩ := Account.apply_ok happly
      cases howner : createdBy first with
      | none =>
          rw [createdBy_eq_none_iff, hcreated] at howner
          cases howner
      | some a =>
          refine ⟨first, rest, a, rfl, howner, fun event hevent => createdBy_eq_none_iff.mpr ?_⟩
          exact Account.foldEvents_not_created hrest event.envelope (List.mem_map_of_mem hevent)

theorem folds_front {front back : List (SeqEvent AccountEvent)}
    (h : ∃ entity, Account.fold clock ((front ++ back).map SeqEvent.envelope) = .ok entity) :
    ∃ entity, Account.fold clock (front.map SeqEvent.envelope) = .ok entity := by
  obtain ⟨entity, hentity⟩ := h
  rw [List.map_append] at hentity
  obtain ⟨middle, hmiddle, _⟩ := foldEvents_split hentity
  exact ⟨middle, hmiddle⟩

theorem created_cons {first : SeqEvent AccountEvent} {rest : List (SeqEvent AccountEvent)}
    {a : AuthAccountId} (h : createdBy first = some a) :
    createdAuthAccountId (first :: rest) = some a := by
  rw [createdAuthAccountId_eq, List.findSome?_cons, h]

/-- The owner named by any event of a stream that folds. -/
theorem created_of_mem {event : SeqEvent AccountEvent} {a : AuthAccountId} (hmem : event ∈ events)
    (ha : createdBy event = some a)
    (hfold : ∃ entity, Account.fold clock (events.map SeqEvent.envelope) = .ok entity) :
    createdAuthAccountId events = some a := by
  obtain ⟨first, rest, b, rfl, hfirst, hrest⟩ := exists_created (List.ne_nil_of_mem hmem) hfold
  rcases List.mem_cons.mp hmem with rfl | hlater
  · exact created_cons ha
  · rw [hrest event hlater] at ha
    cases ha

/-! ### Rows and owners follow the streams -/

/-- There is a row and an owner exactly once an event is applied. -/
structure Represents (_env : PollEnv) (seen : Option AccountRow × Set AuthAccountId)
    (events : List (SeqEvent AccountEvent)) : Prop where
  row : seen.1 = none ↔ events = []
  unlinked : events = [] → seen.2 = ∅
  owner : ∀ a, createdAuthAccountId events = some a → a ∈ seen.2

/-- The first events read of an account fold to one that is not deactivated. -/
def Live (env : PollEnv) (_id : AccountId) (seen : Option AccountRow × Set AuthAccountId)
    (events : List (SeqEvent AccountEvent)) : Prop :=
  seen.1 = none → ∀ account, Account.fold env.now (events.map SeqEvent.envelope) = .ok (some account) →
    account.deletedAt = none

theorem updateRow_ne_none (row : AccountRow) : updateRow tz env (some row) events ≠ none := by
  unfold updateRow
  split_ifs
  · simp
  · split
    · split_ifs <;> simp
    · simp

theorem linkOf_none (env : PollEnv) (id : AccountId)
    (hfold : Account.fold env.now (events.map SeqEvent.envelope) = .ok (some account)) :
    linkOf env none id events = owner account (createdAuthAccountId events) id := by
  have hpending : pending none events = events := List.filter_eq_self.mpr fun _ _ => rfl
  have hentity : entity env none events = .ok (some account) := by
    rw [entity, hpending]
    exact hfold
  unfold linkOf
  rw [show decode env.now none = none from rfl, hentity]

/-- The first batch of an account gives it a row and, if it folds to a live account, its owner. -/
theorem Represents.first (hne : new ≠ [])
    (hadmits : ∃ entity, Account.fold clock (new.map SeqEvent.envelope) = .ok entity)
    (hlive : Live env id (none, ∅) new) :
    Represents env (updateView tz env id (none, ∅) new) new := by
  obtain ⟨entity, hentity⟩ := hadmits
  obtain ⟨account, rfl, _⟩ := Account.foldEvents_ok hentity (by simpa using hne)
  obtain ⟨refolded, hrefolded, _⟩ := Deactivation.foldEvents_agree env.now .none hentity
  have hrow : (updateView tz env id (none, ∅) new).1 = some (.ofAccount tz refolded) :=
    updateRow_afresh rfl hne hrefolded rfl
  refine ⟨?_, fun h => absurd h hne, fun a ha => .inr ?_⟩
  · rw [hrow]
    exact iff_of_false (by simp) hne
  · change linkOf env none id new = some (id, a)
    rw [linkOf_none env id hrefolded, AccountProjector.owner, hlive rfl refolded hrefolded, ha]
    rfl

/-- Later batches keep the row and the owner. -/
theorem Represents.later {before : PollEnv} {seen : Option AccountRow × Set AuthAccountId}
    (h : Represents before seen applied) (hne : applied ≠ [])
    (hadmits : ∃ entity, Account.fold clock ((applied ++ new).map SeqEvent.envelope) = .ok entity) :
    Represents env (updateView tz env id seen (overlap ++ new)) (applied ++ new) := by
  obtain ⟨row, hrow⟩ := Option.ne_none_iff_exists'.mp fun hnone => hne (h.row.mp hnone)
  have hsome : applied ++ new ≠ [] := fun hnil => hne (List.append_eq_nil_iff.mp hnil).1
  refine ⟨iff_of_false ?_ hsome, fun hnil => absurd hnil hsome, fun a ha => .inl (h.owner a ?_)⟩
  · change updateRow tz env seen.1 _ ≠ none
    rw [hrow]
    exact updateRow_ne_none row
  · -- the stream names its owner in its first event, which was applied before
    obtain ⟨first, rest, b, heq, hfirst, _⟩ := exists_created hsome hadmits
    rw [heq, created_cons hfirst] at ha
    cases applied with
    | nil => exact absurd rfl hne
    | cons head tail =>
        rw [List.cons_append, List.cons.injEq] at heq
        rw [heq.1, created_cons hfirst]
        exact ha

theorem correct (tz : Timestamptz) (clock : OffsetDateTime) :
    Projection.Correct SeqEvent.id SeqEvent.version (updateView tz) Represents
      (fun events => ∃ entity, Account.fold clock (events.map SeqEvent.envelope) = .ok entity) Live
      (fun _ _ => True) where
  keep := fun h _ => ⟨h.row, h.unlinked, h.owner⟩
  update := by
    intro before env id seen applied overlap new h _ hoverlap hne _ _ hadmits hlive
    by_cases happlied : applied = []
    · subst happlied
      obtain rfl := List.suffix_nil.mp hoverlap
      obtain ⟨row, links⟩ := seen
      obtain rfl : row = none := h.row.mpr rfl
      obtain rfl : links = ∅ := h.unlinked rfl
      exact Represents.first hne hadmits hlive
    · exact h.later happlied hadmits

/-! ### Runs -/

/-- Every account whose creation has been read is linked to the owner it names. -/
def Linked (db : Db) : Prop :=
  ∀ event ∈ db.accountEvents, ∀ a, createdBy event = some a → event.seq ≤ db.position .account →
    AccountReadModel.isLinkedIncludingDeleted db a event.id = true

/-- A poll reads the first events of an account only when they fold to one that is not deactivated. -/
def LiveAtFirst (s : State) : Action → Prop
  | .reveal _ => True
  | .poll env => ∀ id, s.db.accounts.get id = none → ∀ account,
      Account.fold env.now ((unread s.db id).map SeqEvent.envelope) = .ok (some account) →
        account.deletedAt = none

/-- Only the accounts of the batch have to be looked at. -/
theorem liveAtFirst_poll_iff {s : State} {env : PollEnv} :
    LiveAtFirst s (.poll env) ↔ ∀ event ∈ s.db.batch .account, s.db.accounts.get event.id = none →
      ∀ account ∈ ((Account.fold env.now ((unread s.db event.id).map SeqEvent.envelope)).toOption.join),
        account.deletedAt = none := by
  constructor
  · intro h event _ hnone account hfold
    refine h event.id hnone account ?_
    cases hresult : Account.fold env.now ((unread s.db event.id).map SeqEvent.envelope) with
    | error report => simp [hresult, Except.toOption] at hfold
    | ok entity =>
        simp only [hresult, Except.toOption, Option.join_some, Option.mem_def] at hfold
        rw [hfold]
  · intro h id hnone account hfold
    have hne : unread s.db id ≠ [] := by
      intro hnil
      rw [hnil] at hfold
      cases hfold
    obtain ⟨event, hevent⟩ := List.exists_mem_of_ne_nil _ hne
    obtain ⟨hbatch, rfl⟩ := Projector.mem_groupOf.mp hevent
    exact h event hbatch hnone account (by rw [hfold]; rfl)

instance (s : State) (action : Action) : Decidable (LiveAtFirst s action) :=
  match action with
  | .reveal _ => isTrue trivial
  | .poll _ => decidable_of_iff _ liveAtFirst_poll_iff.symm

/-- Rows and owners follow the streams, whatever the last poll ran in. -/
def Tracked (whole : List (SeqEvent AccountEvent)) (s : State) : Prop :=
  ∀ last, Projection.Tracks SeqEvent.id SeqEvent.seq SeqEvent.version Represents whole 0
    (projection s.db last)

variable {whole : List (SeqEvent AccountEvent)} {s : State} {action : Action}

theorem tracked_start (authAccounts : List AuthAccountId) :
    Tracked whole (start authAccounts) := by
  refine fun last => Projection.Tracks.start fun id => ⟨iff_of_true rfl rfl, fun _ => ?_, ?_⟩
  · exact Set.eq_empty_of_forall_notMem fun a ha => by cases ha
  · intro a ha
    cases ha

theorem Tracked.folds (h : Tracked whole s)
    (hfolds : ∀ id, ∃ entity, Account.fold clock (streamOf whole id) = .ok entity)
    (env : PollEnv) (id : AccountId) : ∃ entity, Account.fold clock
      ((Projection.stream SeqEvent.id SeqEvent.version s.db.accountEvents id).map SeqEvent.envelope) =
        .ok entity := by
  obtain ⟨rest, hrest⟩ := (h env).visible id
  have hwhole := hfolds id
  rw [streamOf, ← hrest] at hwhole
  exact folds_front hwhole

theorem Tracked.step (h : Tracked whole s)
    (hwhole : Projection.Ordered SeqEvent.id SeqEvent.seq SeqEvent.version whole)
    (hpositive : ∀ event ∈ whole, 0 < event.seq)
    (hfolds : ∀ id, ∃ entity, Account.fold clock (streamOf whole id) = .ok entity)
    (hallowed : InOrder tz whole s action) (hlive : LiveAtFirst s action) :
    Tracked whole (step tz s action) := by
  cases action with
  | reveal event =>
      exact fun last => (h last).append hwhole hpositive hallowed.1 hallowed.2
  | poll env =>
      intro last
      have hslack : Projection.Tracks SeqEvent.id SeqEvent.seq SeqEvent.version Represents whole
          Projector.window (projection s.db env) := (h env).mono (Int.natCast_nonneg _)
      have hmargin : 0 < Projector.window := by decide
      have hlimit : Projector.window ≤ Projector.batchLimit := by decide
      have htracks := hslack.poll (correct tz clock) hmargin hlimit (Tracked.folds h hfolds env)
        folds_front trivial fun id _ hnone account => hlive id hnone account
      rw [← projection_projectBatch env hallowed] at htracks
      -- what the rows represent does not depend on the last poll
      refine ⟨htracks.sound, htracks.ordered, htracks.visible, fun id => ?_⟩
      obtain ⟨applied, rest, hsplit, hrep, hbounds⟩ := htracks.rows id
      exact ⟨applied, rest, hsplit, ⟨hrep.row, hrep.unlinked, hrep.owner⟩, hbounds⟩

theorem Tracked.linked (h : Tracked whole s)
    (hfolds : ∀ id, ∃ entity, Account.fold clock (streamOf whole id) = .ok entity)
    (env : PollEnv) : Linked s.db := by
  intro event hevent a ha hseq
  obtain ⟨applied, rest, hsplit, hrep, _, hrest⟩ := (h env).rows event.id
  have hmem : event ∈ applied ++ rest := hsplit ▸ Projection.mem_stream.mpr ⟨hevent, rfl⟩
  have happlied : event ∈ applied := by
    refine (List.mem_append.mp hmem).resolve_right fun hlater => ?_
    have habove := hrest event hlater
    rw [sub_zero] at habove
    exact absurd hseq (not_le.mpr habove)
  have hfold := Tracked.folds h hfolds env event.id
  rw [show Projection.stream SeqEvent.id SeqEvent.version s.db.accountEvents event.id = _ from hsplit]
    at hfold
  have howner : (event.id, a) ∈ s.db.authEmumetAccounts :=
    hrep.owner a (created_of_mem happlied ha (folds_front hfold))
  exact decide_eq_true howner

/-- A poll stores a position that is not below any event it read. -/
theorem read_le_position (hsound : (s.db.log .account).Sound SeqEvent.seq)
    {event : SeqEvent AccountEvent} (hread : event ∈ s.db.batch .account) :
    event.seq ≤ (Convergence.step tz s (.poll env)).db.position .account := by
  have hlog := (Aggregate.account.projectBatch_spec tz env s.db).2.1
  have hposition : (Convergence.step tz s (.poll env)).db.position .account =
      (tailingPoll (s.db.log .account)).1.position := congrArg Tailing.Log.position hlog
  rw [hposition, hsound.position_poll (by decide) (by decide) (List.ne_nil_of_mem hread)]
  exact Tailing.le_lastSeq SeqEvent.seq (Tailing.window_sorted SeqEvent.seq hsound.distinct _ _) _ hread

/-- A first batch that folds to a deactivated account leaves its owner without a link. -/
theorem Tracked.unlinked (h : Tracked whole s) {env : PollEnv} (hok : NoWriteFails tz s env)
    (hdead : ¬LiveAtFirst s (.poll env)) : ¬Linked (Convergence.step tz s (.poll env)).db := by
  simp only [LiveAtFirst, not_forall] at hdead
  obtain ⟨id, hnone, account, hfold, hdeleted⟩ := hdead
  have hne : unread s.db id ≠ [] := by
    intro hnil
    rw [hnil] at hfold
    cases hfold
  obtain ⟨applied, rest, _, hrep, _⟩ := (h env).rows id
  have hbefore : OwnerLink.linked s.db id = ∅ := hrep.unlinked (hrep.row.mp hnone)
  have hasked : linkOf env (s.db.accounts.get id) id (unread s.db id) = none := by
    rw [hnone, linkOf_none env id hfold, AccountProjector.owner,
      if_pos (Option.isSome_iff_ne_none.mpr hdeleted)]
  have hafter : OwnerLink.linked (Convergence.step tz s (.poll env)).db id = ∅ := by
    have hview := projectBatch_view view (updateView tz env) (fun _ _ => rfl) handle_view hok id
    rw [if_neg (mt List.isEmpty_iff.mp hne)] at hview
    refine (congrArg Prod.snd hview).trans ?_
    simp only [updateView, view, hbefore, hasked]
    simp
  obtain ⟨first, tail, a, hread, hfirst, _⟩ := exists_created hne ⟨_, hfold⟩
  obtain ⟨hbatch, hid⟩ := Projector.mem_groupOf.mp
    (show first ∈ unread s.db id from hread ▸ List.mem_cons_self)
  intro hlinked
  have hevent : first ∈ (Convergence.step tz s (.poll env)).db.accountEvents := by
    rw [show (Convergence.step tz s (.poll env)).db.accountEvents = s.db.accountEvents from
      (Aggregate.account.projectBatch_spec tz env s.db).1 .account]
    exact (Tailing.mem_of_mem_window SeqEvent.seq hbatch).1
  have hlink := hlinked first hevent a hfirst (read_le_position (h env).sound hbatch)
  rw [hid, AccountReadModel.isLinkedIncludingDeleted, decide_eq_true_eq] at hlink
  have hmem : a ∈ OwnerLink.linked (Convergence.step tz s (.poll env)).db id := hlink
  rw [hafter] at hmem
  exact hmem

/-- In a run that appends in order and in which no write fails, every owner is linked in every state
exactly when every poll reads the first events of an account only when they fold to a live one. -/
theorem owner_link_survives_iff (tz : Timestamptz) (authAccounts : List AuthAccountId)
    (whole : List (SeqEvent AccountEvent)) (clock : OffsetDateTime)
    (hwhole : Projection.Ordered SeqEvent.id SeqEvent.seq SeqEvent.version whole)
    (hpositive : ∀ event ∈ whole, 0 < event.seq)
    (hfolds : ∀ id, ∃ entity, Account.fold clock (streamOf whole id) = .ok entity)
    (actions : List Action)
    (hallowed : Runs.Along (step tz) (InOrder tz whole) (start authAccounts) actions) :
    (∀ front, front <+: actions → Linked (Runs.run (step tz) (start authAccounts) front).db) ↔
      Runs.Along (step tz) LiveAtFirst (start authAccounts) actions := by
  have htracked : ∀ front, Runs.Along (step tz) (InOrder tz whole) (start authAccounts) front →
      Runs.Along (step tz) LiveAtFirst (start authAccounts) front →
      Tracked whole (Runs.run (step tz) (start authAccounts) front) := by
    intro front hinOrder hlive
    refine (hinOrder.and hlive).invariant ?_ (tracked_start authAccounts)
    exact fun s action h hboth => h.step hwhole hpositive hfolds hboth.1 hboth.2
  constructor
  · intro hlinked
    -- from the end: the last action is live at first, or the state after it is not linked
    induction actions using List.reverseRecOn with
    | nil => trivial
    | append_singleton front action ih =>
        obtain ⟨hfront, hlast, _⟩ := Runs.along_append.mp hallowed
        have hlive := ih hfront fun part hpart => hlinked part (hpart.trans (List.prefix_append _ _))
        refine Runs.along_append.mpr ⟨hlive, ?_, trivial⟩
        by_contra hdead
        cases action with
        | reveal event => exact hdead trivial
        | poll env =>
            refine (htracked front hfront hlive).unlinked hlast hdead ?_
            have hend := hlinked (front ++ [.poll env]) (List.prefix_refl _)
            rw [Runs.run_append] at hend
            exact hend
  · rintro hlive front ⟨rest, rfl⟩
    obtain ⟨hinOrder, _⟩ := Runs.along_append.mp hallowed
    obtain ⟨hlive, _⟩ := Runs.along_append.mp hlive
    exact (htracked front hinOrder hlive).linked hfolds (Coverage.plainEnv 0)

open Deactivation

/-- Polled before the deactivation, the account keeps its owner. -/
def deactivatedAliceRun : List Action :=
  [.reveal ⟨1, ⟨7, .Created "alice" false "alice-nanoid" 3, 20⟩⟩, .poll (Coverage.plainEnv 10),
    .reveal ⟨2, ⟨7, .Deactivated, 21⟩⟩, .poll (Coverage.plainEnv 11)]

theorem owner_link_survives_deactivatedAlice :
    Linked (Runs.run (step .microseconds) (start [3, 4]) deactivatedAliceRun).db :=
  (owner_link_survives_iff .microseconds [3, 4] (reactivatedAlice 3) 0 ⟨by decide, by decide⟩ (by decide)
    (folds_reactivatedAlice 3) deactivatedAliceRun (by decide +kernel)).mpr (by decide +kernel)
    deactivatedAliceRun (List.prefix_refl _)

/-- The first poll reads the creation and the deactivation together: the row is written and the owner
is not linked, so the owner can not reactivate the account. -/
theorem owner_link_missed :
    let actions := (reactivatedAliceRun 200).take 3
    let db := (Runs.run (step .microseconds) (start [3, 4]) actions).db
    Runs.Along (step .microseconds) (InOrder .microseconds (reactivatedAlice 200)) (start [3, 4]) actions ∧
      db.position .account = 2 ∧ (db.accounts.get 7).isSome = true ∧
      AccountReadModel.isLinkedIncludingDeleted db 3 7 = false ∧ ¬Linked db := by
  refine ⟨by decide +kernel, by decide +kernel, by decide +kernel, by decide +kernel, fun hlinked => ?_⟩
  have hlink := hlinked ⟨1, ⟨7, .Created "alice" false "alice-nanoid" 3, 20⟩⟩ (by decide +kernel) 3 rfl
    (by decide +kernel)
  exact absurd hlink (by decide +kernel)

end OwnerLink

end Emumet

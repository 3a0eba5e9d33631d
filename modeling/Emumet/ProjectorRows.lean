import Emumet.DriverAccountRow
import Emumet.ProjectorCoverage

/-! The account projector as a keyed projection. Handling a group reads and writes the row of its
account only, by a function of that row and the group's events, so a poll in which no write fails is a
poll of the projection machine with that function as its update. -/

namespace Emumet

namespace AccountProjector

/-! ### The update of one row -/

/-- The account a row is folded onto: that of a row which is not deleted. -/
def decode (now : OffsetDateTime) (row : Option AccountRow) : Option Account :=
  (row.filter (·.deletedAt.isNone)).map (·.toAccount true now)

/-- The row of an account after the events of a batch that belong to it. -/
def updateRow (tz : Timestamptz) (env : PollEnv) (row : Option AccountRow)
    (events : List (SeqEvent AccountEvent)) : Option AccountRow :=
  if pending (decode env.now row) events = [] ∧ createdAuthAccountId events = none then row
  else
    match entity env (decode env.now row) events with
    | .ok (some account) =>
        if row.all (·.version < account.version) then some (.ofAccount tz account) else row
    | _ => row

theorem findByIdUnfiltered_eq (db : Db) (now : OffsetDateTime) (id : AccountId) :
    AccountReadModel.findByIdUnfiltered db now id = decode now (db.accounts.get id) := rfl

variable {tz : Timestamptz} {env : PollEnv} {db after : Db} {id : AccountId}
  {events : List (SeqEvent AccountEvent)} {account : Account}

theorem decode_id (hdecode : decode env.now (db.accounts.get id) = some account) :
    account.id = id := by
  rw [decode, Option.map_eq_some_iff] at hdecode
  obtain ⟨row, hrow, rfl⟩ := hdecode
  exact (Table.get_eq_some_iff.mp (Option.filter_eq_some_iff.mp hrow).1).2

/-- The account folded from the events of one account is that account. -/
theorem entity_id (hevents : ∀ event ∈ events, event.id = id)
    (hentity : entity env (decode env.now (db.accounts.get id)) events = .ok (some account)) :
    account.id = id := by
  refine Account.foldEvents_id (fun existing hexisting => decode_id hexisting) ?_ hentity
  intro event hevent
  obtain ⟨row, hrow, rfl⟩ := List.mem_map.mp hevent
  exact hevents row (List.mem_filter.mp hrow).1

theorem upsert_row (h : AccountProjectionWriter.upsert tz db account = .ok after) (k : AccountId) :
    after.accounts.get k =
      if k = account.id ∧ (db.accounts.get k).all (·.version < account.version) then
        some (.ofAccount tz account)
      else db.accounts.get k := by
  simp only [AccountProjectionWriter.upsert, uniqueViolation, reject, AccountRow.ofAccount_id,
    AccountRow.ofAccount_version] at h
  by_cases hnewer : (db.accounts.get account.id).all (·.version < account.version)
  · rw [if_pos hnewer] at h
    split_ifs at h
    cases h
    rw [Table.get_put, AccountRow.ofAccount_id]
    by_cases hk : k = account.id
    · subst hk
      rw [if_pos rfl, if_pos ⟨rfl, hnewer⟩]
    · rw [if_neg hk, if_neg (fun hboth => hk hboth.1)]
  · rw [if_neg hnewer] at h
    cases h
    rw [if_neg]
    rintro ⟨rfl, hall⟩
    exact hnewer hall

/-- A group that is written updates the row of its account and no other. -/
theorem project_written_row {owner : Option (AccountId × AuthAccountId)}
    (hevents : ∀ event ∈ events, event.id = id)
    (h : project tz env db id events = .written after owner) (k : AccountId) :
    after.accounts.get k =
      if k = id then updateRow tz env (db.accounts.get k) events else db.accounts.get k := by
  rcases project_cases tz env db id events with
    ⟨_, heq⟩ | ⟨account, hentity, hsome, ⟨result, hwrite, heq⟩ | heq⟩
  · rw [heq] at h
    cases h
  · rw [heq] at h
    cases h
    obtain ⟨upserted, _, _, _, _, hupsert, rfl⟩ := write_ok hwrite
    have hid : account.id = id := entity_id hevents hentity
    rw [findByIdUnfiltered_eq] at hentity hsome
    refine (upsert_row hupsert k).trans ?_
    by_cases hk : k = id
    · subst hk
      rw [if_pos rfl, updateRow, if_neg hsome, hentity]
      simp only [hid, true_and]
    · rw [if_neg hk, if_neg]
      rintro ⟨rfl, _⟩
      exact hk hid
  · rw [heq] at h
    cases h

theorem project_skipped_row (h : project tz env db id events = .skipped) :
    updateRow tz env (db.accounts.get id) events = db.accounts.get id := by
  rcases project_cases tz env db id events with
    ⟨hnothing | hfails, _⟩ | ⟨account, _, _, ⟨result, _, heq⟩ | heq⟩
  · rw [findByIdUnfiltered_eq] at hnothing
    rw [updateRow, if_pos hnothing]
  · rw [findByIdUnfiltered_eq] at hfails
    rw [updateRow]
    split_ifs
    · rfl
    · split
      · rename_i account hentity
        exact absurd hentity (hfails account)
      · rfl
  · rw [heq] at h
    cases h
  · rw [heq] at h
    cases h

/-! ### The rows of a batch -/

variable {batch : List (SeqEvent AccountEvent)} {progress : Progress}

/-- Handling a group that is not rolled back. -/
theorem handle_row (hok : (Projector.handle (project tz env) batch progress id).rolledBack = []) :
    progress.rolledBack = [] ∧ ∀ k,
      (Projector.handle (project tz env) batch progress id).db.accounts.get k =
        if k = id then updateRow tz env (progress.db.accounts.get k) (Projector.groupOf batch k)
        else progress.db.accounts.get k := by
  unfold Projector.handle at hok ⊢
  split at hok
  · rename_i hskipped
    refine ⟨hok, fun k => ?_⟩
    by_cases hk : k = id
    · subst hk
      rw [if_pos rfl, project_skipped_row hskipped]
    · rw [if_neg hk]
  · rename_i after owner hwritten
    refine ⟨hok, fun k => ?_⟩
    refine (project_written_row (fun event hevent => (Projector.mem_groupOf.mp hevent).2) hwritten
      k).trans ?_
    by_cases hk : k = id
    · subst hk
      rfl
    · rw [if_neg hk, if_neg hk]
  · cases hok

/-! ### A poll is a poll of the projection machine -/

/-- The account events with the rows projected from them; the environment is that of the last poll. -/
def projection (db : Db) (last : PollEnv) :
    Projection.State (SeqEvent AccountEvent) AccountId (Option AccountRow) PollEnv :=
  ⟨db.log .account, db.accounts.get, last⟩

/-- The events of an account the next poll reads. -/
def unread (db : Db) (id : AccountId) : List (SeqEvent AccountEvent) :=
  Projector.groupOf (db.batch .account) id

theorem mem_batch_ids (db : Db) (id : AccountId) :
    id ∈ env.order ((db.batch .account).map SeqEvent.id).dedup ↔ unread db id ≠ [] := by
  rw [(env.order_perm _).mem_iff, List.mem_dedup, List.mem_map]
  constructor
  · rintro ⟨event, hevent⟩
    exact List.ne_nil_of_mem (Projection.mem_stream.mpr hevent)
  · intro hunread
    obtain ⟨event, hevent⟩ := List.exists_mem_of_ne_nil _ hunread
    exact ⟨event, Projection.mem_stream.mp hevent⟩

/-- What is seen of an account after a poll in which no write fails, when handling a group updates what
is seen of its account only. -/
theorem projectBatch_view {ρ : Type} (view : Db → AccountId → ρ)
    (update : AccountId → ρ → List (SeqEvent AccountEvent) → ρ)
    (hstore : ∀ db seq, view (Projector.storePosition db .account seq) = view db)
    (hhandle : ∀ {batch progress id},
      (Projector.handle (project tz env) batch progress id).rolledBack = [] →
        progress.rolledBack = [] ∧ ∀ k, view (Projector.handle (project tz env) batch progress id).db k =
          if k = id then update k (view progress.db k) (Projector.groupOf batch k)
          else view progress.db k)
    (hok : (projectBatch tz env db).progress.rolledBack = []) (id : AccountId) :
    view (projectBatch tz env db).progress.db id =
      if (unread db id).isEmpty then view db id else update id (view db id) (unread db id) := by
  have hpoll : projectBatch tz env db = Aggregate.account.projectBatch tz env db := rfl
  by_cases hempty : db.batch .account = []
  · have hunread : unread db id = [] := by rw [unread, hempty]; rfl
    rw [hpoll, Aggregate.projectBatch_of_nil hempty, hunread]
    rfl
  · rw [hpoll, Aggregate.projectBatch_of_ne_nil hempty] at hok ⊢
    have hnodup : (env.order ((db.batch .account).map SeqEvent.id).dedup).Nodup :=
      (env.order_perm _).nodup_iff.mpr (List.nodup_dedup _)
    have hviews := Projection.foldl_keyed (fun progress : Progress => view progress.db)
      (fun id seen => update id seen (Projector.groupOf (db.batch .account) id))
      (fun progress => progress.rolledBack = []) (fun _ _ hok => hhandle hok) hnodup hok
    rw [hstore]
    refine (hviews.2 id).trans ?_
    by_cases hunread : unread db id = []
    · rw [if_neg (fun hmem => (mem_batch_ids db id).mp hmem hunread), hunread]
      rfl
    · rw [if_pos ((mem_batch_ids db id).mpr hunread), if_neg (mt List.isEmpty_iff.mp hunread)]
      rfl

/-- The update of the machine. -/
def update (tz : Timestamptz) (env : PollEnv) (_id : AccountId) (row : Option AccountRow)
    (events : List (SeqEvent AccountEvent)) : Option AccountRow :=
  updateRow tz env row events

/-- A poll in which no write fails is a poll of the machine. -/
theorem projection_projectBatch (last : PollEnv)
    (hok : (projectBatch tz env db).progress.rolledBack = []) :
    projection (projectBatch tz env db).progress.db env =
      (projection db last).poll SeqEvent.id SeqEvent.seq SeqEvent.version Projector.window
        Projector.batchLimit (update tz) env := by
  have hlog : (projectBatch tz env db).progress.db.log .account =
      (tailingPoll (db.log .account)).1 := (Aggregate.account.projectBatch_spec tz env db).2.1
  have hrows : (projectBatch tz env db).progress.db.accounts.get = fun id =>
      if (unread db id).isEmpty then db.accounts.get id
      else updateRow tz env (db.accounts.get id) (unread db id) :=
    funext (projectBatch_view (fun db => db.accounts.get) (fun _ row => updateRow tz env row)
      (fun _ _ => rfl) handle_row hok)
  simp only [projection, hlog, hrows]
  rfl

/-! ### What an update does -/

variable {row : AccountRow} {stored : Option AccountRow} {overlap new : List (SeqEvent AccountEvent)}

/-- Without an account to fold onto, every event is folded. -/
theorem updateRow_afresh (hdecode : decode env.now stored = none) (hne : events ≠ [])
    (hfold : Account.fold env.now (events.map SeqEvent.envelope) = .ok (some account))
    (hnewer : stored.all (·.version < account.version)) :
    updateRow tz env stored events = some (.ofAccount tz account) := by
  have hpending : pending none events = events := List.filter_eq_self.mpr fun _ _ => rfl
  have hentity : entity env none events = .ok (some account) := by rw [entity, hpending]; exact hfold
  rw [updateRow, hdecode, hpending, if_neg (fun h => hne h.1), hentity]
  exact if_pos hnewer

/-- Events that are not newer than the row are filtered out. -/
theorem pending_append {existing : Account} (hold : ∀ event ∈ overlap, event.version ≤ existing.version)
    (hnew : ∀ event ∈ new, existing.version < event.version) :
    pending (some existing) (overlap ++ new) = new := by
  have hoverlap : pending (some existing) overlap = [] := by
    rw [pending, List.filter_eq_nil_iff]
    intro event hevent
    simpa using hold event hevent
  have hrest : pending (some existing) new = new := by
    rw [pending, List.filter_eq_self]
    intro event hevent
    simpa using hnew event hevent
  rw [pending] at hoverlap hrest
  rw [pending, List.filter_append, hoverlap, hrest, List.nil_append]

theorem decode_visible (hvisible : row.deletedAt = none) :
    decode env.now (some row) = some (row.toAccount true env.now) := by
  simp [decode, Option.filter, hvisible]

theorem decode_hidden (hhidden : row.deletedAt.isSome) : decode env.now (some row) = none := by
  cases hdeleted : row.deletedAt with
  | none => simp [hdeleted] at hhidden
  | some instant => simp [decode, Option.filter, hdeleted]

/-- A visible row gets the fold of the newer events onto it. -/
theorem updateRow_visible (hvisible : row.deletedAt = none)
    (hold : ∀ event ∈ overlap, event.version ≤ row.version)
    (hnew : ∀ event ∈ new, row.version < event.version) (hne : new ≠ [])
    (hfold : foldEvents (Account.apply env.now) (some (row.toAccount true env.now))
      (new.map SeqEvent.envelope) = .ok (some account)) :
    updateRow tz env (some row) (overlap ++ new) = some (.ofAccount tz account) := by
  have hpending : pending (some (row.toAccount true env.now)) (overlap ++ new) = new :=
    pending_append hold hnew
  have hentity : entity env (some (row.toAccount true env.now)) (overlap ++ new) =
      .ok (some account) := by
    rw [entity, hpending]
    exact hfold
  have hnewer : row.version < account.version := by
    have hmap : new.map SeqEvent.envelope ≠ [] := by simpa using hne
    obtain ⟨result, hresult, hversion⟩ := Account.foldEvents_ok hfold hmap
    cases hresult
    rw [hversion, List.getLast_map]
    exact hnew _ (List.getLast_mem hne)
  rw [updateRow, decode_visible hvisible, hpending, if_neg (fun h => hne h.1), hentity]
  exact if_pos (by simpa using hnewer)

/-- Events that are not newer than the row leave it as it is, whether it is visible or not. -/
theorem updateRow_old (hold : ∀ event ∈ events, event.version ≤ row.version) :
    updateRow tz env (some row) events = some row := by
  have hgate : ∀ account, entity env (decode env.now (some row)) events = .ok (some account) →
      account.version ≤ row.version := by
    intro account hentity
    by_cases hnone : pending (decode env.now (some row)) events = []
    · -- Nothing is folded, so the account is the one decoded from the row.
      rw [entity, hnone] at hentity
      have hdecode : decode env.now (some row) = some account := Except.ok.inj hentity
      rw [decode, Option.map_eq_some_iff] at hdecode
      obtain ⟨found, hfound, rfl⟩ := hdecode
      cases (Option.filter_eq_some_iff.mp hfound).1
      exact le_refl row.version
    · have hmap : (pending (decode env.now (some row)) events).map SeqEvent.envelope ≠ [] := by
        simpa using hnone
      obtain ⟨result, hresult, hversion⟩ := Account.foldEvents_ok hentity hmap
      cases hresult
      rw [hversion, List.getLast_map]
      exact hold _ (List.mem_filter.mp (List.getLast_mem hnone)).1
  unfold updateRow
  split_ifs
  · rfl
  · split
    · rename_i account hentity
      have := hgate account hentity
      rw [if_neg (by simpa using this)]
    · rfl

/-- What a stream folds to has the version of its last event, and the events after it are newer. -/
theorem fold_versions {clock : OffsetDateTime} {applied : List (SeqEvent AccountEvent)}
    (hsorted : (applied ++ new).Pairwise fun a b => a.version < b.version)
    (hfold : Account.fold clock (applied.map SeqEvent.envelope) = .ok (some account)) :
    (∀ event ∈ applied, event.version ≤ account.version) ∧
      ∀ event ∈ new, account.version < event.version := by
  have hne : applied ≠ [] := by
    rintro rfl
    cases hfold
  have hmap : applied.map SeqEvent.envelope ≠ [] := by simpa using hne
  obtain ⟨result, hresult, hversion⟩ := Account.foldEvents_ok hfold hmap
  cases hresult
  have hlast : account.version = (applied.getLast hne).version := by
    rw [hversion, List.getLast_map]
    rfl
  obtain ⟨happlied, _, hbetween⟩ := List.pairwise_append.mp hsorted
  constructor
  · intro event hevent
    have hle := Tailing.le_lastSeq SeqEvent.version happlied 0 hevent
    simpa [Tailing.lastSeq, List.getLast?_eq_getLast_of_ne_nil hne, hlast] using hle
  · intro event hevent
    rw [hlast]
    exact hbetween _ (List.getLast_mem hne) event hevent

end AccountProjector

end Emumet

import Emumet.LibFallible
import Emumet.ProjectorBatch

/-! The account projector: it folds the events of one account onto its row, writes the row through the
version gate, links the owner of a new account and removes what hangs on a deactivated one. -/

namespace Emumet

namespace AccountProjector

/-- The auth account of the first `Created` event. -/
def createdAuthAccountId (events : List (SeqEvent AccountEvent)) : Option AuthAccountId :=
  events.findSome? fun event =>
    match event.envelope.event with
    | .Created _ _ _ authAccountId => some authAccountId
    | _ => none

def deleteProfile (db : Db) (accountId : AccountId) : Result Db :=
  match ProfileReadModel.findByAccountId db accountId with
  | some profile => ProfileReadModel.delete db profile.id
  | none => .ok db

def deleteMetadatas (db : Db) (accountId : AccountId) : Result Db :=
  (MetadataReadModel.findByAccountId db accountId).foldlM
    (fun db metadata => MetadataReadModel.delete db metadata.id) db

def deleteFollows (db : Db) (follows : List Follow) : Result Db :=
  follows.foldlM (fun db follow => FollowRepository.delete db follow.id) db

/-- Delete the rows that hang on a deactivated account; its auth links stay. -/
def cascade (db : Db) (accountId : AccountId) : Result Db := do
  let db ← deleteProfile db accountId
  let db ← deleteMetadatas db accountId
  let followings ← FollowRepository.findFollowings db (.Local accountId)
  let db ← deleteFollows db followings
  let followers ← FollowRepository.findFollowers db (.Local accountId)
  deleteFollows db followers

/-- The writes behind the savepoint. -/
def write (tz : Timestamptz) (db : Db) (account : Account) (created : Option AuthAccountId)
    (accountId : AccountId) : Result Db := do
  let db ← AccountProjectionWriter.upsert tz db account
  if account.deletedAt.isSome then cascade db accountId
  else
    match created with
    | some authId => AccountReadModel.linkAuthAccount db accountId authId
    | none => pure db

/-- The relation asked for once the owner is linked. -/
def owner (account : Account) (created : Option AuthAccountId) (accountId : AccountId) :
    Option (AccountId × AuthAccountId) :=
  if account.deletedAt.isSome then none else created.map fun authId => (accountId, authId)

/-- The events newer than the account they are folded onto. -/
def pending (existing : Option Account) (events : List (SeqEvent AccountEvent)) :
    List (SeqEvent AccountEvent) :=
  events.filter fun event => existing.all (·.version < event.version)

def project (tz : Timestamptz) (env : PollEnv) (db : Db) (accountId : AccountId)
    (events : List (SeqEvent AccountEvent)) : GroupResult :=
  let created := createdAuthAccountId events
  let existing := AccountReadModel.findByIdUnfiltered db env.now accountId
  let pending := pending existing events
  if pending.isEmpty && created.isNone then .skipped
  else
    match foldEvents (Account.apply env.now) existing (pending.map SeqEvent.envelope) with
    | .error _ => .skipped
    | .ok none => .skipped
    | .ok (some account) =>
        if env.writeFails accountId then .rolledBack
        else
          match write tz db account created accountId with
          | .ok db => .written db (owner account created accountId)
          | .error _ => .rolledBack

/-- `project_batch`. -/
def projectBatch (tz : Timestamptz) (env : PollEnv) (db : Db) : PollResult :=
  Projector.pollBatch .account db.accountEvents env (project tz env) db

/-- What is folded onto the row of an account. -/
def entity (env : PollEnv) (existing : Option Account) (events : List (SeqEvent AccountEvent)) :
    Result (Option Account) :=
  foldEvents (Account.apply env.now) existing ((pending existing events).map SeqEvent.envelope)

/-- A group is skipped when it holds nothing new or does not fold; otherwise it is written or rolled
back. -/
theorem project_cases (tz : Timestamptz) (env : PollEnv) (db : Db) (accountId : AccountId)
    (events : List (SeqEvent AccountEvent)) :
    let existing := AccountReadModel.findByIdUnfiltered db env.now accountId
    let created := createdAuthAccountId events
    (((pending existing events = [] ∧ created = none) ∨
        ∀ account, entity env existing events ≠ .ok (some account)) ∧
      project tz env db accountId events = .skipped) ∨
    (∃ account, entity env existing events = .ok (some account) ∧
      ¬(pending existing events = [] ∧ created = none) ∧
      ((∃ after, write tz db account created accountId = .ok after ∧
          project tz env db accountId events = .written after (owner account created accountId)) ∨
        project tz env db accountId events = .rolledBack)) := by
  intro existing created
  by_cases hnothing : pending existing events = [] ∧ created = none
  · refine Or.inl ⟨Or.inl hnothing, ?_⟩
    simp [project, existing, created, hnothing]
  · have hsome : ((pending existing events).isEmpty && created.isNone) = false := by
      rw [Bool.and_eq_false_iff, ← Bool.not_eq_true, ← Bool.not_eq_true, List.isEmpty_iff,
        Option.isNone_iff_eq_none]
      exact not_and_or.mp hnothing
    cases hentity : entity env existing events with
    | error report =>
        refine Or.inl ⟨Or.inr (by simp), ?_⟩
        simp only [entity] at hentity
        simp only [project, existing, created, hsome, hentity, Bool.false_eq_true, if_false]
    | ok folded =>
        simp only [entity] at hentity
        cases folded with
        | none =>
            refine Or.inl ⟨Or.inr (by simp), ?_⟩
            simp only [project, existing, created, hsome, hentity, Bool.false_eq_true, if_false]
        | some account =>
            refine Or.inr ⟨account, rfl, hnothing, ?_⟩
            simp only [project, existing, created, hsome, hentity, Bool.false_eq_true, if_false]
            cases env.writeFails accountId with
            | true => exact Or.inr rfl
            | false =>
                cases hwrite : write tz db account (createdAuthAccountId events) accountId with
                | error report => exact Or.inr rfl
                | ok after => exact Or.inl ⟨after, rfl, rfl⟩

/-! ### What the writes touch -/

/-- The profile the lookup finds is gone. -/
theorem deleteProfile_ok {db after : Db} {accountId : AccountId}
    (h : deleteProfile db accountId = .ok after) :
    after = { db with profiles := after.profiles } ∧ ∀ row, row ∈ after.profiles.rows ↔
      row ∈ db.profiles.rows ∧
        ∀ found, ProfileReadModel.findByAccountId db accountId = some found → row.id ≠ found.id := by
  unfold deleteProfile at h
  split at h
  · rename_i found hfound
    simp only [ProfileReadModel.delete, reject] at h
    split_ifs at h
    cases h
    refine ⟨rfl, fun row => ?_⟩
    rw [Table.mem_erase]
    refine and_congr_right fun _ => ⟨?_, fun hother => hother found hfound⟩
    rintro hother other hother'
    rw [hfound] at hother'
    cases hother'
    exact hother
  · rename_i hnone
    cases h
    refine ⟨rfl, fun row => ⟨fun hrow => ⟨hrow, ?_⟩, And.left⟩⟩
    rintro found hfound
    rw [hnone] at hfound
    cases hfound

/-- Exactly the metadata with the given ids are gone. -/
theorem deletesMetadata_ok {metadatas : List Metadata} {db after : Db}
    (h : metadatas.foldlM (fun db metadata => MetadataReadModel.delete db metadata.id) db = .ok after) :
    after = { db with metadatas := after.metadatas } ∧ ∀ row, row ∈ after.metadatas.rows ↔
      row ∈ db.metadatas.rows ∧ ∀ metadata ∈ metadatas, row.id ≠ metadata.id := by
  induction metadatas generalizing db with
  | nil =>
      cases h
      exact ⟨rfl, fun row => by simp⟩
  | cons first rest ih =>
      rw [List.foldlM_cons, Fallible.bind_eq_ok] at h
      obtain ⟨middle, hfirst, hrest⟩ := h
      obtain ⟨htables, hrows⟩ := ih hrest
      simp only [MetadataReadModel.delete, reject] at hfirst
      split_ifs at hfirst
      cases hfirst
      refine ⟨htables, fun row => ?_⟩
      rw [hrows, Table.mem_erase, List.forall_mem_cons, and_assoc]

/-- Exactly the metadata of the account are gone. -/
theorem deleteMetadatas_ok {db after : Db} {accountId : AccountId}
    (h : deleteMetadatas db accountId = .ok after) :
    after = { db with metadatas := after.metadatas } ∧ ∀ row, row ∈ after.metadatas.rows ↔
      row ∈ db.metadatas.rows ∧ row.accountId ≠ accountId := by
  obtain ⟨htables, hrows⟩ := deletesMetadata_ok h
  refine ⟨htables, fun row => ?_⟩
  rw [hrows]
  refine and_congr_right fun hrow => ⟨fun hids hid => ?_, fun hid metadata hmetadata hsame => ?_⟩
  · exact hids row (List.mem_filter.mpr ⟨hrow, by simpa using hid⟩) rfl
  · obtain ⟨hmem, haccount⟩ := List.mem_filter.mp hmetadata
    rw [db.metadatas.eq_of_key_eq hrow hmem hsame] at hid
    exact hid (by simpa using haccount)

/-- The cascade deletes the profile, the metadata and follows of the account. -/
theorem cascade_ok {db after : Db} {accountId : AccountId} (h : cascade db accountId = .ok after) :
    ∃ afterProfile afterMetadatas, deleteProfile db accountId = .ok afterProfile ∧
      deleteMetadatas afterProfile accountId = .ok afterMetadatas ∧
      after = { afterMetadatas with follows := after.follows } := by
  simp only [cascade, Fallible.bind_eq_ok] at h
  obtain ⟨afterProfile, hprofile, afterMetadatas, hmetadatas, _, _, afterFollowings, hfollowings, _, _,
    hfollowers⟩ := h
  refine ⟨afterProfile, afterMetadatas, hprofile, hmetadatas, ?_⟩
  have hfirst := (FollowRepository.deletes_ok hfollowings).1
  have hsecond := (FollowRepository.deletes_ok hfollowers).1
  rw [hfirst] at hsecond
  exact hsecond

/-- Only profiles, metadata and follows differ. -/
theorem cascade_tables {db after : Db} {accountId : AccountId}
    (h : cascade db accountId = .ok after) :
    ∃ profiles metadatas follows, after = { db with profiles, metadatas, follows } := by
  obtain ⟨afterProfile, afterMetadatas, hprofile, hmetadatas, hafter⟩ := cascade_ok h
  rw [(deleteMetadatas_ok hmetadatas).1, (deleteProfile_ok hprofile).1] at hafter
  exact ⟨_, _, _, hafter⟩

/-- The writes are those of the upsert, and in other tables those of the cascade or of the link. -/
theorem write_ok {tz : Timestamptz} {db after : Db} {account : Account}
    {created : Option AuthAccountId} {accountId : AccountId}
    (h : write tz db account created accountId = .ok after) :
    ∃ upserted profiles metadatas follows authEmumetAccounts,
      AccountProjectionWriter.upsert tz db account = .ok upserted ∧
      after = { upserted with profiles, metadatas, follows, authEmumetAccounts } := by
  simp only [write, Fallible.bind_eq_ok] at h
  obtain ⟨upserted, hupsert, hrest⟩ := h
  split_ifs at hrest with hdeleted
  · obtain ⟨profiles, metadatas, follows, rfl⟩ := cascade_tables hrest
    exact ⟨upserted, profiles, metadatas, follows, _, hupsert, rfl⟩
  · cases created with
    | none =>
        cases hrest
        exact ⟨_, _, _, _, _, hupsert, rfl⟩
    | some authId =>
        simp only [AccountReadModel.linkAuthAccount, foreignKeyViolation, reject] at hrest
        split_ifs at hrest
        · cases hrest
          exact ⟨_, _, _, _, _, hupsert, rfl⟩
        · cases hrest
          exact ⟨upserted, _, _, _, _, hupsert, rfl⟩

end AccountProjector

end Emumet

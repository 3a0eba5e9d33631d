import Emumet.ProjectorBatch

/-! The profile and metadata projectors. They differ from the account projector in two ways: an event
that would create a row for a deactivated account is left alone, and a stream that ends in nothing
deletes its row. -/

namespace Emumet

/-- A new row would belong to an account whose deletion is recorded. -/
def parentDeleted (db : Db) (now : OffsetDateTime) (createdFor : Option AccountId) : Bool :=
  match createdFor with
  | none => false
  | some accountId =>
      (AccountReadModel.findByIdIncludingDeleted db now accountId).any (·.deletedAt.isSome)

namespace ProfileProjector

def pending (existing : Option Profile) (events : List (SeqEvent ProfileEvent)) :
    List (SeqEvent ProfileEvent) :=
  events.filter fun event => existing.all (·.version < event.version)

def write (db : Db) (profileId : ProfileId) : Option Profile → Result Db
  | some profile => ProfileProjectionWriter.upsert db profile
  | none => .ok (ProfileProjectionWriter.delete db profileId)

def project (env : PollEnv) (db : Db) (profileId : ProfileId)
    (events : List (SeqEvent ProfileEvent)) : GroupResult :=
  let existing := ProfileReadModel.findByIdUnfiltered db profileId
  let pending := pending existing events
  if pending.isEmpty then .skipped
  else if existing.isNone &&
      parentDeleted db env.now (pending.findSome? (·.envelope.event.createdFor)) then .skipped
  else
    match foldEvents Profile.apply existing (pending.map SeqEvent.envelope) with
    | .error _ => .skipped
    | .ok entity =>
        if env.writeFails profileId then .rolledBack
        else
          match write db profileId entity with
          | .ok db => .written db none
          | .error _ => .rolledBack

/-- `project_profile_batch`. -/
def projectBatch (env : PollEnv) (db : Db) : PollResult :=
  Projector.pollBatch .profile db.profileEvents env (project env) db

/-- A group that is written holds something new, was folded and passed its write. -/
theorem project_written {env : PollEnv} {db after : Db} {profileId : ProfileId}
    {events : List (SeqEvent ProfileEvent)} {owner : Option (AccountId × AuthAccountId)}
    (h : project env db profileId events = .written after owner) :
    let existing := ProfileReadModel.findByIdUnfiltered db profileId
    ∃ entity, pending existing events ≠ [] ∧
      foldEvents Profile.apply existing ((pending existing events).map SeqEvent.envelope) =
        .ok entity ∧
      write db profileId entity = .ok after := by
  simp only [project] at h
  split at h
  · cases h
  · rename_i hpending
    split at h
    · cases h
    · split at h
      · cases h
      · rename_i entity hfold
        split at h
        · cases h
        · split at h
          · rename_i hwrite
            cases h
            exact ⟨entity, by simpa using hpending, hfold, hwrite⟩
          · cases h

/-- Handling the events of a profile writes no other row. -/
theorem project_other {env : PollEnv} {db after : Db} {profileId other : ProfileId}
    {events : List (SeqEvent ProfileEvent)} {owner : Option (AccountId × AuthAccountId)}
    (hevents : ∀ event ∈ events, event.id = profileId)
    (h : project env db profileId events = .written after owner) (hother : other ≠ profileId) :
    after.profiles.get other = db.profiles.get other := by
  obtain ⟨entity, _, hfold, hwrite⟩ := project_written h
  cases entity with
  | none =>
      cases hwrite
      exact Table.get_erase_of_ne _ hother
  | some profile =>
      have hid : profile.id = profileId := by
        refine Profile.foldEvents_id (fun existing hexisting => ?_) (fun event hevent => ?_) hfold
        · exact (Table.get_eq_some_iff.mp hexisting).2
        · obtain ⟨row, hrow, rfl⟩ := List.mem_map.mp hevent
          exact hevents row (List.mem_filter.mp hrow).1
      simp only [write, ProfileProjectionWriter.upsert, uniqueViolation, foreignKeyViolation,
        reject] at hwrite
      split_ifs at hwrite
      · cases hwrite
        exact Table.get_put_of_ne _ _ (hid ▸ hother)
      · cases hwrite
        rfl

/-- A row that is as new as every event of its stream is left alone by a poll. -/
theorem projectBatch_current (env : PollEnv) {db : Db} {id : ProfileId} {profile : Profile}
    (hrow : db.profiles.get id = some profile)
    (hcurrent : ∀ event ∈ db.profileEvents, event.id = id → event.version ≤ profile.version) :
    (projectBatch env db).progress.db.profiles.get id = some profile := by
  simp only [projectBatch, Projector.pollBatch]
  generalize hbatch : Projector.findBySeqWindow db.profileEvents _ _ = events
  have hread : ∀ event ∈ events, event ∈ db.profileEvents := by
    intro event hevent
    rw [← hbatch] at hevent
    exact ((Tailing.mem_above _).mp (List.mem_of_mem_take hevent)).1
  split_ifs
  · exact hrow
  · -- No group writes the row: its own holds nothing newer, and the others write theirs.
    have hstep : ∀ (progress : Progress) (k : Int), progress.db.profiles.get id = some profile →
        (Projector.handle (project env) events progress k).db.profiles.get id = some profile := by
      intro progress k hbefore
      unfold Projector.handle
      split
      · exact hbefore
      · rename_i after owner hwritten
        by_cases hk : id = k
        · subst hk
          obtain ⟨_, hpending, _⟩ := project_written hwritten
          refine absurd (List.filter_eq_nil_iff.mpr fun event hevent => ?_) hpending
          obtain ⟨hmem, hid⟩ := Projector.mem_groupOf.mp hevent
          simpa [ProfileReadModel.findByIdUnfiltered, ProfileReadModel.findById, hbefore] using
            hcurrent event (hread event hmem) hid
        · rw [← hbefore]
          exact project_other (fun event hevent => (Projector.mem_groupOf.mp hevent).2) hwritten hk
      · exact hbefore
    have hgroups : ∀ ids : List Int, (ids.foldl (Projector.handle (project env) events)
        ⟨db, [], []⟩).db.profiles.get id = some profile := fun ids =>
      List.foldlRecOn (motive := fun progress => progress.db.profiles.get id = some profile) ids _
        (b := ⟨db, [], []⟩) hrow fun progress hbefore k _ => hstep progress k hbefore
    exact hgroups _

end ProfileProjector

namespace MetadataProjector

def pending (existing : Option Metadata) (events : List (SeqEvent MetadataEvent)) :
    List (SeqEvent MetadataEvent) :=
  events.filter fun event => existing.all (·.version < event.version)

def write (db : Db) (metadataId : MetadataId) : Option Metadata → Result Db
  | some metadata => MetadataProjectionWriter.upsert db metadata
  | none => .ok (MetadataProjectionWriter.delete db metadataId)

def project (env : PollEnv) (db : Db) (metadataId : MetadataId)
    (events : List (SeqEvent MetadataEvent)) : GroupResult :=
  let existing := MetadataReadModel.findByIdUnfiltered db metadataId
  let pending := pending existing events
  if pending.isEmpty then .skipped
  else if existing.isNone &&
      parentDeleted db env.now (pending.findSome? (·.envelope.event.createdFor)) then .skipped
  else
    match foldEvents Metadata.apply existing (pending.map SeqEvent.envelope) with
    | .error _ => .skipped
    | .ok entity =>
        if env.writeFails metadataId then .rolledBack
        else
          match write db metadataId entity with
          | .ok db => .written db none
          | .error _ => .rolledBack

/-- `project_metadata_batch`. -/
def projectBatch (env : PollEnv) (db : Db) : PollResult :=
  Projector.pollBatch .metadata db.metadataEvents env (project env) db

/-- A group that is written was folded and passed its write. -/
theorem project_written {env : PollEnv} {db after : Db} {metadataId : MetadataId}
    {events : List (SeqEvent MetadataEvent)} {owner : Option (AccountId × AuthAccountId)}
    (h : project env db metadataId events = .written after owner) :
    ∃ entity, write db metadataId entity = .ok after := by
  simp only [project] at h
  split at h
  · cases h
  · split at h
    · cases h
    · split at h
      · cases h
      · rename_i entity _
        split at h
        · cases h
        · split at h
          · rename_i hwrite
            cases h
            exact ⟨entity, hwrite⟩
          · cases h

end MetadataProjector

end Emumet

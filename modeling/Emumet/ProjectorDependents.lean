import Emumet.ProjectorCoverage

/-! Profiles and metadata as rows that hang on accounts. Their two projectors are one projector with two
sets of columns, appliers and constraints, so what is proved of it holds of both. -/

namespace Emumet

/-- What the projector of a read model that hangs on accounts is made of: the columns it reads, the
applier of its events, its table and the constraints on a row that is written. -/
structure Dependent (kind : Aggregate) (Row : Type) where
  id : Row → Int
  version : Row → EventVersion
  /-- The account and the nanoid. -/
  identity : Row → AccountId × Nanoid
  /-- What a `Created` event sets them to. -/
  created : kind.Event → Option (AccountId × Nanoid)
  /-- The event is a `Deleted` event. -/
  ends : kind.Event → Bool
  apply : Option Row → EventEnvelope kind.Event → Result (Option Row)
  table : Db → Table id
  store : Db → Table id → Db
  /-- A unique index does not admit both. -/
  conflict : AccountId × Nanoid → AccountId × Nanoid → Bool
  /-- The images of the row exist. -/
  images : Db → Row → Bool

namespace Dependent

variable {kind : Aggregate} {Row : Type} (d : Dependent kind Row)

def accountId (row : Row) : AccountId := (d.identity row).1

def pending (existing : Option Row) (events : List (SeqEvent kind.Event)) :
    List (SeqEvent kind.Event) :=
  events.filter fun event => existing.all (d.version · < event.version)

/-- What is folded onto the row. -/
def entity (existing : Option Row) (events : List (SeqEvent kind.Event)) : Result (Option Row) :=
  foldEvents d.apply existing ((d.pending existing events).map SeqEvent.envelope)

def createdFor (event : kind.Event) : Option AccountId := (d.created event).map Prod.fst

/-- The account of the first `Created` event. -/
def owner (events : List (SeqEvent kind.Event)) : Option AccountId :=
  events.findSome? fun event => d.createdFor event.envelope.event

/-- The constraints on a row. -/
def accepts (db : Db) (row : Row) : Bool :=
  !((d.table db).rows.any fun other =>
      d.id other ≠ d.id row && d.conflict (d.identity other) (d.identity row)) &&
    (db.accounts.contains (d.accountId row) && d.images db row)

/-- The table with the row of a key replaced. -/
def place (t : Table d.id) (k : Int) : Option Row → Table d.id
  | some row => t.put row
  | none => t.erase k

/-- The database after a write, nothing when a constraint rejects it. -/
def write (db : Db) (k : Int) : Option Row → Option Db
  | some row =>
      if ((d.table db).get (d.id row)).all (d.version · < d.version row) then
        if d.accepts db row then some (d.store db (d.place (d.table db) k (some row))) else none
      else some db
  | none => some (d.store db (d.place (d.table db) k none))

def project (env : PollEnv) (db : Db) (k : Int) (events : List (SeqEvent kind.Event)) :
    GroupResult :=
  let existing := (d.table db).get k
  if (d.pending existing events).isEmpty then .skipped
  else if existing.isNone && parentDeleted db env.now (d.owner (d.pending existing events)) then
    .skipped
  else
    match d.entity existing events with
    | .error _ => .skipped
    | .ok entity =>
        if env.writeFails k then .rolledBack
        else
          match d.write db k entity with
          | some after => .written after none
          | none => .rolledBack

/-- No two rows stand against a unique index. -/
def Separate (db : Db) : Prop :=
  ∀ row ∈ (d.table db).rows, ∀ other ∈ (d.table db).rows, d.id row ≠ d.id other →
    d.conflict (d.identity row) (d.identity other) = false

end Dependent

/-- Only the rows of the dependent read model and stored positions differ, for accounts only the
positions. -/
def Aggregate.Only : Aggregate → Db → Db → Prop
  | .account, before, after => ∃ checkpoints, after = { before with checkpoints }
  | .profile, before, after => ∃ profiles checkpoints, after = { before with profiles, checkpoints }
  | .metadata, before, after => ∃ metadatas checkpoints, after = { before with metadatas, checkpoints }

namespace Aggregate.Only

variable {kind : Aggregate} {a b c : Db}

theorem refl (kind : Aggregate) (db : Db) : kind.Only db db := by
  cases kind
  · exact ⟨_, rfl⟩
  · exact ⟨_, _, rfl⟩
  · exact ⟨_, _, rfl⟩

theorem trans (hab : kind.Only a b) (hbc : kind.Only b c) : kind.Only a c := by
  cases kind
  · obtain ⟨_, rfl⟩ := hab
    obtain ⟨checkpoints, rfl⟩ := hbc
    exact ⟨checkpoints, rfl⟩
  · obtain ⟨_, _, rfl⟩ := hab
    obtain ⟨profiles, checkpoints, rfl⟩ := hbc
    exact ⟨profiles, checkpoints, rfl⟩
  · obtain ⟨_, _, rfl⟩ := hab
    obtain ⟨metadatas, checkpoints, rfl⟩ := hbc
    exact ⟨metadatas, checkpoints, rfl⟩

theorem storePosition (kind other : Aggregate) (db : Db) (seq : Int) :
    kind.Only db (Projector.storePosition db other seq) := by
  cases kind
  · exact ⟨_, rfl⟩
  · exact ⟨_, _, rfl⟩
  · exact ⟨_, _, rfl⟩

theorem accounts (h : kind.Only a b) : b.accounts = a.accounts := by
  cases kind
  · obtain ⟨_, rfl⟩ := h
    rfl
  · obtain ⟨_, _, rfl⟩ := h
    rfl
  · obtain ⟨_, _, rfl⟩ := h
    rfl

end Aggregate.Only

/-- What the proofs use of a dependent read model. -/
structure Dependent.Lawful {kind : Aggregate} {Row : Type} (d : Dependent kind Row) : Prop where
  kind_ne : kind ≠ .account
  project_eq : ∀ tz env, kind.project tz env = d.project env
  /-- Only `Created` applies to nothing, and it makes a row. -/
  apply_none : ∀ {event entity}, d.apply none event = .ok entity → ∃ row, entity = some row ∧
    d.created event.event = some (d.identity row) ∧ d.version row = event.version ∧
    d.id row = event.id
  /-- On a row `Created` fails, and every other event keeps the identity of the row or ends it. -/
  apply_some : ∀ {row event entity}, d.apply (some row) event = .ok entity →
    d.created event.event = none ∧ (entity = none ↔ d.ends event.event = true) ∧
      ∀ next, entity = some next → d.id next = d.id row ∧ d.identity next = d.identity row ∧
        d.version next = event.version
  apply_later : ∀ {event} row, d.created event.event = none →
    ∃ entity, d.apply (some row) event = .ok entity
  ends_created : ∀ {event}, d.ends event = true → d.created event = none
  conflict_symm : ∀ a b, d.conflict a b = d.conflict b a
  table_store : ∀ db t, d.table (d.store db t) = t
  store_table : ∀ db, d.store db (d.table db) = db
  only_store : ∀ db t, kind.Only db (d.store db t)
  table_only : ∀ {other before after}, other ≠ kind → other.Only before after →
    d.table after = d.table before
  /-- The other writes of the account projector. -/
  table_accounts : ∀ db accounts authEmumetAccounts,
    d.table { db with accounts, authEmumetAccounts } = d.table db
  /-- Deactivation removes the rows of the account. -/
  cascade : ∀ {db after accountId}, d.Separate db →
    AccountProjector.cascade db accountId = .ok after → ∀ row,
      row ∈ (d.table after).rows ↔ row ∈ (d.table db).rows ∧ d.accountId row ≠ accountId

/-! ### The two instances -/

def MetadataEvent.isDeleted : MetadataEvent → Bool
  | .Deleted => true
  | _ => false

def ProfileEvent.created : ProfileEvent → Option (AccountId × Nanoid)
  | .Created accountId _ _ _ _ nanoid => some (accountId, nanoid)
  | _ => none

def MetadataEvent.created : MetadataEvent → Option (AccountId × Nanoid)
  | .Created accountId _ _ nanoid => some (accountId, nanoid)
  | _ => none

def profiles : Dependent .profile Profile where
  id := Profile.id
  version := Profile.version
  identity profile := (profile.accountId, profile.nanoid)
  created := ProfileEvent.created
  ends _ := false
  apply := Profile.apply
  table := Db.profiles
  store db profiles := { db with profiles }
  conflict a b := a.1 = b.1 || a.2 = b.2
  images db profile := profile.icon.all db.images.contains && profile.banner.all db.images.contains

def metadatas : Dependent .metadata Metadata where
  id := Metadata.id
  version := Metadata.version
  identity metadata := (metadata.accountId, metadata.nanoid)
  created := MetadataEvent.created
  ends := MetadataEvent.isDeleted
  apply := Metadata.apply
  table := Db.metadatas
  store db metadatas := { db with metadatas }
  conflict a b := a.2 = b.2
  images _ _ := true

theorem profiles_createdFor (event : ProfileEvent) : profiles.createdFor event = event.createdFor := by
  cases event <;> rfl

theorem metadatas_createdFor (event : MetadataEvent) :
    metadatas.createdFor event = event.createdFor := by
  cases event <;> rfl

theorem profiles_accepts (db : Db) (profile : Profile) :
    profiles.accepts db profile = (!db.profileConflict profile && db.profileReferences profile) :=
  congrArg (!db.profileConflict profile && ·) (Bool.and_assoc _ _ _).symm

theorem metadatas_accepts (db : Db) (metadata : Metadata) :
    metadatas.accepts db metadata =
      (!db.metadataConflict metadata && db.accounts.contains metadata.accountId) :=
  congrArg (!db.metadataConflict metadata && ·) (Bool.and_true _)

theorem profiles_write (db : Db) (k : ProfileId) (entity : Option Profile) :
    profiles.write db k entity = (ProfileProjector.write db k entity).toOption := by
  cases entity with
  | none => rfl
  | some profile =>
      simp only [Dependent.write, ProfileProjector.write, ProfileProjectionWriter.upsert,
        profiles_accepts]
      by_cases hnewer : (db.profiles.get profile.id).all (·.version < profile.version)
      · refine (if_pos hnewer).trans ?_
        rw [if_pos hnewer]
        cases db.profileConflict profile <;> cases db.profileReferences profile <;> rfl
      · refine (if_neg hnewer).trans ?_
        rw [if_neg hnewer]
        rfl

theorem metadatas_write (db : Db) (k : MetadataId) (entity : Option Metadata) :
    metadatas.write db k entity = (MetadataProjector.write db k entity).toOption := by
  cases entity with
  | none => rfl
  | some metadata =>
      simp only [Dependent.write, MetadataProjector.write, MetadataProjectionWriter.upsert,
        metadatas_accepts]
      by_cases hnewer : (db.metadatas.get metadata.id).all (·.version < metadata.version)
      · refine (if_pos hnewer).trans ?_
        rw [if_pos hnewer]
        cases db.metadataConflict metadata <;> cases db.accounts.contains metadata.accountId <;> rfl
      · refine (if_neg hnewer).trans ?_
        rw [if_neg hnewer]
        rfl

theorem profiles_project (env : PollEnv) : ProfileProjector.project env = profiles.project env := by
  funext db k events
  have howner : (fun event : SeqEvent ProfileEvent => profiles.createdFor event.envelope.event) =
      fun event => event.envelope.event.createdFor := funext fun event => profiles_createdFor _
  have hentity : foldEvents Profile.apply (ProfileReadModel.findByIdUnfiltered db k)
      ((ProfileProjector.pending (ProfileReadModel.findByIdUnfiltered db k) events).map
        SeqEvent.envelope) = profiles.entity ((profiles.table db).get k) events := rfl
  simp only [ProfileProjector.project, Dependent.project, Dependent.owner, howner, profiles_write,
    hentity]
  cases profiles.entity ((profiles.table db).get k) events with
  | error report => rfl
  | ok entity =>
      dsimp only
      cases ProfileProjector.write db k entity <;> rfl

theorem metadatas_project (env : PollEnv) :
    MetadataProjector.project env = metadatas.project env := by
  funext db k events
  have howner : (fun event : SeqEvent MetadataEvent => metadatas.createdFor event.envelope.event) =
      fun event => event.envelope.event.createdFor := funext fun event => metadatas_createdFor _
  have hentity : foldEvents Metadata.apply (MetadataReadModel.findByIdUnfiltered db k)
      ((MetadataProjector.pending (MetadataReadModel.findByIdUnfiltered db k) events).map
        SeqEvent.envelope) = metadatas.entity ((metadatas.table db).get k) events := rfl
  simp only [MetadataProjector.project, Dependent.project, Dependent.owner, howner, metadatas_write,
    hentity]
  cases metadatas.entity ((metadatas.table db).get k) events with
  | error report => rfl
  | ok entity =>
      dsimp only
      cases MetadataProjector.write db k entity <;> rfl

/-- A profile is the only one of its account. -/
theorem cascade_profiles {db after : Db} {accountId : AccountId} (hseparate : profiles.Separate db)
    (h : AccountProjector.cascade db accountId = .ok after) (row : Profile) :
    row ∈ after.profiles.rows ↔ row ∈ db.profiles.rows ∧ row.accountId ≠ accountId := by
  obtain ⟨afterProfile, afterMetadatas, hprofile, hmetadatas, hafter⟩ := AccountProjector.cascade_ok h
  have htable : after.profiles = afterProfile.profiles := by
    rw [hafter, (AccountProjector.deleteMetadatas_ok hmetadatas).1]
  rw [htable, (AccountProjector.deleteProfile_ok hprofile).2]
  refine and_congr_right fun hrow => ⟨fun hids hid => ?_, fun hid found hfound hsame => ?_⟩
  · cases hfound : ProfileReadModel.findByAccountId db accountId with
    | none => simpa [hid] using List.find?_eq_none.mp hfound row hrow
    | some found =>
        have hmem := List.mem_of_find?_eq_some hfound
        have haccount : found.accountId = accountId := by simpa using List.find?_some hfound
        have hconflict := hseparate row hrow found hmem (hids found hfound)
        simp [profiles, hid, haccount] at hconflict
  · have hmem := List.mem_of_find?_eq_some hfound
    rw [db.profiles.eq_of_key_eq hrow hmem hsame] at hid
    exact hid (by simpa using List.find?_some hfound)

theorem cascade_metadatas {db after : Db} {accountId : AccountId}
    (h : AccountProjector.cascade db accountId = .ok after) (row : Metadata) :
    row ∈ after.metadatas.rows ↔ row ∈ db.metadatas.rows ∧ row.accountId ≠ accountId := by
  obtain ⟨afterProfile, afterMetadatas, hprofile, hmetadatas, hafter⟩ := AccountProjector.cascade_ok h
  have htable : after.metadatas = afterMetadatas.metadatas := by rw [hafter]
  have hbefore : afterProfile.metadatas = db.metadatas := by
    rw [(AccountProjector.deleteProfile_ok hprofile).1]
  rw [htable, (AccountProjector.deleteMetadatas_ok hmetadatas).2, hbefore]

theorem profiles_lawful : profiles.Lawful where
  kind_ne := by decide
  project_eq _ env := profiles_project env
  apply_none := by
    rintro ⟨id, payload, version⟩ entity h
    cases payload <;> cases h
    exact ⟨_, rfl, rfl, rfl, rfl⟩
  apply_some := by
    rintro row ⟨id, payload, version⟩ entity h
    cases payload <;> cases h
    refine ⟨rfl, by simp [profiles], ?_⟩
    rintro next ⟨⟩
    exact ⟨rfl, rfl, rfl⟩
  apply_later := by
    rintro ⟨id, payload, version⟩ row h
    cases payload with
    | Created => cases h
    | Updated => exact ⟨_, rfl⟩
  ends_created h := by cases h
  conflict_symm a b := by simp [profiles, eq_comm]
  table_store _ _ := rfl
  store_table _ := rfl
  only_store _ _ := ⟨_, _, rfl⟩
  table_only := by
    rintro other before after hother h
    cases other with
    | account =>
        obtain ⟨_, rfl⟩ := h
        rfl
    | profile => exact absurd rfl hother
    | metadata =>
        obtain ⟨_, _, rfl⟩ := h
        rfl
  table_accounts _ _ _ := rfl
  cascade := cascade_profiles

theorem metadatas_lawful : metadatas.Lawful where
  kind_ne := by decide
  project_eq _ env := metadatas_project env
  apply_none := by
    rintro ⟨id, payload, version⟩ entity h
    cases payload <;> cases h
    exact ⟨_, rfl, rfl, rfl, rfl⟩
  apply_some := by
    rintro row ⟨id, payload, version⟩ entity h
    cases payload with
    | Created => cases h
    | Updated label content =>
        cases h
        refine ⟨rfl, by simp [metadatas, MetadataEvent.isDeleted], ?_⟩
        rintro next ⟨⟩
        exact ⟨rfl, rfl, rfl⟩
    | Deleted =>
        cases h
        exact ⟨rfl, by simp [metadatas, MetadataEvent.isDeleted], by rintro next ⟨⟩⟩
  apply_later := by
    rintro ⟨id, payload, version⟩ row h
    cases payload with
    | Created => cases h
    | Updated => exact ⟨_, rfl⟩
    | Deleted => exact ⟨_, rfl⟩
  ends_created := by
    rintro event h
    cases event with
    | Deleted => rfl
    | _ => cases h
  conflict_symm a b := by simp [metadatas, eq_comm]
  table_store _ _ := rfl
  store_table _ := rfl
  only_store _ _ := ⟨_, _, rfl⟩
  table_only := by
    rintro other before after hother h
    cases other with
    | account =>
        obtain ⟨_, rfl⟩ := h
        rfl
    | profile =>
        obtain ⟨_, _, rfl⟩ := h
        rfl
    | metadata => exact absurd rfl hother
  table_accounts _ _ _ := rfl
  cascade _ := cascade_metadatas

end Emumet

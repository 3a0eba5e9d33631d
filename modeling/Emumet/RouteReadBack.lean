import Emumet.LibListing
import Emumet.RouteDiscovery
import Emumet.ServiceModeration

/-! What an update of an account's details answers, against what a later request reads. The answer is
made of the request and of the rows as they were before the update, while the profile row is written
from the stream. They agree unless the row was behind the stream in a part the request leaves alone. -/

namespace Emumet

/-! ### Loading and saving metadata -/

namespace Metadata

/-- The field events of one id fold to has that id. -/
theorem fold_id {events : List (EventEnvelope MetadataEvent)} {metadata : Metadata} {id : MetadataId}
    (hevents : ∀ event ∈ events, event.id = id) (hok : fold events = .ok (some metadata)) :
    metadata.id = id := by
  have hinvariant : ∀ existing, some metadata = some existing → existing.id = id := by
    refine Fallible.foldlM_invariant (P := fun entity : Option Metadata => ∀ existing,
      entity = some existing → existing.id = id) ?_ (fun _ h => by cases h) hok
    rintro before ⟨eventId, payload, version⟩ hevent after hbefore hstep existing rfl
    have hid : eventId = id := hevents _ hevent
    cases before with
    | none =>
        cases payload <;> cases hstep
        exact hid
    | some previous =>
        have hprevious := hbefore previous rfl
        cases payload <;> cases hstep
        exact hprevious
  exact hinvariant metadata rfl

end Metadata

namespace MetadataRepository

theorem load_fold {db : Db} {id : MetadataId} {rehydrated : Rehydrated Metadata}
    (h : load db id = .ok rehydrated) :
    Metadata.fold (EventStore.findById db.metadataEvents id none) = .ok (some rehydrated.aggregate) := by
  simp only [load, Fallible.bind_eq_ok, Rehydrated.fromEventsAllowDeletion] at h
  obtain ⟨stored, hstored, hfound⟩ := h
  rw [found_eq_ok.mp hfound] at hstored
  split at hstored
  · cases hstored
  · simp only [Fallible.bind_eq_ok] at hstored
    obtain ⟨aggregate, hfold, hresult⟩ := hstored
    cases aggregate with
    | none => cases hresult
    | some aggregate =>
        cases hresult
        exact hfold

theorem save_ok {db after : Db} {command : CommandEnvelope MetadataEvent} {stamp : Stamp}
    {envelope : EventEnvelope MetadataEvent} (h : save db command stamp = .ok (envelope, after)) :
    envelope = ⟨command.id, command.event, stamp.version⟩ ∧
      after = { db with metadataEvents := ⟨stamp.seq, envelope⟩ :: db.metadataEvents } := by
  simp only [save, Fallible.bind_eq_ok] at h
  obtain ⟨row, hrow, hresult⟩ := h
  cases hresult
  simp only [MetadataEventStore.persistInternal, EventStore.persistInternal, uniqueViolation,
    reject] at hrow
  split_ifs at hrow
  cases hrow
  exact ⟨rfl, rfl⟩

end MetadataRepository

namespace ReadBack

/-! ### One field -/

/-- The database after a field event and a write to the field's row. -/
def wrote (db : Db) (id : MetadataId) (event : MetadataEvent) (stamp : Stamp)
    (metadatas : Table Metadata.id) : Db :=
  { db with
    metadataEvents := ⟨stamp.seq, ⟨id, event, stamp.version⟩⟩ :: db.metadataEvents
    metadatas }

section Field

variable {db after : Db} {accountId : AccountId} {field : FieldStamp} {id : MetadataId}
  {label content : String}

/-- The row gets the submitted values, whatever the stream held: its last event sets both. -/
theorem applyFieldUpdate_update
    (hnewest : ∀ event ∈ db.metadataEvents, event.version < field.stamp.version)
    (h : applyFieldUpdate accountId field db (.Update id label content) = .ok after) :
    ∃ stored, db.metadatas.get id = some stored ∧
      after = wrote db id (.Updated label content) field.stamp
        (db.metadatas.put { stored with label, content, version := field.stamp.version }) := by
  simp only [applyFieldUpdate, Fallible.bind_eq_ok] at h
  obtain ⟨loaded, _, ⟨envelope, saved⟩, hsave, reloaded, hreload, hupdate⟩ := h
  obtain ⟨rfl, rfl⟩ := MetadataRepository.save_ok hsave
  have hfold := MetadataRepository.load_fold hreload
  have hid : reloaded.aggregate.id = id :=
    Metadata.fold_id (fun _ hevent => EventStore.id_of_mem_findById hevent) hfold
  have hvalues : reloaded.aggregate.label = label ∧ reloaded.aggregate.content = content ∧
      reloaded.aggregate.version = field.stamp.version := by
    let row : SeqEvent MetadataEvent :=
      ⟨field.stamp.seq, ⟨id, .Updated label content, field.stamp.version⟩⟩
    have hstream : EventStore.findById (row :: db.metadataEvents) id none =
        EventStore.findById db.metadataEvents id none ++ [row.envelope] :=
      EventStore.findById_cons_newest fun other hother _ => hnewest other hother
    have hconcat : foldEvents Metadata.apply none
        (EventStore.findById (row :: db.metadataEvents) id none) = .ok (some reloaded.aggregate) := hfold
    rw [hstream] at hconcat
    obtain ⟨before, _, happly⟩ := foldEvents_concat.mp hconcat
    cases before with
    | none => cases happly
    | some before =>
        have haggregate := Option.some.inj (Except.ok.inj happly)
        rw [← haggregate]
        exact ⟨rfl, rfl, rfl⟩
  unfold MetadataReadModel.update at hupdate
  split at hupdate
  · cases hupdate
  · rename_i stored hget
    have hstored : db.metadatas.get id = some stored := hid ▸ hget
    refine ⟨stored, hstored, ?_⟩
    have hrow : { reloaded.aggregate with accountId := stored.accountId, nanoid := stored.nanoid } =
        { stored with label, content, version := field.stamp.version } := by
      obtain ⟨hlabel, hcontent, hversion⟩ := hvalues
      rw [Metadata.mk.injEq]
      exact ⟨hid.trans (Table.get_eq_some_iff.mp hstored).2.symm, rfl, hlabel, hcontent, hversion, rfl⟩
    rw [← hrow]
    exact (Except.ok.inj hupdate).symm

theorem applyFieldUpdate_delete
    (h : applyFieldUpdate accountId field db (.Delete id) = .ok after) :
    after = wrote db id .Deleted field.stamp (db.metadatas.erase id) := by
  simp only [applyFieldUpdate, Fallible.bind_eq_ok, MetadataReadModel.delete, reject] at h
  obtain ⟨loaded, _, ⟨envelope, saved⟩, hsave, hdelete⟩ := h
  obtain ⟨rfl, rfl⟩ := MetadataRepository.save_ok hsave
  split_ifs at hdelete
  exact (Except.ok.inj hdelete).symm

theorem applyFieldUpdate_create
    (h : applyFieldUpdate accountId field db (.Create label content) = .ok after) :
    after = wrote db field.id (.Created accountId label content field.nanoid) field.stamp
      (db.metadatas.put
        { id := field.id, accountId, label, content, version := field.stamp.version
          nanoid := field.nanoid }) := by
  simp only [applyFieldUpdate, Fallible.bind_eq_ok, MetadataReadModel.create, uniqueViolation,
    foreignKeyViolation, reject] at h
  obtain ⟨⟨envelope, saved⟩, hsave, applied, happly, metadata, hmetadata, hcreate⟩ := h
  obtain ⟨rfl, rfl⟩ := MetadataRepository.save_ok hsave
  cases happly
  cases hmetadata
  split_ifs at hcreate
  exact (Except.ok.inj hcreate).symm

end Field

/-! ### All fields -/

/-- What is generated for the fields: versions above those stored, and ids of new fields above those of
the fields there are, both in increasing order. -/
structure FieldsGenerated (call : Call) (db : Db) : Prop where
  fieldVersion : ∀ event ∈ db.metadataEvents, ∀ i, event.version < (call.field i).stamp.version
  fieldVersions : StrictMono fun i => (call.field i).stamp.version
  fieldId : ∀ row ∈ db.metadatas.rows, ∀ i, row.id < (call.field i).id
  fieldIds : StrictMono fun i => (call.field i).id

/-- The fields of an account, in the order they are shown in. -/
def listed (db : Db) (accountId : AccountId) : List Metadata :=
  db.metadatas.ordered fun field => field.accountId = accountId

def shown (fields : List Metadata) : List AccountFieldDto :=
  fields.map fun field => ⟨field.label, field.content⟩

/-- After some of the operations, of which `n` were carried out. -/
structure Progress (call : Call) (accountId : AccountId) (start : Db) (n : Nat)
    (listing : List Metadata) (db : Db) : Prop where
  listing : listed db accountId = listing
  versions : ∀ event ∈ db.metadataEvents, ∀ i, n ≤ i → event.version < (call.field i).stamp.version
  ids : ∀ row ∈ db.metadatas.rows, ∀ i, n ≤ i → row.id < (call.field i).id
  /-- The fields of other accounts are those of before. -/
  elsewhere : ∀ keep : Metadata → Bool, (∀ row, row.accountId = accountId → keep row = false) →
    db.metadatas.rows.filter keep = start.metadatas.rows.filter keep
  frame : db = { start with metadataEvents := db.metadataEvents, metadatas := db.metadatas }

namespace Progress

variable {call : Call} {accountId : AccountId} {start db after : Db} {n : Nat}
  {front back listing : List Metadata} {current : Metadata} {label content : String}

theorem initial (hgenerated : FieldsGenerated call db) :
    Progress call accountId db 0 (listed db accountId) db where
  listing := rfl
  versions event hevent i _ := hgenerated.fieldVersion event hevent i
  ids row hrow i _ := hgenerated.fieldId row hrow i
  elsewhere _ _ := rfl
  frame := rfl

theorem mem_current (h : Progress call accountId start n (front ++ current :: back) db) :
    current ∈ db.metadatas.rows ∧ current.accountId = accountId := by
  have hmem : current ∈ listed db accountId := by
    rw [h.listing]
    exact List.mem_append_right _ List.mem_cons_self
  have hrow := Table.mem_ordered.mp hmem
  exact ⟨hrow.1, by simpa using hrow.2⟩

/-- What any operation does besides changing the listing. -/
theorem write (h : Progress call accountId start n listing db)
    (hversions : StrictMono fun i => (call.field i).stamp.version) {id : MetadataId}
    {event : MetadataEvent} {metadatas : Table Metadata.id} {next : List Metadata}
    (hlisting : metadatas.ordered (fun field => field.accountId = accountId) = next)
    (hids : ∀ row ∈ metadatas.rows, ∀ i, n + 1 ≤ i → row.id < (call.field i).id)
    (helsewhere : ∀ keep : Metadata → Bool, (∀ row, row.accountId = accountId → keep row = false) →
      metadatas.rows.filter keep = db.metadatas.rows.filter keep) :
    Progress call accountId start (n + 1) next
      (wrote db id event (call.field n).stamp metadatas) where
  listing := hlisting
  versions := by
    intro stored hstored i hi
    rcases List.mem_cons.mp hstored with rfl | hold
    · exact hversions hi
    · exact h.versions stored hold i (Nat.le_of_succ_le hi)
  ids := hids
  elsewhere keep hkeep := (helsewhere keep hkeep).trans (h.elsewhere keep hkeep)
  frame := by
    rw [wrote, h.frame]

theorem update (h : Progress call accountId start n (front ++ current :: back) db)
    (hversions : StrictMono fun i => (call.field i).stamp.version)
    (hok : applyFieldUpdate accountId (call.field n) db (.Update current.id label content) =
      .ok after) :
    Progress call accountId start (n + 1)
      (front ++ { current with label, content, version := (call.field n).stamp.version } :: back)
      after := by
  obtain ⟨hrow, howner⟩ := h.mem_current
  obtain ⟨stored, hget, rfl⟩ :=
    applyFieldUpdate_update (fun event hevent => h.versions event hevent n le_rfl) hok
  obtain rfl : current = stored :=
    Option.some.inj ((Table.get_eq_some_iff.mpr ⟨hrow, rfl⟩).symm.trans hget)
  refine h.write hversions (Table.ordered_replace h.listing rfl (decide_eq_true howner)) ?_ ?_
  · intro row hmem i hi
    rcases Table.mem_put.mp hmem with rfl | ⟨hold, _⟩
    · exact h.ids current hrow i (Nat.le_of_succ_le hi)
    · exact h.ids row hold i (Nat.le_of_succ_le hi)
  · intro keep hkeep
    refine Table.filter_put_of_not (hkeep _ howner) fun other hother hid => ?_
    rw [db.metadatas.eq_of_key_eq hother hrow hid]
    exact hkeep _ howner

theorem delete (h : Progress call accountId start n (front ++ current :: back) db)
    (hversions : StrictMono fun i => (call.field i).stamp.version)
    (hok : applyFieldUpdate accountId (call.field n) db (.Delete current.id) = .ok after) :
    Progress call accountId start (n + 1) (front ++ back) after := by
  obtain ⟨hrow, howner⟩ := h.mem_current
  rw [applyFieldUpdate_delete hok]
  refine h.write hversions (Table.ordered_erase h.listing) ?_ ?_
  · intro row hmem i hi
    exact h.ids row (Table.mem_erase.mp hmem).1 i (Nat.le_of_succ_le hi)
  · intro keep hkeep
    refine Table.filter_erase_of_not fun other hother hid => ?_
    rw [db.metadatas.eq_of_key_eq hother hrow hid]
    exact hkeep _ howner

theorem create (h : Progress call accountId start n listing db)
    (hversions : StrictMono fun i => (call.field i).stamp.version)
    (hids : StrictMono fun i => (call.field i).id)
    (hok : applyFieldUpdate accountId (call.field n) db (.Create label content) = .ok after) :
    ∃ created, Progress call accountId start (n + 1) (listing ++ [created]) after ∧
      created.label = label ∧ created.content = content := by
  rw [applyFieldUpdate_create hok]
  refine ⟨_, h.write hversions (Table.ordered_append h.listing ?_ (decide_eq_true rfl)) ?_ ?_, rfl, rfl⟩
  · exact fun row hrow => h.ids row hrow n le_rfl
  · intro row hmem i hi
    rcases Table.mem_put.mp hmem with rfl | ⟨hold, _⟩
    · exact hids hi
    · exact h.ids row hold i (Nat.le_of_succ_le hi)
  · intro keep hkeep
    refine Table.filter_put_of_not (hkeep _ rfl) fun other hother hid => ?_
    exact absurd hid (ne_of_lt (h.ids other hother n le_rfl))

/-! The operations of a plan in turn. -/

/-- The operations from the `n`th one on. -/
def carryOut (call : Call) (accountId : AccountId) (n : Nat) (plan : List FieldUpdate) (db : Db) :
    Result Db :=
  (plan.zipIdx n).foldlM
    (fun db (operation, index) => applyFieldUpdate accountId (call.field index) db operation) db

theorem carryOut_cons {operation : FieldUpdate} {plan : List FieldUpdate}
    (h : carryOut call accountId n (operation :: plan) db = .ok after) :
    ∃ middle, applyFieldUpdate accountId (call.field n) db operation = .ok middle ∧
      carryOut call accountId (n + 1) plan middle = .ok after := by
  rw [carryOut, List.zipIdx_cons, List.foldlM_cons] at h
  exact Fallible.bind_eq_ok.mp h

theorem deletes {existing : List Metadata} (hgenerated : FieldsGenerated call start)
    (h : Progress call accountId start n (front ++ existing) db)
    (hok : carryOut call accountId n (existing.map fun field => .Delete field.id) db = .ok after) :
    ∃ m, Progress call accountId start m front after := by
  induction existing generalizing n db with
  | nil =>
      cases hok
      rw [List.append_nil] at h
      exact ⟨n, h⟩
  | cons current existing ih =>
      obtain ⟨middle, hfirst, hrest⟩ := carryOut_cons hok
      exact ih (h.delete hgenerated.fieldVersions hfirst) hrest

theorem creates {submitted : List AccountFieldDto} (hgenerated : FieldsGenerated call start)
    (h : Progress call accountId start n listing db)
    (hok : carryOut call accountId n
      (submitted.map fun field => .Create field.label field.content) db = .ok after) :
    ∃ m created, Progress call accountId start m (listing ++ created) after ∧
      shown created = submitted := by
  induction submitted generalizing n listing db with
  | nil =>
      cases hok
      exact ⟨n, [], by rwa [List.append_nil], rfl⟩
  | cons next submitted ih =>
      obtain ⟨middle, hfirst, hrest⟩ := carryOut_cons hok
      obtain ⟨first, hprogress, hlabel, hcontent⟩ :=
        h.create hgenerated.fieldVersions hgenerated.fieldIds hfirst
      obtain ⟨m, created, hdone, hshown⟩ := ih hprogress hrest
      refine ⟨m, first :: created, by rwa [List.append_assoc] at hdone, ?_⟩
      rw [← hshown, shown, List.map_cons, hlabel, hcontent]
      rfl

/-- The fields that are paired are updated in their places. -/
theorem plan {existing : List Metadata} {submitted : List AccountFieldDto}
    (hgenerated : FieldsGenerated call start)
    (h : Progress call accountId start n (front ++ existing) db)
    (hok : carryOut call accountId n (planFieldUpdates existing submitted) db = .ok after) :
    ∃ m listing, Progress call accountId start m (front ++ listing) after ∧
      shown listing = submitted := by
  induction existing generalizing submitted front n db with
  | nil =>
      rw [List.append_nil] at h
      cases submitted with
      | nil => exact creates hgenerated h hok
      | cons next submitted => exact creates hgenerated h hok
  | cons current existing ih =>
      cases submitted with
      | nil =>
          obtain ⟨m, hdone⟩ := deletes hgenerated h hok
          exact ⟨m, [], by rwa [List.append_nil], rfl⟩
      | cons next submitted =>
          -- the field that is now in the place of the pair, and what is left to do
          obtain ⟨m, field, middle, hplaced, hvalues, hrest⟩ : ∃ m field middle,
              Progress call accountId start m (front ++ field :: existing) middle ∧
                (field.label = next.label ∧ field.content = next.content) ∧
                carryOut call accountId m (planFieldUpdates existing submitted) middle = .ok after := by
            rw [planFieldUpdates] at hok
            split_ifs at hok with hdiffers
            · obtain ⟨middle, hfirst, hrest⟩ := carryOut_cons hok
              exact ⟨n + 1, _, middle, h.update hgenerated.fieldVersions hfirst, ⟨rfl, rfl⟩, hrest⟩
            · rw [not_or, not_not, not_not] at hdiffers
              exact ⟨n, current, db, h, hdiffers, hok⟩
          have hmoved : Progress call accountId start m ((front ++ [field]) ++ existing) middle := by
            rwa [List.append_assoc]
          obtain ⟨last, listing, hdone, hshown⟩ := ih hmoved hrest
          refine ⟨last, field :: listing, by rwa [List.append_assoc] at hdone, ?_⟩
          rw [← hshown, shown, List.map_cons, hvalues.1, hvalues.2]
          rfl

end Progress

/-- The fields shown after an update are the submitted ones, or those of before. -/
theorem updateFields_ok {call : Call} {accountId : AccountId} {submitted : Option (List AccountFieldDto)}
    {db after : Db} (hgenerated : FieldsGenerated call db)
    (h : updateFields call accountId (listed db accountId) submitted db = .ok after) :
    ∃ n listing, Progress call accountId db n listing after ∧
      shown listing = submitted.getD (shown (listed db accountId)) := by
  have hstart : Progress call accountId db 0 ([] ++ listed db accountId) db := .initial hgenerated
  cases submitted with
  | none =>
      cases h
      exact ⟨0, _, hstart, rfl⟩
  | some submitted =>
      obtain ⟨n, listing, hdone, hshown⟩ := hstart.plan hgenerated h
      exact ⟨n, listing, hdone, hshown⟩

/-! ### The account and the profile -/

section Rows

variable {tz : Timestamptz} {call : Call} {accountId : AccountId} {db after : Db}

/-- The row of the account is left or replaced by one with its id and nanoid. -/
theorem updateIsBot_ok {action : FieldAction Bool}
    (h : updateIsBot tz call accountId action db = .ok after) :
    after = { db with accountEvents := after.accountEvents, accounts := after.accounts } ∧
      (after.accounts = db.accounts ∨
        ∃ stored row, db.accounts.get accountId = some stored ∧ row.id = accountId ∧
          row.nanoid = stored.nanoid ∧ db.accountConflict row = false ∧
          after.accounts = db.accounts.put row) := by
  simp only [updateIsBot, Fallible.bind_eq_ok] at h
  obtain ⟨loaded, hload, h⟩ := h
  split_ifs at h
  · cases h
    exact ⟨rfl, .inl rfl⟩
  · simp only [Fallible.bind_eq_ok] at h
    obtain ⟨⟨envelope, saved⟩, hsave, applied, happly, hupdate⟩ := h
    obtain ⟨_, rfl, rfl⟩ := AccountRepository.save_ok hsave
    cases happly
    have hid : loaded.aggregate.id = accountId := Moderation.loaded_id hload
    simp only [AccountReadModel.update, uniqueViolation, reject] at hupdate
    split at hupdate
    · cases hupdate
    · rename_i stored hget
      split_ifs at hupdate with hconflict
      cases hupdate
      refine ⟨rfl, .inr ⟨stored, _, hid ▸ hget, ?_, ?_, ?_, rfl⟩⟩
      · simpa using hid
      · rfl
      · exact Bool.eq_false_iff.mpr hconflict

/-- The rows of the other accounts stay, and the account keeps its nanoid. -/
theorem accounts_of_updateIsBot {action : FieldAction Bool} (hunique : db.AccountsUnique)
    (h : updateIsBot tz call accountId action db = .ok after) :
    after.AccountsUnique ∧
      (∀ row, row.id ≠ accountId → (row ∈ after.accounts.rows ↔ row ∈ db.accounts.rows)) ∧
      ∀ row ∈ after.accounts.rows, row.id = accountId →
        ∃ stored ∈ db.accounts.rows, stored.id = accountId ∧ stored.nanoid = row.nanoid := by
  obtain ⟨hframe, hsame | ⟨stored, row, hget, hid, hnanoid, hconflict, hput⟩⟩ := updateIsBot_ok h
  · refine ⟨?_, fun row _ => by rw [hsame], fun row hrow hid => ⟨row, hsame ▸ hrow, hid, rfl⟩⟩
    intro row hrow
    rw [Db.accountConflict, hsame]
    rw [hsame] at hrow
    exact hunique row hrow
  · refine ⟨?_, fun other hother => ?_, fun other hother hotherId => ?_⟩
    · have hafter := hunique.put hconflict
      rw [Db.AccountsUnique] at hafter ⊢
      intro other hother
      rw [hput] at hother
      rw [Db.accountConflict, hput]
      exact hafter other hother
    · rw [hput, Table.mem_put, hid]
      constructor
      · rintro (rfl | ⟨hold, _⟩)
        · exact absurd hid hother
        · exact hold
      · exact fun hold => .inr ⟨hold, hother⟩
    · obtain ⟨hstored, hstoredId⟩ := Table.get_eq_some_iff.mp hget
      rw [hput, Table.mem_put, hid] at hother
      rcases hother with rfl | ⟨_, hne⟩
      · exact ⟨stored, hstored, hstoredId, hnanoid.symm⟩
      · exact absurd hotherId hne

/-- The request changes something of the profile. -/
def Touches (dto : UpdateAccountDto) : Prop :=
  dto.displayName ≠ .Unchanged ∨ dto.summary ≠ .Unchanged ∨ dto.iconUrl ≠ .Unchanged ∨
    dto.bannerUrl ≠ .Unchanged

theorem isUnchanged_iff {α : Type} {action : FieldAction α} :
    action.isUnchanged = true ↔ action = .Unchanged := by
  cases action <;> simp [FieldAction.isUnchanged]

/-- A profile that is updated gets what its stream holds, with the actions applied. -/
theorem updateProfile_ok {id : ProfileId} {displayName summary : FieldAction String}
    {icon banner : FieldAction ImageId} {row : Profile}
    (hnewest : ∀ event ∈ db.profileEvents, event.version < call.profileStamp.version)
    (hrow : db.profiles.get id = some row)
    (h : updateProfile call id displayName summary icon banner db = .ok after) :
    (displayName = .Unchanged ∧ summary = .Unchanged ∧ icon = .Unchanged ∧ banner = .Unchanged ∧
        after = db) ∨
      ¬(displayName = .Unchanged ∧ summary = .Unchanged ∧ icon = .Unchanged ∧ banner = .Unchanged) ∧
        ∃ stream events, ProfileRepository.load db id = .ok stream ∧
          after = { db with
            profileEvents := events
            profiles := db.profiles.put { row with
              displayName := displayName.applyTo stream.aggregate.displayName
              summary := summary.applyTo stream.aggregate.summary
              icon := icon.applyTo stream.aggregate.icon
              banner := banner.applyTo stream.aggregate.banner
              version := call.profileStamp.version } } := by
  unfold updateProfile at h
  simp only [Bool.and_eq_true, isUnchanged_iff, and_assoc] at h
  split_ifs at h with hunchanged
  · cases h
    obtain ⟨hdisplay, hsummary, hicon, hbanner⟩ := hunchanged
    exact .inl ⟨hdisplay, hsummary, hicon, hbanner, rfl⟩
  · refine .inr ⟨hunchanged, ?_⟩
    simp only [Fallible.bind_eq_ok, ProfileRepository.save] at h
    obtain ⟨⟨envelope, saved⟩, ⟨event, hevent, hsaved⟩, reloaded, hreload, hupdate⟩ := h
    cases hsaved
    simp only [ProfileEventStore.persistInternal, EventStore.persistInternal, uniqueViolation,
      reject] at hevent
    split_ifs at hevent
    cases hevent
    have hstream : EventStore.findById (EventStore.insertedRow
          (Profile.update id displayName summary icon banner) call.profileStamp.version
          call.profileStamp.seq :: db.profileEvents) id none =
        EventStore.findById db.profileEvents id none ++
          [⟨id, .Updated displayName summary icon banner, call.profileStamp.version⟩] :=
      EventStore.findById_cons_newest fun other hother _ => hnewest other hother
    have hfold : foldEvents Profile.apply none (EventStore.findById (EventStore.insertedRow
          (Profile.update id displayName summary icon banner) call.profileStamp.version
          call.profileStamp.seq :: db.profileEvents) id none) = .ok (some reloaded.aggregate) :=
      (ProfileRepository.load_eq_ok.mp hreload).1
    rw [hstream] at hfold
    obtain ⟨before, hbefore, happly⟩ := foldEvents_concat.mp hfold
    cases before with
    | none => cases happly
    | some before =>
        have haggregate := Option.some.inj (Except.ok.inj happly)
        have hid : before.id = id := Profile.foldEvents_id (fun _ h => by cases h)
          (fun _ hevent => EventStore.id_of_mem_findById hevent) hbefore
        refine ⟨⟨before, before.version⟩, after.profileEvents,
          ProfileRepository.load_eq_ok.mpr ⟨hbefore, Profile.fold_version hbefore⟩, ?_⟩
        rw [← haggregate] at hupdate
        simp only [ProfileReadModel.update, hid, hrow, foreignKeyViolation, reject] at hupdate
        split_ifs at hupdate
        cases hupdate
        rw [(Table.get_eq_some_iff.mp hrow).2]

end Rows

/-! ### Reading an account -/

/-- The URL of an image, if there is one. -/
def imageUrl (db : Db) (id : Option ImageId) : Option String :=
  id.bind fun id => (db.images.get id).map Image.url

/-- The details a row and a profile are composed to. -/
def detailOf (db : Db) (now : OffsetDateTime) (row : AccountRow) (profile : Profile) :
    AccountDetailDto :=
  (AccountDto.ofAccount (row.toAccount false now)).intoDetail profile.displayName profile.summary
    (imageUrl db profile.icon) (imageUrl db profile.banner) (shown (listed db row.id))

section Reading

variable {db : Db} {now : OffsetDateTime} {view : AccountId → Result Bool} {row : AccountRow}

theorem find_findByIds {ids : List ImageId} {id : ImageId} (h : id ∈ ids) :
    (ImageRepository.findByIds db ids).find? (fun image => image.id = id) = db.images.get id := by
  rw [ImageRepository.findByIds, Table.select, List.find?_filter, Table.get]
  congr 1
  funext image
  by_cases hid : image.id = id
  · simp [hid, h]
  · simp [hid]

/-- Image ids that are all asked for. -/
theorem bind_findByIds {ids : List ImageId} {id : Option ImageId} (h : ∀ i ∈ id, i ∈ ids) :
    (id.bind fun id => ((ImageRepository.findByIds db ids).find? (fun image => image.id = id)).map
      Image.url) = imageUrl db id := by
  cases id with
  | none => rfl
  | some id => simp only [Option.bind_some, imageUrl, find_findByIds (h id rfl)]

theorem metadataMap_eq (db : Db) (accountId : AccountId) :
    metadataMap (MetadataReadModel.findByAccountIds db [accountId]) accountId =
      shown (listed db accountId) := by
  have hselect : MetadataReadModel.findByAccountIds db [accountId] =
      db.metadatas.select fun field => field.accountId = accountId := by
    simp [MetadataReadModel.findByAccountIds]
  have howner : ∀ field ∈ db.metadatas.select fun field => field.accountId = accountId,
      field.accountId = accountId := by
    intro field hfield
    simpa using (List.mem_filter.mp hfield).2
  have hsort : (db.metadatas.select fun field => field.accountId = accountId).insertionSort
      (fun a b => toLex (a.accountId, a.id) ≤ toLex (b.accountId, b.id)) = listed db accountId := by
    have hmap := List.map_insertionSort (fun a b => toLex (a.accountId, a.id) ≤ toLex (b.accountId, b.id))
      (fun a b : Metadata => a.id ≤ b.id) id
      (db.metadatas.select fun field => field.accountId = accountId) (by
        intro a ha b hb
        rw [Prod.Lex.toLex_le_toLex, howner a ha, howner b hb]
        simp)
    rw [List.map_id, List.map_id] at hmap
    exact hmap
  rw [metadataMap, hselect, hsort, List.filter_eq_self.mpr]
  · rfl
  · intro field hfield
    exact (Table.mem_ordered.mp hfield).2

/-- An account that is visible and may be viewed is composed from its own rows. -/
theorem composeAccountDetails_single (db : Db) (account : Account) :
    composeAccountDetails db [account] =
      match ProfileReadModel.findByAccountId db account.id with
      | none => reject .NotFound "Profile not found for account"
      | some profile => .ok [(AccountDto.ofAccount account).intoDetail profile.displayName
          profile.summary (imageUrl db profile.icon) (imageUrl db profile.banner)
          (shown (listed db account.id))] := by
  have hselect : ProfileReadModel.findByAccountIds db [account.id] =
      db.profiles.rows.filter fun row => row.accountId = account.id := by
    simp [ProfileReadModel.findByAccountIds, Table.select]
  have hfind : (ProfileReadModel.findByAccountIds db [account.id]).find?
      (fun row => row.accountId = account.id) = ProfileReadModel.findByAccountId db account.id := by
    rw [hselect, List.find?_filter, ProfileReadModel.findByAccountId]
    simp
  simp only [composeAccountDetails, List.isEmpty_cons, Bool.false_eq_true, if_false, List.map_cons,
    List.map_nil, composeDetails, hfind, metadataMap_eq]
  cases hprofile : ProfileReadModel.findByAccountId db account.id with
  | none => rfl
  | some profile =>
      have hmem : profile ∈ ProfileReadModel.findByAccountIds db [account.id] := by
        rw [hprofile] at hfind
        exact List.mem_of_find?_eq_some hfind
      have hicon : ∀ i ∈ profile.icon, i ∈ ((ProfileReadModel.findByAccountIds db [account.id]).flatMap
          fun profile => profile.icon.toList ++ profile.banner.toList).dedup := by
        intro i hi
        rw [List.mem_dedup, List.mem_flatMap]
        exact ⟨profile, hmem, List.mem_append_left _ (Option.mem_toList.mpr hi)⟩
      have hbanner : ∀ i ∈ profile.banner, i ∈ ((ProfileReadModel.findByAccountIds db [account.id]).flatMap
          fun profile => profile.icon.toList ++ profile.banner.toList).dedup := by
        intro i hi
        rw [List.mem_dedup, List.mem_flatMap]
        exact ⟨profile, hmem, List.mem_append_right _ (Option.mem_toList.mpr hi)⟩
      simp only [bind_findByIds hicon, bind_findByIds hbanner]
      rfl

/-- Reading the account of a row: it is found while it is visible and may be viewed. -/
theorem getAccountDetail_of_row (hunique : db.AccountsUnique) (hrow : row ∈ db.accounts.rows) :
    getAccountDetail db now view row.nanoid =
      if row.visible now = true ∧ (checkPermission (view row.id)).isOk = true then
        match ProfileReadModel.findByAccountId db row.id with
        | none => reject .NotFound "Profile not found for account"
        | some profile => .ok (detailOf db now row profile)
      else reject .NotFound ("Account not found with nanoid: " ++ row.nanoid) := by
  have hrows : (db.accounts.rows.filter fun other => other.nanoid ∈ [row.nanoid] && other.visible now) =
      if row.visible now = true then [row] else [] := by
    split_ifs with hvisible
    · refine Table.filter_eq_singleton hrow (by simp [hvisible]) fun other hother hnamed => ?_
      rw [Bool.and_eq_true] at hnamed
      exact hunique.eq_of_nanoid_eq hrow hother (by simpa using hnamed.1)
    · refine List.filter_eq_nil_iff.mpr fun other hother hnamed => hvisible ?_
      rw [Bool.and_eq_true] at hnamed
      rw [← hunique.eq_of_nanoid_eq hrow hother (by simpa using hnamed.1)]
      exact hnamed.2
  have hid : (row.toAccount false now).id = row.id := rfl
  simp only [getAccountDetail, getAccountDetailsByIds, AccountReadModel.findByNanoids, Table.select, hrows]
  by_cases hvisible : row.visible now = true
  · by_cases hview : (checkPermission (view row.id)).isOk = true
    · rw [if_pos hvisible, if_pos ⟨hvisible, hview⟩, List.map_cons, List.map_nil,
        List.filter_cons_of_pos (by simpa [hid] using hview), List.filter_nil,
        composeAccountDetails_single, hid]
      cases ProfileReadModel.findByAccountId db row.id with
      | none => rfl
      | some profile => rfl
    · rw [if_pos hvisible, if_neg fun h => hview h.2, List.map_cons, List.map_nil,
        List.filter_cons_of_neg (by simpa [hid] using hview), List.filter_nil]
      rfl
  · rw [if_neg hvisible, if_neg fun h => hvisible h.1]
    rfl

theorem getAccountDetail_of_none {nanoid : Nanoid}
    (hnone : ∀ row ∈ db.accounts.rows, row.nanoid ≠ nanoid) :
    getAccountDetail db now view nanoid =
      reject .NotFound ("Account not found with nanoid: " ++ nanoid) := by
  have hrows : (db.accounts.rows.filter fun other => other.nanoid ∈ [nanoid] && other.visible now) =
      [] := by
    refine List.filter_eq_nil_iff.mpr fun other hother hnamed => hnone other hother ?_
    rw [Bool.and_eq_true] at hnamed
    simpa using hnamed.1
  simp only [getAccountDetail, getAccountDetailsByIds, AccountReadModel.findByNanoids, Table.select,
    hrows, List.map_nil, List.filter_nil]
  rfl

end Reading

/-! ### The answer -/

section Answer

variable {tz : Timestamptz} {call : Call} {accountId : AccountId} {dto : UpdateAccountDto}
  {db after : Db} {answer : AccountDetailDto}

/-- The image an action sets is the one its URL resolves to. -/
theorem imageAfter_ok {action : FieldAction String} {resolved : FieldAction ImageId}
    {current id : Option ImageId} (hresolved : resolveFieldActionImageId db action = .ok resolved)
    (hafter : imageAfter db action current = .ok id) : id = resolved.applyTo current := by
  cases action with
  | Unchanged =>
      cases hresolved
      exact (Except.ok.inj hafter).symm
  | Clear =>
      cases hresolved
      exact (Except.ok.inj hafter).symm
  | Set url =>
      simp only [resolveFieldActionImageId, imageAfter, Fallible.bind_eq_ok] at hresolved hafter
      obtain ⟨first, hfirst, hset⟩ := hresolved
      obtain ⟨second, hsecond, hsome⟩ := hafter
      rw [hfirst] at hsecond
      cases hsecond
      cases hset
      exact (Except.ok.inj hsome).symm

theorem unchanged_of_resolved {action : FieldAction String} {resolved : FieldAction ImageId}
    (hresolved : resolveFieldActionImageId db action = .ok resolved) :
    resolved = .Unchanged ↔ action = .Unchanged := by
  cases action with
  | Unchanged =>
      cases hresolved
      simp
  | Clear =>
      cases hresolved
      simp
  | Set url =>
      simp only [resolveFieldActionImageId, Fallible.bind_eq_ok] at hresolved
      obtain ⟨id, _, hset⟩ := hresolved
      cases hset
      simp

theorem resolveFieldActionImageId_congr (himages : after.images = db.images)
    (action : FieldAction String) :
    resolveFieldActionImageId after action = resolveFieldActionImageId db action := by
  cases action with
  | Unchanged => rfl
  | Clear => rfl
  | Set url =>
      simp only [resolveFieldActionImageId, resolveImageId, ImageRepository.findByUrl, himages]

/-- The answer is made of the visible row of the account, the request and the profile of before. -/
theorem accountDetail_ok {profile : Profile} {existing : List Metadata} {icon banner : FieldAction ImageId}
    (hicon : resolveFieldActionImageId db dto.iconUrl = .ok icon)
    (hbanner : resolveFieldActionImageId db dto.bannerUrl = .ok banner)
    (h : accountDetail call accountId dto profile existing db = .ok answer) :
    ∃ row ∈ db.accounts.rows, row.id = accountId ∧ row.visible call.now = true ∧
      answer = (AccountDto.ofAccount (row.toAccount false call.now)).intoDetail
        (dto.displayName.applyTo profile.displayName) (dto.summary.applyTo profile.summary)
        (imageUrl db (icon.applyTo profile.icon)) (imageUrl db (banner.applyTo profile.banner))
        (dto.fields.getD (shown existing)) := by
  unfold accountDetail at h
  split at h
  · cases h
  · rename_i account hfind
    simp only [Fallible.bind_eq_ok] at h
    obtain ⟨iconId, hiconId, bannerId, hbannerId, hanswer⟩ := h
    obtain ⟨row, hrow, rfl⟩ := Option.map_eq_some_iff.mp hfind
    have hnamed := List.find?_some hrow
    rw [Bool.and_eq_true, decide_eq_true_eq] at hnamed
    refine ⟨row, List.mem_of_find?_eq_some hrow, hnamed.1, hnamed.2, ?_⟩
    have hurl : ∀ id : Option ImageId, (∀ i ∈ id, i ∈ iconId.toList ++ bannerId.toList) →
        imageUrl db id = id.bind fun id =>
          ((ImageRepository.findByIds db (iconId.toList ++ bannerId.toList)).find?
            (fun image => image.id = id)).map Image.url :=
      fun _ h => (bind_findByIds h).symm
    rw [← imageAfter_ok hicon hiconId, ← imageAfter_ok hbanner hbannerId,
      hurl iconId fun i hi => List.mem_append_left _ (Option.mem_toList.mpr hi),
      hurl bannerId fun i hi => List.mem_append_right _ (Option.mem_toList.mpr hi)]
    exact (Except.ok.inj hanswer).symm

/-- The rows of everything but the account are those of before. -/
structure Framed (accountId : AccountId) (db after : Db) : Prop where
  images : after.images = db.images
  unique : after.AccountsUnique
  others : ∀ row, row.id ≠ accountId → (row ∈ after.accounts.rows ↔ row ∈ db.accounts.rows)
  nanoid : ∀ row ∈ after.accounts.rows, row.id = accountId →
    ∃ stored ∈ db.accounts.rows, stored.id = accountId ∧ stored.nanoid = row.nanoid
  profiles : ∀ other, other ≠ accountId →
    ProfileReadModel.findByAccountId after other = ProfileReadModel.findByAccountId db other
  fields : ∀ other, other ≠ accountId → listed after other = listed db other

/-- What the actions of a request are applied to: the row of the profile, if the request leaves the
profile alone, and otherwise what its stream folds to. -/
def Base (db : Db) (dto : UpdateAccountDto) (profile base : Profile) : Prop :=
  (¬Touches dto ∧ base = profile) ∨
    (Touches dto ∧ ∃ stream, ProfileRepository.load db profile.id = .ok stream ∧
      base = stream.aggregate)

/-- The answer shows `profile` with the actions applied, and the row written shows `base` with them. -/
structure Answered (call : Call) (accountId : AccountId) (dto : UpdateAccountDto) (db after : Db)
    (answer : AccountDetailDto) (row : AccountRow) (profile base written : Profile)
    (icon banner : FieldAction ImageId) : Prop where
  mem : row ∈ after.accounts.rows
  owner : row.id = accountId
  visible : row.visible call.now = true
  before : ProfileReadModel.findByAccountId db accountId = some profile
  basis : Base db dto profile base
  wrote : ProfileReadModel.findByAccountId after accountId = some written
  keepsIcon : icon = .Unchanged ↔ dto.iconUrl = .Unchanged
  keepsBanner : banner = .Unchanged ↔ dto.bannerUrl = .Unchanged
  displayName : written.displayName = dto.displayName.applyTo base.displayName
  summary : written.summary = dto.summary.applyTo base.summary
  iconId : written.icon = icon.applyTo base.icon
  bannerId : written.banner = banner.applyTo base.banner
  answer : answer = (AccountDto.ofAccount (row.toAccount false call.now)).intoDetail
    (dto.displayName.applyTo profile.displayName) (dto.summary.applyTo profile.summary)
    (imageUrl db (icon.applyTo profile.icon)) (imageUrl db (banner.applyTo profile.banner))
    (shown (listed after accountId))

/-- The profile after the step of the transaction that updates it. -/
theorem profile_of_updateProfile {profile : Profile} {icon banner : FieldAction ImageId}
    (hnewest : ∀ event ∈ db.profileEvents, event.version < call.profileStamp.version)
    (hprofile : ProfileReadModel.findByAccountId db accountId = some profile)
    (hicon : icon = .Unchanged ↔ dto.iconUrl = .Unchanged)
    (hbanner : banner = .Unchanged ↔ dto.bannerUrl = .Unchanged)
    (h : updateProfile call profile.id dto.displayName dto.summary icon banner db = .ok after) :
    after = { db with profileEvents := after.profileEvents, profiles := after.profiles } ∧
      (∀ other, other ≠ accountId →
        ProfileReadModel.findByAccountId after other = ProfileReadModel.findByAccountId db other) ∧
      ∃ base written, Base db dto profile base ∧
        ProfileReadModel.findByAccountId after accountId = some written ∧
        written.displayName = dto.displayName.applyTo base.displayName ∧
        written.summary = dto.summary.applyTo base.summary ∧
        written.icon = icon.applyTo base.icon ∧ written.banner = banner.applyTo base.banner := by
  have hrow := List.mem_of_find?_eq_some hprofile
  have howner : profile.accountId = accountId := by simpa using List.find?_some hprofile
  obtain ⟨hdisplay, hsummary, hiconId, hbannerId, rfl⟩ | ⟨hchanges, stream, events, hload, rfl⟩ :=
    updateProfile_ok hnewest (Table.get_eq_some_iff.mpr ⟨hrow, rfl⟩) h
  · refine ⟨rfl, fun _ _ => rfl, profile, profile, .inl ⟨?_, rfl⟩, hprofile, ?_⟩
    · rintro (h | h | h | h)
      · exact h hdisplay
      · exact h hsummary
      · exact h (hicon.mp hiconId)
      · exact h (hbanner.mp hbannerId)
    · rw [hdisplay, hsummary, hiconId, hbannerId]
      exact ⟨rfl, rfl, rfl, rfl⟩
  · have htouches : Touches dto := by
      by_contra hnone
      simp only [Touches, not_or, not_not] at hnone
      exact hchanges ⟨hnone.1, hnone.2.1, hicon.mpr hnone.2.2.1, hbanner.mpr hnone.2.2.2⟩
    refine ⟨rfl, fun other hother => ?_, stream.aggregate, _, .inr ⟨htouches, stream, hload, rfl⟩,
      List.find?_cons_of_pos (decide_eq_true howner), rfl, rfl, rfl, rfl⟩
    rw [ProfileReadModel.findByAccountId, ProfileReadModel.findByAccountId, ← List.head?_filter,
      ← List.head?_filter, Table.filter_put_of_not]
    · exact decide_eq_false fun h => hother (h.symm.trans howner)
    · intro stored hstored hid
      rw [db.profiles.eq_of_key_eq hstored hrow hid]
      exact decide_eq_false fun h => hother (h.symm.trans howner)

/-- What a committed update has written and answered. -/
theorem updateDetailTransaction_ok {mediaChanged : Bool} (hunique : db.AccountsUnique)
    (hprofileVersion : ∀ event ∈ db.profileEvents, event.version < call.profileStamp.version)
    (hgenerated : FieldsGenerated call db)
    (h : updateDetailTransaction tz call accountId dto db = .ok ((answer, mediaChanged), after)) :
    Framed accountId db after ∧ ∃ row profile base written icon banner,
      Answered call accountId dto db after answer row profile base written icon banner := by
  simp only [updateDetailTransaction, Fallible.bind_eq_ok] at h
  obtain ⟨afterBot, hbot, h⟩ := h
  split at h
  · cases h
  rename_i profile hprofile
  simp only [Fallible.bind_eq_ok] at h
  obtain ⟨icon, hicon, banner, hbanner, afterProfile, hupdate, afterFields, hfields, detail, hdetail,
    hresult⟩ := h
  cases hresult
  obtain ⟨hbotFrame, _⟩ := updateIsBot_ok hbot
  obtain ⟨hafterUnique, hothers, hnanoid⟩ := accounts_of_updateIsBot hunique hbot
  have hprofileEvents : afterBot.profileEvents = db.profileEvents := by rw [hbotFrame]
  have hprofiles : ∀ other, ProfileReadModel.findByAccountId afterBot other =
      ProfileReadModel.findByAccountId db other := by
    intro other
    rw [hbotFrame]
    rfl
  obtain ⟨hprofileFrame, hotherProfiles, base, written, hbase, hwritten, hvalues⟩ :=
    profile_of_updateProfile (hprofileEvents ▸ hprofileVersion) hprofile (unchanged_of_resolved hicon)
      (unchanged_of_resolved hbanner) hupdate
  have hmetadatas : afterProfile.metadatas = db.metadatas := by rw [hprofileFrame, hbotFrame]
  have hmetadataEvents : afterProfile.metadataEvents = db.metadataEvents := by
    rw [hprofileFrame, hbotFrame]
  obtain ⟨n, listing, hdone, hshown⟩ := updateFields_ok (⟨hmetadataEvents ▸ hgenerated.fieldVersion,
    hgenerated.fieldVersions, hmetadatas ▸ hgenerated.fieldId, hgenerated.fieldIds⟩) hfields
  have haccounts : after.accounts = afterBot.accounts := by rw [hdone.frame, hprofileFrame]
  have hafterProfiles : ∀ other, ProfileReadModel.findByAccountId after other =
      ProfileReadModel.findByAccountId afterProfile other := by
    intro other
    rw [hdone.frame]
    rfl
  have himages : after.images = afterBot.images := by rw [hdone.frame, hprofileFrame]
  have himages' : after.images = db.images := by rw [himages, hbotFrame]
  rw [← resolveFieldActionImageId_congr himages] at hicon hbanner
  obtain ⟨row, hrow, hid, hvisible, hanswer⟩ := accountDetail_ok hicon hbanner hdetail
  constructor
  · refine ⟨himages', ?_, ?_, ?_, fun other hother => ?_, fun other hother => ?_⟩
    · intro row hrow
      rw [Db.accountConflict, haccounts]
      rw [haccounts] at hrow
      exact hafterUnique row hrow
    · rw [haccounts]
      exact hothers
    · rw [haccounts]
      exact hnanoid
    · rw [hafterProfiles, hotherProfiles other hother, hprofiles]
    · rw [listed, listed, Table.ordered, Table.ordered, Table.select, Table.select,
        hdone.elsewhere _ fun row howner => decide_eq_false (howner ▸ hother.symm), hmetadatas]
  · refine ⟨row, profile, base, written, icon, banner, hrow, hid, hvisible, hprofiles _ ▸ hprofile, ?_,
      (hafterProfiles _).trans hwritten, unchanged_of_resolved hicon, unchanged_of_resolved hbanner,
      hvalues.1, hvalues.2.1, hvalues.2.2.1, hvalues.2.2.2, ?_⟩
    · rcases hbase with hleft | ⟨htouches, stream, hload, rfl⟩
      · exact .inl hleft
      · refine .inr ⟨htouches, stream, ?_, rfl⟩
        rw [ProfileRepository.load, hprofileEvents] at hload
        exact hload
    · have hurl : ∀ id, imageUrl after id = imageUrl db id := by
        intro id
        rw [imageUrl, himages', imageUrl]
      rw [hanswer, hurl, hurl, hdone.listing, hshown]
      rfl

/-! ### Reading back -/

/-- Whatever part of the profile the request leaves alone while it changes another shows the same in the
row as in the stream. -/
def UpToDate (db : Db) (dto : UpdateAccountDto) (accountId : AccountId) : Prop :=
  ∀ profile stream, ProfileReadModel.findByAccountId db accountId = some profile →
    ProfileRepository.load db profile.id = .ok stream → Touches dto →
      (dto.displayName = .Unchanged → stream.aggregate.displayName = profile.displayName) ∧
        (dto.summary = .Unchanged → stream.aggregate.summary = profile.summary) ∧
        (dto.iconUrl = .Unchanged →
          imageUrl db stream.aggregate.icon = imageUrl db profile.icon) ∧
        (dto.bannerUrl = .Unchanged →
          imageUrl db stream.aggregate.banner = imageUrl db profile.banner)

theorem applyTo_eq_iff {α β : Type} (display : Option α → β) (action : FieldAction α)
    (current other : Option α) :
    display (action.applyTo current) = display (action.applyTo other) ↔
      (action = .Unchanged → display current = display other) := by
  cases action <;> simp [FieldAction.applyTo]

theorem intoDetail_eq_iff {base : AccountDto} {displayName summary iconUrl bannerUrl displayName'
      summary' iconUrl' bannerUrl' : Option String} {fields : List AccountFieldDto} :
    base.intoDetail displayName summary iconUrl bannerUrl fields =
        base.intoDetail displayName' summary' iconUrl' bannerUrl' fields ↔
      displayName = displayName' ∧ summary = summary' ∧ iconUrl = iconUrl' ∧
        bannerUrl = bannerUrl' := by
  simp [AccountDto.intoDetail]

/-- Decoded without the clock, a row is the same account at every time. -/
theorem toAccount_false (row : AccountRow) (now later : OffsetDateTime) :
    row.toAccount false now = row.toAccount false later := by
  simp [AccountRow.toAccount, AccountRow.status]

theorem visible_of_le {row : AccountRow} {now later : OffsetDateTime} (hle : now ≤ later)
    (h : row.visible now = true) : row.visible later = true := by
  simp only [AccountRow.visible, Bool.and_eq_true, Bool.or_eq_true] at h ⊢
  refine ⟨h.1, h.2.imp id fun hexpired => ?_⟩
  cases hexpires : row.suspendExpiresAt with
  | none => simp [hexpires] at hexpired
  | some expiresAt =>
      simp only [hexpires, Option.any_some, decide_eq_true_eq] at hexpired ⊢
      exact hexpired.trans hle

/-- Reading the account after the update composes the row the update has written. -/
theorem getAccountDetail_answered {row : AccountRow} {profile base written : Profile}
    {icon banner : FieldAction ImageId} {view : AccountId → Result Bool} {later : OffsetDateTime}
    (hframed : Framed accountId db after)
    (h : Answered call accountId dto db after answer row profile base written icon banner)
    (hview : view accountId = .ok true) (hlater : call.now ≤ later) :
    getAccountDetail after later view row.nanoid = .ok answer ↔
      written.displayName = dto.displayName.applyTo profile.displayName ∧
        written.summary = dto.summary.applyTo profile.summary ∧
        imageUrl db written.icon = imageUrl db (icon.applyTo profile.icon) ∧
        imageUrl db written.banner = imageUrl db (banner.applyTo profile.banner) := by
  have hread : getAccountDetail after later view row.nanoid = .ok (detailOf after later row written) := by
    rw [getAccountDetail_of_row hframed.unique h.mem, if_pos, h.owner, h.wrote]
    refine ⟨visible_of_le hlater h.visible, ?_⟩
    rw [h.owner, hview]
    rfl
  have hurl : ∀ id, imageUrl after id = imageUrl db id := by
    intro id
    rw [imageUrl, hframed.images, imageUrl]
  rw [hread, Except.ok.injEq, h.answer, detailOf, toAccount_false row later call.now, hurl, hurl,
    h.owner]
  exact intoDetail_eq_iff

end Answer

/-- An update that is committed has answered what is read from then on exactly if the row of the profile
was up to date wherever the request leaves it alone; the details of no other account change. -/
theorem answer_is_read_back_iff (tz : Timestamptz) (call : Call) (dto : UpdateAccountDto)
    (db after : Db) (hunique : db.AccountsUnique)
    (hprofileVersion : ∀ event ∈ db.profileEvents, event.version < call.profileStamp.version)
    (hgenerated : FieldsGenerated call db) (account : Account)
    (haccount : AccountReadModel.findByNanoidUnfiltered db call.now dto.accountNanoid = some account)
    (answer : AccountDetailDto) (hcommitted : updateAccountDetail tz call dto db = (.ok answer, after))
    (view : AccountId → Result Bool) (hview : view account.id = .ok true) (later : OffsetDateTime)
    (hlater : call.now ≤ later) :
    (getAccountDetail after later view dto.accountNanoid = .ok answer ↔ UpToDate db dto account.id) ∧
      ∀ nanoid, nanoid ≠ dto.accountNanoid →
        getAccountDetail after later view nanoid = getAccountDetail db later view nanoid := by
  -- the row the use case starts from
  obtain ⟨start, hstart, rfl⟩ := Option.map_eq_some_iff.mp haccount
  have hnamed := List.find?_some hstart
  rw [Bool.and_eq_true, decide_eq_true_eq] at hnamed
  have hstartMem := List.mem_of_find?_eq_some hstart
  change view start.id = .ok true at hview
  change (_ ↔ UpToDate db dto start.id) ∧ _
  obtain ⟨mediaChanged, htransaction⟩ : ∃ mediaChanged,
      updateDetailTransaction tz call start.id dto db = .ok ((answer, mediaChanged), after) := by
    simp only [updateAccountDetail, Session.bind_eq_ok, Session.lift_eq_ok, Session.read_eq_ok,
      Session.atomically_eq_ok, Session.pure_eq_ok] at hcommitted
    obtain ⟨_, _, ⟨_, rfl⟩, _, _, ⟨hfound, rfl⟩, _, _, ⟨_, rfl⟩, _, _, ⟨_, rfl⟩, ⟨updated, media⟩, _,
      hatomic, hresult, rfl⟩ := hcommitted
    rw [haccount] at hfound
    cases hfound
    cases hresult
    exact ⟨media, hatomic⟩
  obtain ⟨hframed, row, profile, base, written, icon, banner, hanswered⟩ :=
    updateDetailTransaction_ok hunique hprofileVersion hgenerated htransaction
  constructor
  · have hnanoid : row.nanoid = dto.accountNanoid := by
      obtain ⟨stored, hstored, hid, hsame⟩ := hframed.nanoid row hanswered.mem hanswered.owner
      rw [← hsame, db.accounts.eq_of_key_eq hstored hstartMem hid]
      exact hnamed.1
    have hvalue : ∀ (action : FieldAction String) (current other : Option String),
        action.applyTo current = action.applyTo other ↔ (action = .Unchanged → current = other) :=
      applyTo_eq_iff id
    rw [← hnanoid, getAccountDetail_answered hframed hanswered hview hlater, hanswered.displayName,
      hanswered.summary, hanswered.iconId, hanswered.bannerId, hvalue, hvalue,
      applyTo_eq_iff (imageUrl db), applyTo_eq_iff (imageUrl db), hanswered.keepsIcon,
      hanswered.keepsBanner]
    rcases hanswered.basis with ⟨hleft, rfl⟩ | ⟨htouches, stream, hload, rfl⟩
    · exact ⟨fun _ _ _ _ _ htouches => absurd htouches hleft,
        fun _ => ⟨fun _ => rfl, fun _ => rfl, fun _ => rfl, fun _ => rfl⟩⟩
    · constructor
      · intro hshows other loaded hother hloaded _
        rw [hanswered.before] at hother
        cases hother
        rw [hload] at hloaded
        cases hloaded
        exact hshows
      · intro hupToDate
        exact hupToDate profile stream hanswered.before hload htouches
  · intro nanoid hne
    by_cases hexists : ∃ other ∈ db.accounts.rows, other.nanoid = nanoid
    · obtain ⟨other, hother, rfl⟩ := hexists
      have hid : other.id ≠ start.id := by
        intro hid
        rw [db.accounts.eq_of_key_eq hother hstartMem hid] at hne
        exact hne hnamed.1
      have hdetail : ∀ profile, detailOf after later other profile = detailOf db later other profile := by
        intro profile
        simp only [detailOf, imageUrl, hframed.images, hframed.fields other.id hid]
      rw [getAccountDetail_of_row hframed.unique ((hframed.others other hid).mpr hother),
        getAccountDetail_of_row hunique hother, hframed.profiles other.id hid]
      simp only [hdetail]
    · have hnone : ∀ row ∈ db.accounts.rows, row.nanoid ≠ nanoid :=
        fun row hrow heq => hexists ⟨row, hrow, heq⟩
      rw [getAccountDetail_of_none hnone, getAccountDetail_of_none]
      intro row hrow heq
      by_cases hid : row.id = start.id
      · obtain ⟨stored, hstored, _, hsame⟩ := hframed.nanoid row hrow hid
        exact hnone stored hstored (hsame.trans heq)
      · exact hnone row ((hframed.others row hid).mp hrow) heq

/-! ### An edit of Alice -/

/-- A name and two fields. -/
def aliceEdit : UpdateAccountDto :=
  { Moderation.rename with
    fields := some [⟨"Website", "alice.example"⟩, ⟨"Code", "forge.example"⟩] }

/-- Ids and versions of fields are generated in turn. -/
def editing : Call :=
  { Streams.permitted 3 (.ok ()) with
    field := fun i => ⟨10 + i, "field-" ++ toString i, ⟨300 + i, i⟩⟩ }

def aliceAnswer : AccountDetailDto where
  nanoid := "alice-nanoid"
  name := "alice"
  displayName := some "Alice"
  summary := none
  iconUrl := none
  bannerUrl := none
  isBot := false
  fields := [⟨"Website", "alice.example"⟩, ⟨"Code", "forge.example"⟩]
  createdAt := 1767225600000000000
  moderation := none

/-- The summary was changed, and the projector has not run since. -/
def aliceBehind : Db :=
  { Moderation.createdAlice with
    profileEvents := ⟨2, ⟨8, .Updated .Unchanged (.Set "new") .Unchanged .Unchanged, 202⟩⟩ ::
      Moderation.createdAlice.profileEvents }

theorem fieldsGenerated_editing {db : Db} (hevents : db.metadataEvents = []) (hrows : db.metadatas.rows = []) :
    FieldsGenerated editing db where
  fieldVersion := by
    rw [hevents]
    intro event hevent
    cases hevent
  fieldVersions := by
    intro i j hij
    change (300 : Int) + i < 300 + j
    omega
  fieldId := by
    rw [hrows]
    intro row hrow
    cases hrow
  fieldIds := by
    intro i j hij
    change (10 : Int) + i < 10 + j
    omega

/-- The answer is read back from an up-to-date row, and not from one that is behind in its summary. -/
theorem answer_is_read_back_alice :
    (∃ after, updateAccountDetail .microseconds editing aliceEdit Moderation.createdAlice =
        (.ok aliceAnswer, after) ∧
      getAccountDetail after 5 (fun _ => .ok true) "alice-nanoid" = .ok aliceAnswer) ∧
    ∃ after, updateAccountDetail .microseconds editing aliceEdit aliceBehind = (.ok aliceAnswer, after) ∧
      getAccountDetail after 5 (fun _ => .ok true) "alice-nanoid" ≠ .ok aliceAnswer := by
  have hanswer : (updateAccountDetail .microseconds editing aliceEdit Moderation.createdAlice).1 =
      .ok aliceAnswer := by decide +kernel
  have hbehind : (updateAccountDetail .microseconds editing aliceEdit aliceBehind).1 =
      .ok aliceAnswer := by decide +kernel
  refine ⟨⟨_, Prod.ext hanswer rfl, ?_⟩, _, Prod.ext hbehind rfl, ?_⟩
  · refine (answer_is_read_back_iff .microseconds editing aliceEdit Moderation.createdAlice _
      (by unfold Db.AccountsUnique; decide +kernel) (by decide +kernel)
      (fieldsGenerated_editing (by rfl) (by rfl)) _ (by rfl) aliceAnswer (Prod.ext hanswer rfl)
      (fun _ => .ok true) rfl 5 (by decide)).1.mpr ?_
    intro profile stream hprofile hload _
    cases hprofile
    cases hload
    decide +kernel
  · decide +kernel

end ReadBack

end Emumet

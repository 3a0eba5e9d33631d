import Emumet.LibRuns
import Emumet.KernelReplay
import Emumet.ServiceAccountDetail

/-! The streams of the account commands stay foldable. Every command but one checks the account it
loaded for what applying its event requires. Deactivation relies on the read model instead, which may
not show yet that the account is deactivated. -/

namespace Emumet

namespace Streams

/-- The stream of an account folds without error, whatever the clock says. -/
def Folds (db : Db) : Prop :=
  ∀ now id, ∃ entity, Account.fold now (EventStore.findById db.accountEvents id none) = .ok entity

/-- Whether a stream folds does not depend on the clock. -/
theorem fold_of_clock {events : List (EventEnvelope AccountEvent)} (now now' : OffsetDateTime)
    (h : ∃ entity, Account.fold now events = .ok entity) :
    ∃ entity, Account.fold now' events = .ok entity := by
  obtain ⟨entity, hfold⟩ := h
  obtain ⟨result, hresult, _⟩ := Account.foldEvents_alike (T := fun _ _ => True)
    (fun _ => trivial) .none (fun _ _ _ => trivial) hfold
  exact ⟨result, hresult⟩

/-- An account with events can be loaded. -/
theorem Folds.load {db : Db} (h : Folds db) (now : OffsetDateTime) {event : SeqEvent AccountEvent}
    (hevent : event ∈ db.accountEvents) :
    ∃ rehydrated, AccountRepository.load db now event.id = .ok rehydrated := by
  obtain ⟨entity, hfold⟩ := h now event.id
  have hne : EventStore.findById db.accountEvents event.id none ≠ [] :=
    List.ne_nil_of_mem (EventStore.envelope_mem_findById hevent rfl)
  obtain ⟨account, rfl, hversion⟩ := Account.foldEvents_ok hfold hne
  refine ⟨⟨account, account.version⟩, AccountRepository.load_eq_ok.mpr ⟨hfold, ?_⟩⟩
  rw [List.getLast?_eq_some_getLast hne, Option.map_some, hversion]

/-! ### Appending one event -/

/-- An event that is newest and applies to the fold of its stream keeps every stream foldable. -/
theorem Folds.append {db : Db} (h : Folds db) {row : SeqEvent AccountEvent} (now : OffsetDateTime)
    (hnewest : ∀ event ∈ db.accountEvents, event.version < row.version)
    (happly : ∀ entity, Account.fold now (EventStore.findById db.accountEvents row.id none) =
      .ok entity → ∃ next, Account.apply now entity row.envelope = .ok next) :
    Folds { db with accountEvents := row :: db.accountEvents } := by
  intro now' id
  by_cases hid : row.id = id
  · subst hid
    refine fold_of_clock now now' ?_
    obtain ⟨entity, hfold⟩ := h now row.id
    obtain ⟨next, hnext⟩ := happly entity hfold
    rw [EventStore.findById_cons_newest fun other hother _ => hnewest other hother]
    exact ⟨next, foldEvents_concat.mpr ⟨entity, hfold, hnext⟩⟩
  · rw [EventStore.findById_cons_of_ne hid]
    exact h now' id

/-- Every event that is stored is older than the one the call saves. -/
def Newest (db : Db) (call : Call) : Prop :=
  ∀ event ∈ db.accountEvents, event.version < call.accountStamp.version

/-- A command whose check implies what its event requires. -/
theorem folds_commandTransaction {call : Call} {id : AccountId} {check : Account → Result Unit}
    {command : EventVersion → CommandEnvelope AccountEvent} {db after : Db} (h : Folds db)
    (hnewest : Newest db call) (hok : commandTransaction call id check command db = .ok after)
    (hid : ∀ version, (command version).id = id)
    (hrequires : ∀ account version, Account.fold call.now
        (EventStore.findById db.accountEvents id none) = .ok (some account) → check account = .ok () →
      Account.requires (command version).event account = true) : Folds after := by
  simp only [commandTransaction, Fallible.bind_eq_ok] at hok
  obtain ⟨loaded, hload, _, hcheck, ⟨envelope, saved⟩, hsave, hresult⟩ := hok
  obtain ⟨hfold, _⟩ := AccountRepository.load_eq_ok.mp hload
  obtain ⟨_, rfl, rfl⟩ := AccountRepository.save_ok hsave
  cases hresult
  refine h.append call.now hnewest fun entity hentity => ?_
  rw [SeqEvent.id, hid, hfold] at hentity
  cases hentity
  rw [hid]
  exact Account.apply_of_requires (hrequires loaded.aggregate loaded.version hfold hcheck)

/-! ### The commands -/

open Session

/-- A step that reads leaves the database as it is. -/
theorem stays {α : Type} {db : Db} (h : Folds db) {op : Session Db Report α} (hop : Moves Eq op) :
    Triple (· = db) op (fun _ => (· = db)) Folds := by
  rintro s rfl
  have hsame := hop s
  rcases hrun : op s with ⟨_ | a, after⟩
  · rw [hrun] at hsame
    exact hsame ▸ h
  · rw [hrun] at hsame
    exact hsame.symm

variable {db : Db} {call : Call}

theorem folds_moderate (h : Folds db) (hnewest : Newest db call) {accountNanoid : String}
    {precondition : Result Unit} {check : Account → Result Unit}
    {command : AccountId → EventVersion → CommandEnvelope AccountEvent}
    (hid : ∀ id version, (command id version).id = id)
    (hrequires : ∀ account id version, check account = .ok () →
      Account.requires (command id version).event account = true) :
    Triple (· = db) (moderate call accountNanoid precondition check command) (fun _ => Folds)
      Folds := by
  refine .bind (stays h (.read _)) fun projection => .bind (stays h (.lift _)) fun _ =>
    .bind (stays h (.lift _)) fun _ => .exec (fun s after hs hok => ?_) fun _ hs => hs ▸ h
  subst hs
  exact folds_commandTransaction h hnewest hok (hid projection.id)
    fun account version _ hcheck => hrequires account projection.id version hcheck

theorem folds_suspendAccount (h : Folds db) (hnewest : Newest db call) (accountNanoid reason : String)
    (expiresAt : Option OffsetDateTime) :
    Triple (· = db) (suspendAccount call accountNanoid reason expiresAt) (fun _ => Folds) Folds := by
  refine .bind (stays h (.lift _)) fun _ => folds_moderate h hnewest (fun _ _ => rfl) ?_
  intro account id version hcheck
  simp only [reject] at hcheck
  split_ifs at hcheck with hactive hdeleted
  change (account.status.isActive && account.deletedAt.isNone) = true
  simp_all

theorem folds_unsuspendAccount (h : Folds db) (hnewest : Newest db call) (accountNanoid : String) :
    Triple (· = db) (unsuspendAccount call accountNanoid) (fun _ => Folds) Folds := by
  refine folds_moderate h hnewest (fun _ _ => rfl) ?_
  intro account id version hcheck
  simp only [reject] at hcheck
  split_ifs at hcheck with hsuspended
  change account.status.isSuspended = true
  simpa using hsuspended

theorem folds_banAccount (h : Folds db) (hnewest : Newest db call) (accountNanoid reason : String) :
    Triple (· = db) (banAccount call accountNanoid reason) (fun _ => Folds) Folds := by
  refine .bind (stays h (.lift _)) fun _ => folds_moderate h hnewest (fun _ _ => rfl) ?_
  intro account id version hcheck
  simp only [reject] at hcheck
  split_ifs at hcheck with hbanned hdeleted
  change (!account.status.isBanned && account.deletedAt.isNone) = true
  simp_all

theorem folds_unbanAccount (h : Folds db) (hnewest : Newest db call) (accountNanoid : String) :
    Triple (· = db) (unbanAccount call accountNanoid) (fun _ => Folds) Folds := by
  refine folds_moderate h hnewest (fun _ _ => rfl) ?_
  intro account id version hcheck
  simp only [reject] at hcheck
  split_ifs at hcheck with hbanned
  change account.status.isBanned = true
  simpa using hbanned

theorem folds_reactivateAccount (h : Folds db) (hnewest : Newest db call)
    (authAccountId : AuthAccountId) (accountNanoid : String) :
    Triple (· = db) (reactivateAccount call authAccountId accountNanoid) (fun _ => Folds) Folds := by
  refine .bind (stays h (.read _)) fun projection => ?_
  refine .bind (stays h (.read _)) fun _ => ?_
  refine .bind (Q := fun _ => Folds) (.exec (fun s after hs hok => ?_) fun _ hs => hs ▸ h) fun _ => ?_
  · subst hs
    refine folds_commandTransaction h hnewest hok (fun _ => rfl) ?_
    intro account version _ hcheck
    simp only [reject] at hcheck
    split_ifs at hcheck with hactive
    change account.deletedAt.isSome = true
    exact Option.isSome_iff_ne_none.mpr (by simpa using hactive)
  · exact .lift (fun _ _ _ hs => hs) fun _ hs => hs

/-- The stream of the account ends deactivated. -/
def deactivated (db : Db) (now : OffsetDateTime) (id : AccountId) : Bool :=
  match Account.fold now (EventStore.findById db.accountEvents id none) with
  | .ok (some account) => account.deletedAt.isSome
  | _ => false

/-- Deactivation checks nothing itself. -/
theorem folds_deactivateAccount (h : Folds db) (hnewest : Newest db call) {accountNanoid : String}
    (hactive : ∀ projection, AccountReadModel.findByNanoid db call.now accountNanoid = some projection →
      deactivated db call.now projection.id = false) :
    Triple (· = db) (deactivateAccount call accountNanoid) (fun _ => Folds) Folds := by
  refine .bind (Q := fun projection s => s = db ∧
      AccountReadModel.findByNanoid db call.now accountNanoid = some projection)
    (.read (fun projection s hs hfound => ?_) fun _ hs => hs ▸ h) fun projection =>
    .assume fun hfind => ?_
  · subst hs
    refine ⟨rfl, ?_⟩
    cases hrow : AccountReadModel.findByNanoid s call.now accountNanoid with
    | none => simp [hrow, accountFound, reject] at hfound
    | some row => simpa [hrow, accountFound] using hfound
  refine .bind (stays h (.lift _)) fun _ => ?_
  refine .bind (Q := fun _ => Folds) (.exec (fun s after hs hok => ?_) fun _ hs => hs ▸ h) fun _ => ?_
  · subst hs
    refine folds_commandTransaction h hnewest hok (fun _ => rfl) ?_
    intro account version hfold _
    have hnone := hactive projection hfind
    rw [deactivated, hfold] at hnone
    change account.deletedAt.isNone = true
    simpa using hnone
  · exact .lift (fun _ _ _ hs => hs) fun _ hs => hs

/-! ### Writes to other tables -/

/-- The events of accounts are the same. -/
def SameEvents (before after : Db) : Prop := after.accountEvents = before.accountEvents

theorem Folds.same {before after : Db} (h : Folds before) (hsame : SameEvents before after) :
    Folds after := by
  intro now id
  rw [hsame]
  exact h now id

theorem sameEvents_createAccount {tz : Timestamptz} {account : Account} {after : Db}
    (h : AccountReadModel.create tz db account = .ok after) : SameEvents db after := by
  simp only [AccountReadModel.create, uniqueViolation, reject] at h
  split_ifs at h
  cases h
  rfl

theorem sameEvents_updateAccount {tz : Timestamptz} {account : Account} {after : Db}
    (h : AccountReadModel.update tz db account = .ok after) : SameEvents db after := by
  simp only [AccountReadModel.update, uniqueViolation, reject] at h
  split at h
  · cases h
  · split_ifs at h
    cases h
    rfl

theorem sameEvents_linkAuthAccount {accountId : AccountId} {authId : AuthAccountId} {after : Db}
    (h : AccountReadModel.linkAuthAccount db accountId authId = .ok after) : SameEvents db after := by
  simp only [AccountReadModel.linkAuthAccount, foreignKeyViolation, reject] at h
  split_ifs at h
  all_goals
    cases h
    rfl

/-- The accounts are the same, in the events and in the read model. -/
structure SameAccounts (before after : Db) : Prop where
  events : SameEvents before after
  rows : after.accounts = before.accounts

theorem SameAccounts.rfl {db : Db} : SameAccounts db db := ⟨Eq.refl _, Eq.refl _⟩

theorem SameAccounts.trans {before mid after : Db} (h : SameAccounts before mid)
    (h' : SameAccounts mid after) : SameAccounts before after :=
  ⟨Eq.trans h'.events h.events, h'.rows.trans h.rows⟩

theorem sameAccounts_saveProfile {command : CommandEnvelope ProfileEvent} {stamp : Stamp}
    {envelope : EventEnvelope ProfileEvent} {after : Db}
    (h : ProfileRepository.save db command stamp = .ok (envelope, after)) : SameAccounts db after := by
  simp only [ProfileRepository.save, Fallible.bind_eq_ok] at h
  obtain ⟨row, _, hresult⟩ := h
  cases hresult
  exact ⟨rfl, rfl⟩

theorem sameAccounts_createProfile {profile : Profile} {after : Db}
    (h : ProfileReadModel.create db profile = .ok after) : SameAccounts db after := by
  simp only [ProfileReadModel.create, uniqueViolation, foreignKeyViolation, reject] at h
  split_ifs at h
  cases h
  exact ⟨rfl, rfl⟩

theorem sameAccounts_updateProfileRow {profile : Profile} {after : Db}
    (h : ProfileReadModel.update db profile = .ok after) : SameAccounts db after := by
  simp only [ProfileReadModel.update, foreignKeyViolation, reject] at h
  split at h
  · cases h
  · split_ifs at h
    cases h
    exact ⟨rfl, rfl⟩

theorem sameAccounts_saveMetadata {command : CommandEnvelope MetadataEvent} {stamp : Stamp}
    {envelope : EventEnvelope MetadataEvent} {after : Db}
    (h : MetadataRepository.save db command stamp = .ok (envelope, after)) : SameAccounts db after := by
  simp only [MetadataRepository.save, Fallible.bind_eq_ok] at h
  obtain ⟨row, _, hresult⟩ := h
  cases hresult
  exact ⟨rfl, rfl⟩

theorem sameAccounts_applyFieldUpdate {accountId : AccountId} {field : FieldStamp} {after : Db}
    {operation : FieldUpdate} (h : applyFieldUpdate accountId field db operation = .ok after) :
    SameAccounts db after := by
  cases operation with
  | Update metadataId label content =>
      simp only [applyFieldUpdate, Fallible.bind_eq_ok, MetadataReadModel.update, reject] at h
      obtain ⟨loaded, _, ⟨envelope, saved⟩, hsave, reloaded, _, hupdate⟩ := h
      split at hupdate
      · cases hupdate
      · cases hupdate
        have hsame := sameAccounts_saveMetadata hsave
        exact ⟨hsame.events, hsame.rows⟩
  | Delete metadataId =>
      simp only [applyFieldUpdate, Fallible.bind_eq_ok, MetadataReadModel.delete, reject] at h
      obtain ⟨loaded, _, ⟨envelope, saved⟩, hsave, hdelete⟩ := h
      split_ifs at hdelete
      cases hdelete
      have hsame := sameAccounts_saveMetadata hsave
      exact ⟨hsame.events, hsame.rows⟩
  | Create label content =>
      simp only [applyFieldUpdate, Fallible.bind_eq_ok, MetadataReadModel.create, uniqueViolation,
        foreignKeyViolation, reject] at h
      obtain ⟨⟨envelope, saved⟩, hsave, applied, _, metadata, _, hcreate⟩ := h
      split_ifs at hcreate
      cases hcreate
      have hsame := sameAccounts_saveMetadata hsave
      exact ⟨hsame.events, hsame.rows⟩

theorem sameAccounts_applyFieldUpdates {accountId : AccountId} {existing : List Metadata}
    {submitted : List AccountFieldDto} {after : Db}
    (h : applyFieldUpdates call accountId existing submitted db = .ok after) : SameAccounts db after :=
  Fallible.foldlM_invariant (P := SameAccounts db)
    (fun _ _ _ _ hbefore hstep => hbefore.trans (sameAccounts_applyFieldUpdate hstep)) .rfl h

theorem sameAccounts_updateFields {accountId : AccountId} {existing : List Metadata}
    {submitted : Option (List AccountFieldDto)} {after : Db}
    (h : updateFields call accountId existing submitted db = .ok after) : SameAccounts db after := by
  cases submitted with
  | none =>
      cases h
      exact .rfl
  | some fields => exact sameAccounts_applyFieldUpdates h

theorem sameAccounts_updateProfile {id : ProfileId} {displayName summary : FieldAction String}
    {icon banner : FieldAction ImageId} {after : Db}
    (h : updateProfile call id displayName summary icon banner db = .ok after) :
    SameAccounts db after := by
  unfold updateProfile at h
  split_ifs at h
  · cases h
    exact .rfl
  · simp only [Fallible.bind_eq_ok] at h
    obtain ⟨⟨envelope, saved⟩, hsave, rehydrated, _, hupdate⟩ := h
    exact (sameAccounts_saveProfile hsave).trans (sameAccounts_updateProfileRow hupdate)

/-! ### Creation and update -/

theorem folds_createAccount {tz : Timestamptz} (h : Folds db) (hnewest : Newest db call)
    (authAccountId : AuthAccountId) (dto : CreateAccountDto) :
    Triple (· = db) (createAccount tz call authAccountId dto) (fun _ => Folds) Folds := by
  refine .bind (Q := fun _ => Folds) (.atomically (fun s account after hs hok => ?_) fun _ hs => hs ▸ h)
    fun account => .bind (.lift (fun _ _ _ hs => hs) fun _ hs => hs) fun _ => .pure fun _ hs => hs
  subst hs
  simp only [createTransaction, Fallible.bind_eq_ok] at hok
  obtain ⟨⟨created, saved⟩, hsave, applied, _, constructed, _, afterCreate, hcreate, afterLink, hlink,
    ⟨createdProfile, savedProfile⟩, hsaveProfile, appliedProfile, _, profile, _, afterProfile,
    hprofile, _, _, hresult⟩ := hok
  cases hresult
  obtain ⟨hguard, rfl, rfl⟩ := AccountRepository.save_ok hsave
  have hsame : SameEvents _ after :=
    (sameAccounts_createProfile hprofile).events.trans
      ((sameAccounts_saveProfile hsaveProfile).events.trans
        ((sameEvents_linkAuthAccount hlink).trans (sameEvents_createAccount hcreate)))
  refine Folds.same ?_ hsame
  refine h.append call.now hnewest fun entity hentity => ?_
  -- The stream is empty, so the account is created from nothing.
  have hempty : EventStore.findById s.accountEvents call.accountId none = [] :=
    EventStore.findById_of_nothing hguard
  change Account.fold call.now (EventStore.findById s.accountEvents call.accountId none) = _ at hentity
  rw [hempty] at hentity
  cases hentity
  obtain ⟨account, happly, _⟩ := Account.apply_created call.now call.accountId dto.name dto.isBot
    call.accountNanoid authAccountId call.accountStamp.version
  exact ⟨some account, happly⟩

theorem folds_updateIsBot {tz : Timestamptz} {accountId : AccountId} {action : FieldAction Bool}
    {after : Db} (h : Folds db) (hnewest : Newest db call)
    (hok : updateIsBot tz call accountId action db = .ok after) : Folds after := by
  simp only [updateIsBot, Fallible.bind_eq_ok] at hok
  obtain ⟨loaded, hload, hok⟩ := hok
  split_ifs at hok with hchanged
  · cases hok
    exact h
  · simp only [Fallible.bind_eq_ok] at hok
    obtain ⟨⟨envelope, saved⟩, hsave, applied, _, hupdate⟩ := hok
    have hsame : SameEvents saved after := by
      split at hupdate
      · exact sameEvents_updateAccount hupdate
      · cases hupdate
    refine Folds.same ?_ hsame
    obtain ⟨hfold, _⟩ := AccountRepository.load_eq_ok.mp hload
    obtain ⟨_, rfl, rfl⟩ := AccountRepository.save_ok hsave
    refine h.append call.now hnewest fun entity hentity => ?_
    change Account.fold call.now (EventStore.findById db.accountEvents accountId none) = _ at hentity
    rw [hfold] at hentity
    cases hentity
    exact Account.apply_of_requires rfl

theorem folds_updateAccountDetail {tz : Timestamptz} (h : Folds db) (hnewest : Newest db call)
    (dto : UpdateAccountDto) :
    Triple (· = db) (updateAccountDetail tz call dto) (fun _ => Folds) Folds := by
  refine .bind (stays h (.lift _)) fun _ => .bind (stays h (.read _)) fun projection =>
    .bind (stays h (.lift _)) fun _ => .bind (stays h (.lift _)) fun _ =>
    .bind (Q := fun _ => Folds) (.atomically (fun s result after hs hok => ?_) fun _ hs => hs ▸ h)
    fun _ => .pure fun _ hs => hs
  subst hs
  simp only [updateDetailTransaction, Fallible.bind_eq_ok] at hok
  obtain ⟨afterBot, hbot, hok⟩ := hok
  have hfolds := folds_updateIsBot h hnewest hbot
  split at hok
  · cases hok
  · simp only [Fallible.bind_eq_ok] at hok
    obtain ⟨icon, _, banner, _, afterProfile, hprofile, afterFields, hfields, detail, _, hresult⟩ := hok
    cases hresult
    exact hfolds.same
      ((sameAccounts_updateProfile hprofile).trans (sameAccounts_updateFields hfields)).events

/-! ### Runs -/

/-- A call of an account command, or a write of another part of the program, such as the projectors,
which leaves the events of accounts alone. -/
inductive Action where
  | createAccount (call : Call) (authAccountId : AuthAccountId) (dto : CreateAccountDto)
  | updateAccountDetail (call : Call) (dto : UpdateAccountDto)
  | deactivateAccount (call : Call) (accountNanoid : String)
  | reactivateAccount (call : Call) (authAccountId : AuthAccountId) (accountNanoid : String)
  | suspendAccount (call : Call) (accountNanoid reason : String) (expiresAt : Option OffsetDateTime)
  | unsuspendAccount (call : Call) (accountNanoid : String)
  | banAccount (call : Call) (accountNanoid reason : String)
  | unbanAccount (call : Call) (accountNanoid : String)
  | write (tables : Db)

/-- The database afterwards, whether the call succeeded or failed. -/
def step (tz : Timestamptz) (db : Db) : Action → Db
  | .createAccount call authAccountId dto => (createAccount tz call authAccountId dto db).2
  | .updateAccountDetail call dto => (updateAccountDetail tz call dto db).2
  | .deactivateAccount call accountNanoid => (deactivateAccount call accountNanoid db).2
  | .reactivateAccount call authAccountId accountNanoid =>
      (reactivateAccount call authAccountId accountNanoid db).2
  | .suspendAccount call accountNanoid reason expiresAt =>
      (suspendAccount call accountNanoid reason expiresAt db).2
  | .unsuspendAccount call accountNanoid => (unsuspendAccount call accountNanoid db).2
  | .banAccount call accountNanoid reason => (banAccount call accountNanoid reason db).2
  | .unbanAccount call accountNanoid => (unbanAccount call accountNanoid db).2
  | .write tables => { tables with accountEvents := db.accountEvents }

def Action.call? : Action → Option Call
  | .createAccount call _ _ => some call
  | .updateAccountDetail call _ => some call
  | .deactivateAccount call _ => some call
  | .reactivateAccount call _ _ => some call
  | .suspendAccount call _ _ _ => some call
  | .unsuspendAccount call _ => some call
  | .banAccount call _ _ => some call
  | .unbanAccount call _ => some call
  | .write _ => none

/-- The generator of versions never goes back: the version a call draws is above those stored. -/
def VersionsIncrease (db : Db) (action : Action) : Prop :=
  ∀ call ∈ action.call?, ∀ event ∈ db.accountEvents, event.version < call.accountStamp.version

/-- An account that is to be deactivated, as the read model finds it, is not deactivated already by its
committed events. -/
def DeactivatesOnce (db : Db) : Action → Prop
  | .deactivateAccount call accountNanoid =>
      ∀ projection ∈ AccountReadModel.findByNanoid db call.now accountNanoid,
        deactivated db call.now projection.id = false
  | _ => True

instance (db : Db) (action : Action) : Decidable (VersionsIncrease db action) :=
  inferInstanceAs (Decidable (∀ _ ∈ _, _))

instance (db : Db) (action : Action) : Decidable (DeactivatesOnce db action) :=
  match action with
  | .deactivateAccount .. => inferInstanceAs (Decidable (∀ _ ∈ _, _))
  | .createAccount .. | .updateAccountDetail .. | .reactivateAccount .. | .suspendAccount ..
  | .unsuspendAccount .. | .banAccount .. | .unbanAccount .. | .write .. => isTrue trivial

theorem folds_step {tz : Timestamptz} (h : Folds db) {action : Action}
    (hversion : VersionsIncrease db action) (honce : DeactivatesOnce db action) :
    Folds (step tz db action) := by
  cases action with
  | createAccount call authAccountId dto =>
      exact (folds_createAccount h (hversion call rfl) authAccountId dto).run rfl
  | updateAccountDetail call dto =>
      exact (folds_updateAccountDetail h (hversion call rfl) dto).run rfl
  | deactivateAccount call accountNanoid =>
      exact (folds_deactivateAccount h (hversion call rfl) honce).run rfl
  | reactivateAccount call authAccountId accountNanoid =>
      exact (folds_reactivateAccount h (hversion call rfl) authAccountId accountNanoid).run rfl
  | suspendAccount call accountNanoid reason expiresAt =>
      exact (folds_suspendAccount h (hversion call rfl) accountNanoid reason expiresAt).run rfl
  | unsuspendAccount call accountNanoid =>
      exact (folds_unsuspendAccount h (hversion call rfl) accountNanoid).run rfl
  | banAccount call accountNanoid reason =>
      exact (folds_banAccount h (hversion call rfl) accountNanoid reason).run rfl
  | unbanAccount call accountNanoid =>
      exact (folds_unbanAccount h (hversion call rfl) accountNanoid).run rfl
  | write tables => exact h

/-- In every run from an empty log whose versions increase and which deactivates no account that is
deactivated already, the stream of every account folds, and every account that has events is loaded. -/
theorem account_streams_fold (tz : Timestamptz) (db : Db) (hempty : db.accountEvents = [])
    (actions : List Action) (hgenerator : Runs.Along (step tz) VersionsIncrease db actions)
    (honce : Runs.Along (step tz) DeactivatesOnce db actions) (now : OffsetDateTime) :
    let after := Runs.run (step tz) db actions
    (∀ id, ∃ entity,
      Account.fold now (EventStore.findById after.accountEvents id none) = .ok entity) ∧
    ∀ event ∈ after.accountEvents,
      ∃ rehydrated, AccountRepository.load after now event.id = .ok rehydrated := by
  intro after
  have hstep (s : Db) (action : Action) (h : Folds s)
      (hallowed : VersionsIncrease s action ∧ DeactivatesOnce s action) : Folds (step tz s action) :=
    folds_step h hallowed.1 hallowed.2
  have hstart : Folds db := by
    intro now id
    rw [hempty]
    exact ⟨none, rfl⟩
  have hfolds := (hgenerator.and honce).invariant hstep hstart
  exact ⟨hfolds now, fun event hevent => hfolds.load now hevent⟩

/-! ### An account that is deactivated twice -/

/-- The caller is permitted; the permission service answers writes with the given outcome. Versions
and sequence numbers follow the clock. -/
def permitted (now : OffsetDateTime) (relations : Result Unit) : Call where
  now := now
  permission := .ok true
  writeRelation _ := relations
  signingKey := .ok ()
  accountId := 7
  accountNanoid := "alice-nanoid"
  accountStamp := ⟨100 + now, now⟩
  profileId := 8
  profileNanoid := "profile-nanoid"
  profileStamp := ⟨200 + now, now⟩
  field _ := ⟨9, "field-nanoid", ⟨300 + now, now⟩⟩

/-- Only the auth account of the owner is stored. -/
def registered : Db := { Db.empty with authAccounts := [3] }

def createAlice : Action := .createAccount (permitted 1 (.ok ())) 3 ⟨"alice", false⟩

def moderatedAlice : List Action :=
  [createAlice, .suspendAccount (permitted 2 (.ok ())) "alice-nanoid" "spam" none,
    .unsuspendAccount (permitted 3 (.ok ())) "alice-nanoid",
    .deactivateAccount (permitted 4 (.ok ())) "alice-nanoid",
    .reactivateAccount (permitted 5 (.ok ())) 3 "alice-nanoid",
    .banAccount (permitted 6 (.ok ())) "alice-nanoid" "abuse"]

/-- Six commands commit an event each, and the account is loaded. -/
theorem account_streams_fold_moderatedAlice :
    let after := Runs.run (step .microseconds) registered moderatedAlice
    after.accountEvents.length = 6 ∧
      ∃ rehydrated, AccountRepository.load after 10 7 = .ok rehydrated := by
  have hstreams := account_streams_fold .microseconds registered rfl moderatedAlice
    (by decide +kernel) (by decide +kernel) 10
  refine ⟨by decide +kernel, hstreams.2 ⟨6, ⟨7, .Banned "abuse" 6, 106⟩⟩ (by decide +kernel)⟩

/-- The relations are not deleted after the first deactivation, so its caller may repeat it before the
projector has updated the row. -/
def deactivatedTwice : List Action :=
  [createAlice,
    .deactivateAccount (permitted 2 (reject .Internal "permission service unavailable")) "alice-nanoid",
    .deactivateAccount (permitted 3 (.ok ())) "alice-nanoid"]

/-- Both deactivations commit, and the account can never be loaded again. -/
theorem second_deactivation_breaks_stream :
    let after := Runs.run (step .microseconds) registered deactivatedTwice
    Runs.Along (step .microseconds) VersionsIncrease registered deactivatedTwice ∧
      (EventStore.findById after.accountEvents 7 none).map EventEnvelope.event =
        [.Created "alice" false "alice-nanoid" 3, .Deactivated, .Deactivated] ∧
      AccountRepository.load after 10 7 =
        .error ⟨.Internal, "Account is already deactivated"⟩ := by
  refine ⟨by decide +kernel, by decide +kernel, ?_⟩
  rfl

end Streams

end Emumet

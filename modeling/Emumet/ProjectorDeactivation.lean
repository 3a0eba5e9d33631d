import Emumet.ProjectorConvergence

/-! Deactivation and reactivation. The projector looks up the row it folds onto among the rows that are
not deleted, so the row of a deactivated account counts as missing: newer events reach it only when the
batch holds the account's whole stream, from its creation on. -/

namespace Emumet

namespace Deactivation

open AccountProjector Convergence

variable {tz : Timestamptz} {clock : OffsetDateTime} {account : Account} {row : AccountRow}
  {events applied overlap new whole : List (SeqEvent AccountEvent)}

/-- Neither a suspension nor a ban. -/
def Unmoderated (event : AccountEvent) : Prop := ∀ status, ¬event.sets status

/-- The row agrees with the account, of the instants only on which are there. -/
def Encodes (tz : Timestamptz) (_ : PollEnv) (account : Account) (row : AccountRow) : Prop :=
  ∃ written, row = .ofAccount tz written ∧ Account.Alike (fun _ _ => True) account written

theorem status_of_unmoderated (h : Admits Unmoderated clock events)
    (hfold : Account.fold clock (events.map SeqEvent.envelope) = .ok (some account)) :
    account.status = .Active := by
  rcases Account.fold_status hfold with hactive | ⟨envelope, henvelope, hsets⟩
  · exact hactive
  · obtain ⟨event, hevent, rfl⟩ := List.mem_map.mp henvelope
    exact absurd hsets (h.1 event hevent _)

/-- Accounts that agree up to instants fold the same events to accounts that do. -/
theorem foldEvents_agree (now : OffsetDateTime) {entity other : Option Account}
    (halike : Option.Rel (Account.Alike fun _ _ => True) entity other)
    (hfold : foldEvents (Account.apply clock) entity (events.map SeqEvent.envelope) =
      .ok (some account)) :
    ∃ refolded, foldEvents (Account.apply now) other (events.map SeqEvent.envelope) =
      .ok (some refolded) ∧ Account.Alike (fun _ _ => True) account refolded := by
  obtain ⟨result, hresult, hrelated⟩ :=
    Account.foldEvents_alike (fun _ => trivial) halike (fun _ _ _ => trivial) hfold
  cases hrelated with
  | some hagree => exact ⟨_, hresult, hagree⟩

/-- A batch that holds the creation of an account holds every event of it that is applied. -/
theorem overlap_of_created (hoverlap : overlap <:+ applied)
    (hfold : Account.fold clock ((applied ++ new).map SeqEvent.envelope) = .ok (some account))
    (hne : applied ≠ [])
    (hcreated : ∃ event ∈ overlap ++ new, event.envelope.event.isCreated = true) :
    overlap = applied := by
  obtain ⟨earlier, rfl⟩ := hoverlap
  cases earlier with
  | nil => rfl
  | cons first rest =>
      -- The creation is the first event of the stream, and the batch starts after it.
      obtain ⟨event, hevent, hisCreated⟩ := hcreated
      rw [List.cons_append, List.cons_append, List.map_cons, Account.fold, foldEvents,
        List.foldlM_cons, Fallible.bind_eq_ok] at hfold
      obtain ⟨middle, happly, hrest⟩ := hfold
      obtain ⟨created, rfl, _⟩ := Account.apply_ok happly
      have hnot := Account.foldEvents_not_created hrest event.envelope (by
        refine List.mem_map.mpr ⟨event, ?_, rfl⟩
        rw [List.append_assoc]
        exact List.mem_append_right _ hevent)
      rw [hisCreated] at hnot
      cases hnot

/-- Newer events of a deleted row come with the creation of the account. -/
def RereadsDeleted (row : Option AccountRow) (events : List (SeqEvent AccountEvent)) : Prop :=
  ∀ stored, row = some stored → stored.deletedAt.isSome = true →
    (∃ event ∈ events, stored.version < event.version) →
    ∃ event ∈ events, event.envelope.event.isCreated = true

theorem encoding_unmoderated (tz : Timestamptz) (clock : OffsetDateTime) :
    Encoding tz clock Unmoderated (Encodes tz) (fun _ _ row events => RereadsDeleted row events)
      (fun _ _ => True) where
  version := by
    rintro env account row ⟨written, rfl, halike⟩
    rw [AccountRow.ofAccount_version, halike.version]
  keep := fun h _ => h
  fresh := by
    intro env events account hadmits hfold
    obtain ⟨refolded, hrefolded, hagree⟩ := foldEvents_agree env.now .none hfold
    exact ⟨refolded, hrefolded, refolded, rfl, hagree⟩
  step := by
    rintro before env id account _ applied overlap new last ⟨written, rfl, halike⟩ - hoverlap hne
      hadmits hguard hfold hlast hold hnew
    cases hdeleted : written.deletedAt with
    | none =>
        have hvisible : (AccountRow.ofAccount tz written).deletedAt = none := by
          rw [AccountRow.ofAccount_deletedAt, hdeleted]
          rfl
        have hactive : written.status = .Active := by
          have hstatus := halike.status
          rw [status_of_unmoderated hadmits.front hfold] at hstatus
          exact hstatus.eq_active
        have hdecoded := AccountRow.toAccount_ofAccount tz env.now written
        rw [show written.status.effective tz env.now = written.status by rw [hactive]; rfl]
          at hdecoded
        obtain ⟨refolded, hrefolded, hagree⟩ := foldEvents_agree env.now
          (.some (halike.trans (fun _ _ _ _ _ => trivial) (hdecoded.imp fun _ _ _ => trivial))) hlast
        exact ⟨_, updateRow_visible hvisible hold hnew hne hrefolded, refolded, rfl, hagree⟩
    | some instant =>
        have hhidden : (AccountRow.ofAccount tz written).deletedAt.isSome = true := by
          rw [AccountRow.ofAccount_deletedAt, hdeleted]
          rfl
        obtain ⟨newest, hnewest⟩ := List.exists_mem_of_ne_nil new hne
        have hcreated := hguard _ rfl hhidden
          ⟨newest, List.mem_append_right _ hnewest, hnew newest hnewest⟩
        have hwhole : Account.fold clock ((applied ++ new).map SeqEvent.envelope) =
            .ok (some last) := by
          rw [List.map_append, Account.fold, foldEvents_append, Fallible.bind_eq_ok]
          exact ⟨some account, hfold, hlast⟩
        have happlied : applied ≠ [] := by
          rintro rfl
          cases hfold
        obtain rfl := overlap_of_created hoverlap hwhole happlied hcreated
        obtain ⟨refolded, hrefolded, hagree⟩ := foldEvents_agree env.now .none hwhole
        have hnewer : (AccountRow.ofAccount tz written).version < refolded.version := by
          obtain ⟨result, hresult, hversion⟩ := Account.foldEvents_ok hlast (by simpa using hne)
          cases hresult
          rw [← hagree.version, hversion, List.getLast_map]
          exact hnew _ (List.getLast_mem hne)
        refine ⟨_, updateRow_afresh (decode_hidden hhidden) (by simp [hne]) hrefolded ?_, refolded,
          rfl, hagree⟩
        simpa using hnewer

/-! ### Runs -/

/-- A poll that reads newer events of deleted rows reads the creations of their accounts too. -/
def Rereads (s : State) : Action → Prop
  | .reveal _ => True
  | .poll _ => ∀ row ∈ s.db.accounts.rows, row.deletedAt.isSome = true →
      (∃ event ∈ unread s.db row.id, row.version < event.version) →
      ∃ event ∈ unread s.db row.id, event.envelope.event.isCreated = true

instance (s : State) (action : Action) : Decidable (Rereads s action) :=
  match action with
  | .reveal _ => isTrue trivial
  | .poll _ => inferInstanceAs (Decidable (∀ _ ∈ _, _))

theorem Rereads.guard {s : State} {env : PollEnv} (h : Rereads s (.poll env)) (id : AccountId) :
    RereadsDeleted (s.db.accounts.get id) (unread s.db id) := by
  intro stored hstored
  obtain ⟨hmem, rfl⟩ := Table.get_eq_some_iff.mp hstored
  exact h stored hmem

/-- The row agrees with the folded account on its name, bot flag and version and on whether it is
deleted. -/
def Agrees (account : Account) (row : AccountRow) : Prop :=
  row.name = account.name ∧ row.isBot = account.isBot ∧ row.version = account.version ∧
    row.deletedAt.isSome = account.deletedAt.isSome

theorem Encodes.agrees {env : PollEnv} (h : Encodes tz env account row) : Agrees account row := by
  obtain ⟨written, rfl, halike⟩ := h
  refine ⟨?_, ?_, ?_, ?_⟩
  · rw [AccountRow.ofAccount_name, halike.name]
  · rw [AccountRow.ofAccount_isBot, halike.isBot]
  · rw [AccountRow.ofAccount_version, halike.version]
  · rw [AccountRow.ofAccount_deletedAt, Option.isSome_map, optionRel_isSome halike.deletedAt]

/-- In every run whose polls reread the creations of deleted accounts with newer events, once nothing
is above the stored position every row agrees with the fold of its account's stream. -/
theorem account_projection_follows_deactivation (tz : Timestamptz)
    (authAccounts : List AuthAccountId) (whole : List (SeqEvent AccountEvent)) (clock : OffsetDateTime)
    (hwhole : Projection.Ordered SeqEvent.id SeqEvent.seq SeqEvent.version whole)
    (hpositive : ∀ event ∈ whole, 0 < event.seq)
    (hunmoderated : ∀ event ∈ whole, Unmoderated event.envelope.event)
    (hfolds : ∀ id, ∃ entity, Account.fold clock (streamOf whole id) = .ok entity)
    (actions : List Action)
    (hallowed : Runs.Along (step tz) (InOrder tz whole) (start authAccounts) actions)
    (hrereads : Runs.Along (step tz) Rereads (start authAccounts) actions) :
    let db := (Runs.run (step tz) (start authAccounts) actions).db
    Drained db → ∀ id, ∃ entity, Account.fold clock (streamOf db.accountEvents id) = .ok entity ∧
      Option.Rel Agrees entity (db.accounts.get id) := by
  intro db hdrained id
  have hfollows : Follows (Represents (Encodes tz) clock) whole 0
      (Runs.run (step tz) (start authAccounts) actions) := by
    refine (hallowed.and hrereads).invariant ?_ (follows_start authAccounts fun _ =>
      ⟨none, rfl, .none⟩)
    intro s action h hstep
    cases action with
    | reveal event => exact h.append hwhole hpositive hstep.1
    | poll env =>
        refine Follows.poll (fun last hlast => (h last hlast).mono (Int.natCast_nonneg _))
          (encoding_unmoderated tz clock).correct (admits_stream hunmoderated hfolds) Admits.front
          hstep.1 trivial (fun _ _ => trivial) (fun id _ => hstep.2.guard id)
  exact (hfollows.drained (Coverage.plainEnv 0) hdrained id).imp Encodes.agrees

/-- An account is deactivated and reactivated; another one is created in between, at the given
sequence number. -/
def reactivatedAlice (between : Int) : List (SeqEvent AccountEvent) :=
  [⟨1, ⟨7, .Created "alice" false "alice-nanoid" 3, 20⟩⟩, ⟨2, ⟨7, .Deactivated, 21⟩⟩,
    ⟨between, ⟨8, .Created "bob" true "bob-nanoid" 4, 22⟩⟩, ⟨between + 1, ⟨7, .Reactivated, 23⟩⟩]

/-- The projector polls after the deactivation, after the other account and at the end. -/
def reactivatedAliceRun (between : Int) : List Action :=
  [.reveal ⟨1, ⟨7, .Created "alice" false "alice-nanoid" 3, 20⟩⟩,
    .reveal ⟨2, ⟨7, .Deactivated, 21⟩⟩, .poll (Coverage.plainEnv 10),
    .reveal ⟨between, ⟨8, .Created "bob" true "bob-nanoid" 4, 22⟩⟩, .poll (Coverage.plainEnv 11),
    .reveal ⟨between + 1, ⟨7, .Reactivated, 23⟩⟩, .poll (Coverage.plainEnv 12)]

theorem unmoderated_reactivatedAlice (between : Int) :
    ∀ event ∈ reactivatedAlice between, Unmoderated event.envelope.event := by
  simp [reactivatedAlice, Unmoderated, AccountEvent.sets]

theorem folds_reactivatedAlice (between : Int) (id : AccountId) :
    ∃ entity, Account.fold 0 (streamOf (reactivatedAlice between) id) = .ok entity := by
  by_cases halice : id = 7
  · subst halice
    exact ⟨_, rfl⟩
  · by_cases hbob : id = 8
    · subst hbob
      have hbobs : streamOf (reactivatedAlice between) 8 =
          [⟨8, .Created "bob" true "bob-nanoid" 4, 22⟩] := rfl
      rw [hbobs]
      exact ⟨_, rfl⟩
    · refine ⟨none, ?_⟩
      have hnone : streamOf (reactivatedAlice between) id = [] := by
        simp [streamOf, Projection.stream, reactivatedAlice, SeqEvent.id, Ne.symm halice,
          Ne.symm hbob]
      rw [hnone]
      rfl

/-- While the creation is within the margin the reactivation arrives. -/
theorem account_projection_follows_reactivatedAlice :
    let db := (Runs.run (step .microseconds) (start [3, 4]) (reactivatedAliceRun 3)).db
    Drained db ∧ ∃ entity, Account.fold 0 (streamOf db.accountEvents 7) = .ok entity ∧
      Option.Rel Agrees entity (db.accounts.get 7) := by
  have hdrained : Drained (Runs.run (step .microseconds) (start [3, 4]) (reactivatedAliceRun 3)).db := by
    decide +kernel
  exact ⟨hdrained, account_projection_follows_deactivation .microseconds [3, 4]
    (reactivatedAlice 3) 0 ⟨by decide, by decide⟩ (by decide) (unmoderated_reactivatedAlice 3)
    (folds_reactivatedAlice 3) (reactivatedAliceRun 3) (by decide +kernel) (by decide +kernel)
    hdrained 7⟩

/-- With the creation out of the margin the reactivation is read and lost: the row stays deleted at the
version of the deactivation, with nothing left to read. -/
theorem deleted_row_misses_reactivation :
    let db := (Runs.run (step .microseconds) (start [3, 4]) (reactivatedAliceRun 200)).db
    Projection.Ordered SeqEvent.id SeqEvent.seq SeqEvent.version (reactivatedAlice 200) ∧
      (∀ event ∈ reactivatedAlice 200, Unmoderated event.envelope.event) ∧
      (∀ id, ∃ entity, Account.fold 0 (streamOf (reactivatedAlice 200) id) = .ok entity) ∧
      Runs.Along (step .microseconds) (InOrder .microseconds (reactivatedAlice 200)) (start [3, 4])
        (reactivatedAliceRun 200) ∧
      db.position .account = 201 ∧ Drained db ∧
      (∃ account, Account.fold 0 (streamOf db.accountEvents 7) = .ok (some account) ∧
        account.version = 23 ∧ account.deletedAt = none) ∧
      ∃ row, db.accounts.get 7 = some row ∧ row.version = 21 ∧ row.deletedAt.isSome = true := by
  refine ⟨⟨by decide, by decide⟩, unmoderated_reactivatedAlice 200, folds_reactivatedAlice 200,
    by decide +kernel, by decide +kernel, by decide +kernel, ⟨_, rfl, rfl, rfl⟩, ?_⟩
  exact ⟨_, rfl, rfl, rfl⟩

end Deactivation

end Emumet

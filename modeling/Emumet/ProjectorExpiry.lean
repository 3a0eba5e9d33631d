import Emumet.ProjectorConvergence

/-! Suspensions that expire. A row is decoded at the poll's clock, so a suspension that is over comes
back as no suspension, and newer events are folded onto an active account. An update of such a row also
clears its suspension columns. Either way the applier runs from another status than in the fold of the
stream, and the one event that tells the two apart is the end of the suspension. -/

namespace Emumet

namespace AccountEvent

def isModeration : AccountEvent → Bool
  | .Suspended .. | .Unsuspended | .Banned .. | .Unbanned => true
  | _ => false

end AccountEvent

namespace AccountRow

/-- The suspension columns are in force. -/
def suspensionInForce (row : AccountRow) (now : OffsetDateTime) : Bool :=
  row.suspendedAt.isSome && row.suspendExpiresAt.all (now < ·)

end AccountRow

namespace AccountStatus

/-- Suspended with no expiry or a later one. -/
def suspendedAt (now : OffsetDateTime) : AccountStatus → Bool
  | .Suspended _ _ expiresAt => expiresAt.all (now < ·)
  | _ => false

/-- Suspended with an expiry that has passed. -/
def Lapsed (now : OffsetDateTime) (status : AccountStatus) : Prop :=
  ∃ reason suspendedAt expiresAt, status = .Suspended reason suspendedAt (some expiresAt) ∧
    expiresAt ≤ now

theorem Lapsed.mono {status : AccountStatus} {before now : OffsetDateTime}
    (h : status.Lapsed before) (hle : before ≤ now) : status.Lapsed now := by
  obtain ⟨reason, suspendedAt, expiresAt, hstatus, hexpired⟩ := h
  exact ⟨reason, suspendedAt, expiresAt, hstatus, hexpired.trans hle⟩

theorem Lapsed.suspendedAt_eq {status : AccountStatus} {now : OffsetDateTime}
    (h : status.Lapsed now) : status.suspendedAt now = false := by
  obtain ⟨reason, suspendedAt, expiresAt, rfl, hexpired⟩ := h
  simpa [AccountStatus.suspendedAt] using hexpired

theorem Lapsed.isSuspended_eq {status : AccountStatus} {now : OffsetDateTime}
    (h : status.Lapsed now) : status.isSuspended = true := by
  obtain ⟨reason, suspendedAt, expiresAt, rfl, _⟩ := h
  rfl

end AccountStatus

namespace Expiry

open AccountProjector Convergence

variable {tz : Timestamptz} {clock now : OffsetDateTime} {account last next : Account}
  {row : AccountRow} {events applied overlap new whole : List (SeqEvent AccountEvent)}

/-! ### Folding onto an account whose suspension was forgotten -/

/-- The first event that changes the moderation status. -/
def firstModeration (events : List (SeqEvent AccountEvent)) : Option AccountEvent :=
  (events.map fun event => event.envelope.event).find? AccountEvent.isModeration

/-- The account without its suspension. -/
def unsuspended (account : Account) : Account := { account with status := .Active }

/-- An event other than the end of the suspension does not tell a suspended account from one that is
not: either it replaces the status of both or it leaves the status of both. -/
theorem apply_unsuspended {event : EventEnvelope AccountEvent}
    (hsuspended : account.status.isSuspended = true) (hdeleted : account.deletedAt = none)
    (hdeactivated : event.event ≠ .Deactivated) (hended : event.event ≠ .Unsuspended)
    (hok : Account.apply clock (some account) event = .ok (some next)) :
    Account.apply clock (some (unsuspended account)) event = .ok (some next) ∨
      event.event.isModeration = false ∧ next.status = account.status ∧ next.deletedAt = none ∧
        Account.apply clock (some (unsuspended account)) event = .ok (some (unsuspended next)) := by
  obtain ⟨id, payload, version⟩ := event
  obtain ⟨_, name, isBot, status, deletedAt, _, nanoid, createdAt⟩ := account
  cases hdeleted
  cases status <;> cases hsuspended
  cases payload <;> simp_all [Account.apply, reject, AccountStatus.isActive,
    AccountStatus.isBanned, unsuspended, AccountEvent.isModeration]
  all_goals (cases hok; simp)

/-- Events before which the suspension is not ended fold onto the account without its suspension, to
the same account or to the same account without its suspension. -/
theorem foldEvents_unsuspended (hsuspended : account.status.isSuspended = true)
    (hdeleted : account.deletedAt = none)
    (hevents : ∀ event ∈ events, event.envelope.event ≠ .Deactivated)
    (hfirst : firstModeration events ≠ some .Unsuspended)
    (hok : foldEvents (Account.apply clock) (some account) (events.map SeqEvent.envelope) =
      .ok (some last)) :
    ∃ other, foldEvents (Account.apply clock) (some (unsuspended account))
        (events.map SeqEvent.envelope) = .ok (some other) ∧
      (other = last ∨ last.status = account.status ∧ other = unsuspended last) := by
  induction events generalizing account with
  | nil =>
      cases hok
      exact ⟨unsuspended last, rfl, Or.inr ⟨rfl, rfl⟩⟩
  | cons event rest ih =>
      rw [List.map_cons, foldEvents, List.foldlM_cons, Fallible.bind_eq_ok] at hok
      obtain ⟨middle, happly, hrest⟩ := hok
      obtain ⟨next, rfl, _⟩ := Account.apply_ok happly
      have hended : event.envelope.event ≠ .Unsuspended := by
        intro hevent
        exact hfirst (by simp [firstModeration, hevent, AccountEvent.isModeration])
      rcases apply_unsuspended hsuspended hdeleted (hevents event List.mem_cons_self) hended happly
        with hsame | ⟨hneutral, hstatus, hkept, hother⟩
      · refine ⟨last, ?_, Or.inl rfl⟩
        rw [List.map_cons, foldEvents, List.foldlM_cons, Fallible.bind_eq_ok]
        exact ⟨some next, hsame, hrest⟩
      · have hfirstRest : firstModeration rest ≠ some .Unsuspended := by
          simpa [firstModeration, List.find?_cons, hneutral] using hfirst
        obtain ⟨other, hfold, hresult⟩ := ih (hstatus ▸ hsuspended) hkept
          (fun event hevent => hevents event (List.mem_cons_of_mem _ hevent)) hfirstRest hrest
        refine ⟨other, ?_, hstatus ▸ hresult⟩
        rw [List.map_cons, foldEvents, List.foldlM_cons, Fallible.bind_eq_ok]
        exact ⟨some (unsuspended next), hother, hfold⟩

/-! ### The encoding -/

/-- An expiry the column keeps as it is. -/
def WholeExpiry (tz : Timestamptz) (status : AccountStatus) : Prop :=
  ∀ reason suspendedAt expiresAt, status = .Suspended reason suspendedAt (some expiresAt) →
    tz.store expiresAt = expiresAt

/-- Not a deactivation, and not a suspension whose expiry the column changes. -/
def Expiring (tz : Timestamptz) (event : AccountEvent) : Prop :=
  event ≠ .Deactivated ∧ ∀ status, event.sets status → WholeExpiry tz status

/-- The row is that of the account, or of the account without its suspension once that is over. -/
def Encodes (tz : Timestamptz) (env : PollEnv) (account : Account) (row : AccountRow) : Prop :=
  row = .ofAccount tz account ∨
    account.status.Lapsed env.now ∧ row = .ofAccount tz (unsuspended account)

/-- An end of the suspension is not the first moderation event newer than a row whose suspension
columns are not in force. -/
def EndsInForce (now : OffsetDateTime) (row : Option AccountRow)
    (events : List (SeqEvent AccountEvent)) : Prop :=
  ∀ stored, row = some stored → stored.suspensionInForce now = false →
    firstModeration (events.filter fun event => stored.version < event.version) ≠ some .Unsuspended

theorem wholeExpiry_fold (h : Admits (Expiring tz) clock events)
    (hfold : Account.fold clock (events.map SeqEvent.envelope) = .ok (some account)) :
    WholeExpiry tz account.status := by
  rcases Account.fold_status hfold with hactive | ⟨envelope, henvelope, hsets⟩
  · rw [hactive]
    intro reason suspendedAt expiresAt hstatus
    cases hstatus
  · obtain ⟨event, hevent, rfl⟩ := List.mem_map.mp henvelope
    exact (h.1 event hevent).2 _ hsets

/-- The status a row gives back is the account's, unless its suspension is over. -/
theorem effective_cases (tz : Timestamptz) (now : OffsetDateTime) {status : AccountStatus}
    (hwhole : WholeExpiry tz status) :
    status.effective tz now = status ∨ status.Lapsed now ∧ status.effective tz now = .Active := by
  cases status with
  | Active => exact Or.inl rfl
  | Banned reason bannedAt => exact Or.inl rfl
  | Suspended reason suspendedAt expiresAt =>
      cases expiresAt with
      | none => exact Or.inl rfl
      | some expiresAt =>
          simp only [AccountStatus.effective]
          rw [hwhole reason suspendedAt expiresAt rfl]
          split_ifs with hexpired
          · exact Or.inr ⟨⟨reason, suspendedAt, expiresAt, rfl, hexpired⟩, rfl⟩
          · exact Or.inl rfl

theorem suspensionInForce_ofAccount (hwhole : WholeExpiry tz account.status) :
    (AccountRow.ofAccount tz account).suspensionInForce now = account.status.suspendedAt now := by
  obtain ⟨id, name, isBot, status, deletedAt, version, nanoid, createdAt⟩ := account
  cases status with
  | Active => rfl
  | Banned reason bannedAt => rfl
  | Suspended reason suspendedAt expiresAt =>
      cases expiresAt with
      | none => rfl
      | some expiresAt =>
          have hkept := hwhole reason suspendedAt expiresAt rfl
          simp [AccountRow.suspensionInForce, AccountRow.ofAccount, AccountStatus.suspendedAt, hkept]

/-- What is decoded from a row is the account, or the account without its suspension; in the second case
the suspension is over and its columns are not in force. -/
theorem Encodes.decoded {before env : PollEnv} (h : Encodes tz before account row)
    (hle : before.now ≤ env.now) (hwhole : WholeExpiry tz account.status) :
    Account.Alike tz.Same account (row.toAccount true env.now) ∨
      account.status.Lapsed env.now ∧ row.suspensionInForce env.now = false ∧
        Account.Alike tz.Same (unsuspended account) (row.toAccount true env.now) := by
  rcases h with rfl | ⟨hlapsed, rfl⟩
  · have hdecoded := AccountRow.toAccount_ofAccount tz env.now account
    rcases effective_cases tz env.now hwhole with hkept | ⟨hlapsed, hactive⟩
    · rw [hkept] at hdecoded
      exact Or.inl hdecoded
    · rw [hactive] at hdecoded
      refine Or.inr ⟨hlapsed, ?_, hdecoded⟩
      rw [suspensionInForce_ofAccount hwhole]
      exact hlapsed.suspendedAt_eq
  · exact Or.inr ⟨hlapsed.mono hle, rfl,
      AccountRow.toAccount_ofAccount tz env.now (unsuspended account)⟩

theorem Encodes.deletedAt {env : PollEnv} (h : Encodes tz env account row)
    (hdeleted : account.deletedAt = none) : row.deletedAt = none := by
  rcases h with rfl | ⟨_, rfl⟩
  · rw [AccountRow.ofAccount_deletedAt, hdeleted]
    rfl
  · rw [AccountRow.ofAccount_deletedAt, unsuspended, hdeleted]
    rfl

theorem Encodes.version {env : PollEnv} (h : Encodes tz env account row) :
    row.version = account.version := by
  rcases h with rfl | ⟨_, rfl⟩
  · exact AccountRow.ofAccount_version tz account
  · exact AccountRow.ofAccount_version tz (unsuspended account)

theorem filter_newer (hold : ∀ event ∈ overlap, event.version ≤ row.version)
    (hnew : ∀ event ∈ new, row.version < event.version) :
    ((overlap ++ new).filter fun event => row.version < event.version) = new := by
  have hpending : pending (some (row.toAccount true 0)) (overlap ++ new) = new :=
    pending_append hold hnew
  exact hpending

theorem encoding_expiring (tz : Timestamptz) (clock : OffsetDateTime) :
    Encoding tz clock (Expiring tz) (Encodes tz) (fun env _ row events => EndsInForce env.now row events)
      (fun before env => before.now ≤ env.now) where
  version := Encodes.version
  keep := by
    rintro before env account row (hrow | ⟨hlapsed, hrow⟩) hle
    · exact Or.inl hrow
    · exact Or.inr ⟨hlapsed.mono hle, hrow⟩
  fresh := by
    intro env events account hadmits hfold
    obtain ⟨refolded, hrefolded, hrow⟩ := foldEvents_same tz env.now
      (fun event hevent => (hadmits.1 event hevent).1) .none hfold
    exact ⟨refolded, hrefolded, Or.inl hrow⟩
  step := by
    intro before env id account row applied overlap new last hencodes hle hoverlap hne hadmits hguard
      hfold hlast hold hnew
    have hdeleted : account.deletedAt = none := hadmits.front.deletedAt And.left hfold
    have hvisible := hencodes.deletedAt hdeleted
    have hevents : ∀ event ∈ new, event.envelope.event ≠ .Deactivated := fun event hevent =>
      (hadmits.1 event (List.mem_append_right _ hevent)).1
    rcases hencodes.decoded hle (wholeExpiry_fold hadmits.front hfold) with
      halike | ⟨hlapsed, hforce, halike⟩
    · obtain ⟨refolded, hrefolded, hrow⟩ := foldEvents_same tz env.now hevents (.some halike) hlast
      exact ⟨_, updateRow_visible hvisible hold hnew hne hrefolded, Or.inl hrow⟩
    · have hfirst : firstModeration new ≠ some .Unsuspended := by
        have := hguard row rfl hforce
        rwa [filter_newer hold hnew] at this
      obtain ⟨other, hother, hresult⟩ := foldEvents_unsuspended hlapsed.isSuspended_eq hdeleted hevents
        hfirst hlast
      obtain ⟨refolded, hrefolded, hrow⟩ := foldEvents_same tz env.now hevents (.some halike) hother
      refine ⟨_, updateRow_visible hvisible hold hnew hne hrefolded, ?_⟩
      rcases hresult with rfl | ⟨hstatus, rfl⟩
      · exact Or.inl hrow
      · exact Or.inr ⟨hstatus ▸ hlapsed, hrow⟩

/-! ### Runs -/

/-- The clock does not go back, and no end of a suspension is the first moderation event newer than a
row whose suspension columns are not in force. -/
def Timely (s : State) : Action → Prop
  | .reveal _ => True
  | .poll env => (∀ before ∈ s.last, before.now ≤ env.now) ∧
      ∀ row ∈ s.db.accounts.rows, row.suspensionInForce env.now = false →
        firstModeration ((unread s.db row.id).filter fun event => row.version < event.version) ≠
          some .Unsuspended

instance (s : State) (action : Action) : Decidable (Timely s action) :=
  match action with
  | .reveal _ => isTrue trivial
  | .poll _ => inferInstanceAs (Decidable (_ ∧ _))

theorem Timely.guard {s : State} {env : PollEnv} (h : Timely s (.poll env)) (id : AccountId) :
    EndsInForce env.now (s.db.accounts.get id) (unread s.db id) := by
  intro stored hstored
  obtain ⟨hmem, rfl⟩ := Table.get_eq_some_iff.mp hstored
  exact h.2 stored hmem

/-- The row has the account's version and tells, at the clock, whether it is banned or suspended. -/
def Agrees (now : OffsetDateTime) (account : Account) (row : AccountRow) : Prop :=
  row.version = account.version ∧ row.bannedAt.isSome = account.status.isBanned ∧
    row.suspensionInForce now = account.status.suspendedAt now

theorem bannedAt_ofAccount (tz : Timestamptz) (account : Account) :
    (AccountRow.ofAccount tz account).bannedAt.isSome = account.status.isBanned := by
  unfold AccountRow.ofAccount
  cases account.status <;> rfl

theorem Encodes.agrees {env : PollEnv} (h : Encodes tz env account row)
    (hwhole : WholeExpiry tz account.status) : Agrees env.now account row := by
  refine ⟨h.version, ?_⟩
  rcases h with rfl | ⟨hlapsed, rfl⟩
  · exact ⟨bannedAt_ofAccount tz account, suspensionInForce_ofAccount hwhole⟩
  · refine ⟨?_, ?_⟩
    · obtain ⟨reason, suspendedAt, expiresAt, hstatus, _⟩ := hlapsed
      rw [hstatus]
      rfl
    · rw [hlapsed.suspendedAt_eq]
      rfl

/-- In every run whose clock does not go back and in which every end of a suspension is read while the
row still shows that suspension, once nothing is above the stored position every row has the version
of its account's last event and the moderation status of the fold at the clock of the last poll. -/
theorem account_projection_survives_expiry (tz : Timestamptz) (authAccounts : List AuthAccountId)
    (whole : List (SeqEvent AccountEvent)) (clock : OffsetDateTime)
    (hwhole : Projection.Ordered SeqEvent.id SeqEvent.seq SeqEvent.version whole)
    (hpositive : ∀ event ∈ whole, 0 < event.seq)
    (hexpiring : ∀ event ∈ whole, Expiring tz event.envelope.event)
    (hfolds : ∀ id, ∃ entity, Account.fold clock (streamOf whole id) = .ok entity)
    (actions : List Action)
    (hallowed : Runs.Along (step tz) (InOrder tz whole) (start authAccounts) actions)
    (htimely : Runs.Along (step tz) Timely (start authAccounts) actions) (env : PollEnv) :
    let s := Runs.run (step tz) (start authAccounts) actions
    s.last = some env → Drained s.db → ∀ id, ∃ entity,
      Account.fold clock (streamOf s.db.accountEvents id) = .ok entity ∧
      Option.Rel (Agrees env.now) entity (s.db.accounts.get id) ∧
      (s.db.accounts.get id).map AccountRow.version =
        (streamOf s.db.accountEvents id).getLast?.map EventEnvelope.version := by
  intro s hlast hdrained id
  have hadmits := admits_stream hexpiring hfolds
  have hfollows : Follows (Represents (Encodes tz) clock) whole 0 s := by
    refine (hallowed.and htimely).invariant ?_ (follows_start authAccounts fun _ =>
      ⟨none, rfl, .none⟩)
    intro s action h hstep
    cases action with
    | reveal event => exact h.append hwhole hpositive hstep.1
    | poll env =>
        exact Follows.poll (fun last hlast => (h last hlast).mono (Int.natCast_nonneg _))
          (encoding_expiring tz clock).correct hadmits Admits.front hstep.1 (le_refl env.now)
          hstep.2.1 (fun id _ => hstep.2.guard id)
  obtain ⟨entity, hentity, hrow⟩ := hfollows.drained env hdrained id
  have hvisible : Admits (Expiring tz) clock
      (Projection.stream SeqEvent.id SeqEvent.version s.db.accountEvents id) := by
    obtain ⟨rest, hrest⟩ := (hfollows.tracks env).visible id
    exact Admits.front (hrest ▸ hadmits id)
  rw [hlast, Option.getD_some] at hrow
  refine ⟨entity, hentity, ?_⟩
  rw [streamOf, ← Account.fold_version hentity]
  generalize s.db.accounts.get id = stored at hrow ⊢
  cases hrow with
  | none => exact ⟨.none, rfl⟩
  | some hencodes =>
      exact ⟨.some (hencodes.agrees (wholeExpiry_fold hvisible hentity)),
        congrArg some hencodes.version⟩

def unsuspendedAlice : List (SeqEvent AccountEvent) :=
  [⟨1, ⟨7, .Created "alice" false "alice-nanoid" 3, 20⟩⟩,
    ⟨2, ⟨7, .Suspended "spam" 1000 (some 5000), 21⟩⟩, ⟨3, ⟨7, .Unsuspended, 22⟩⟩]

/-- The end of the suspension is read at the given clock. -/
def unsuspendedAliceRun (now : OffsetDateTime) : List Action :=
  [.reveal ⟨1, ⟨7, .Created "alice" false "alice-nanoid" 3, 20⟩⟩,
    .reveal ⟨2, ⟨7, .Suspended "spam" 1000 (some 5000), 21⟩⟩, .poll (Coverage.plainEnv 2000),
    .reveal ⟨3, ⟨7, .Unsuspended, 22⟩⟩, .poll (Coverage.plainEnv now)]

theorem expiring_unsuspendedAlice :
    ∀ event ∈ unsuspendedAlice, Expiring .microseconds event.envelope.event := by
  intro event hevent
  simp only [unsuspendedAlice, List.mem_cons, List.not_mem_nil, or_false] at hevent
  rcases hevent with rfl | rfl | rfl
  · exact ⟨by simp, fun status hsets => hsets.elim⟩
  · refine ⟨by simp, ?_⟩
    rintro status rfl reason suspendedAt expiresAt hstatus
    cases hstatus
    rfl
  · exact ⟨by simp, fun status hsets => hsets.elim⟩

theorem folds_unsuspendedAlice (id : AccountId) :
    ∃ entity, Account.fold 0 (streamOf unsuspendedAlice id) = .ok entity := by
  by_cases halice : id = 7
  · subst halice
    exact ⟨_, rfl⟩
  · refine ⟨none, ?_⟩
    have hnone : streamOf unsuspendedAlice id = [] := by
      simp [streamOf, Projection.stream, unsuspendedAlice, SeqEvent.id, Ne.symm halice]
    rw [hnone]
    rfl

/-- While the suspension is in force its end arrives. -/
theorem account_projection_survives_unsuspendedAlice :
    let s := Runs.run (step .microseconds) (start [3]) (unsuspendedAliceRun 4000)
    Drained s.db ∧ (s.db.accounts.get 7).map AccountRow.version =
      (streamOf s.db.accountEvents 7).getLast?.map EventEnvelope.version := by
  have hdrained : Drained (Runs.run (step .microseconds) (start [3]) (unsuspendedAliceRun 4000)).db := by
    decide +kernel
  obtain ⟨_, _, _, hversion⟩ := account_projection_survives_expiry .microseconds [3] unsuspendedAlice 0
    ⟨by decide, by decide⟩ (by decide) expiring_unsuspendedAlice folds_unsuspendedAlice
    (unsuspendedAliceRun 4000) (by decide +kernel) (by decide +kernel) (Coverage.plainEnv 4000) rfl
    hdrained 7
  exact ⟨hdrained, hversion⟩

/-- Once the suspension is over its end is read and lost: the row keeps the version of the suspension,
with nothing left to read. -/
theorem lapsed_row_misses_unsuspension :
    let s := Runs.run (step .microseconds) (start [3]) (unsuspendedAliceRun 10000)
    Projection.Ordered SeqEvent.id SeqEvent.seq SeqEvent.version unsuspendedAlice ∧
      (∀ event ∈ unsuspendedAlice, Expiring .microseconds event.envelope.event) ∧
      (∀ id, ∃ entity, Account.fold 0 (streamOf unsuspendedAlice id) = .ok entity) ∧
      Runs.Along (step .microseconds) (InOrder .microseconds unsuspendedAlice) (start [3])
        (unsuspendedAliceRun 10000) ∧
      s.db.position .account = 3 ∧ Drained s.db ∧
      (streamOf s.db.accountEvents 7).getLast?.map EventEnvelope.version = some 22 ∧
      (s.db.accounts.get 7).map AccountRow.version = some 21 := by
  exact ⟨⟨by decide, by decide⟩, expiring_unsuspendedAlice, folds_unsuspendedAlice,
    by decide +kernel, by decide +kernel, by decide +kernel, by decide +kernel, by decide +kernel⟩

end Expiry

end Emumet

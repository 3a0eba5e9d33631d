import Emumet.DriverVisibility
import Emumet.ServiceStreams

/-! Edits of a restricted account. The transaction of an edit loads the account from its events but does
not look at its restrictions. What stops an edit is the last query of the transaction, which finds the
account only if its row is visible: the row the edit has written itself if it changes the bot flag, and
otherwise the row as the projector has left it. -/

namespace Emumet

/-- Deactivated, banned or under a suspension that has not expired. -/
def Account.isRestricted (now : OffsetDateTime) (account : Account) : Bool :=
  account.deletedAt.isSome ||
    match account.status with
    | .Active => false
    | .Suspended _ _ expiresAt => expiresAt.all (now < ·)
    | .Banned .. => true

namespace Moderation

variable {tz : Timestamptz} {call : Call} {id : AccountId} {dto : UpdateAccountDto}
  {db written seen : Db} {loaded : Rehydrated Account}

/-! ### The transaction and its last query -/

/-- What the transaction of an edit does before its last query: the profile and the fields read on the
way, whether the images changed, and the database with its writes. -/
def detailWrites (tz : Timestamptz) (call : Call) (accountId : AccountId) (dto : UpdateAccountDto)
    (db : Db) : Result ((Profile × List Metadata × Bool) × Db) := do
  let db ← updateIsBot tz call accountId dto.isBot db
  match ProfileReadModel.findByAccountId db accountId with
  | none => reject .NotFound ""
  | some profile =>
      let icon ← resolveFieldActionImageId db dto.iconUrl
      let banner ← resolveFieldActionImageId db dto.bannerUrl
      let mediaChanged := icon.applyTo profile.icon ≠ profile.icon ∨
        banner.applyTo profile.banner ≠ profile.banner
      let db ← updateProfile call profile.id dto.displayName dto.summary icon banner db
      let existing := (MetadataReadModel.findByAccountId db accountId).insertionSort
        fun a b => a.id ≤ b.id
      let db ← updateFields call accountId existing dto.fields db
      pure ((profile, existing, decide mediaChanged), db)

/-- The transaction makes its writes and then answers from what its last query sees. -/
theorem updateDetailTransaction_eq (tz : Timestamptz) (call : Call) (accountId : AccountId)
    (dto : UpdateAccountDto) (db : Db) :
    updateDetailTransaction tz call accountId dto db =
      detailWrites tz call accountId dto db >>= fun ((profile, existing, mediaChanged), db) =>
        accountDetail call accountId dto profile existing db >>= fun answer =>
          pure ((answer, mediaChanged), db) := by
  simp only [updateDetailTransaction, detailWrites, bind_assoc]
  congr 1
  funext afterBot
  cases ProfileReadModel.findByAccountId afterBot accountId with
  | none => rfl
  | some profile => simp only [bind_assoc, pure_bind]

/-- The edit changes the bot flag, and so writes the row of the account itself. -/
def ChangesBot (dto : UpdateAccountDto) (account : Account) : Prop :=
  applyIsBot account.isBot dto.isBot ≠ account.isBot

instance (dto : UpdateAccountDto) (account : Account) : Decidable (ChangesBot dto account) :=
  inferInstanceAs (Decidable (_ ≠ _))

theorem loaded_id (hload : AccountRepository.load db call.now id = .ok loaded) :
    loaded.aggregate.id = id :=
  Account.foldEvents_id (fun _ h => by cases h)
    (fun _ hevent => EventStore.id_of_mem_findById hevent) (AccountRepository.load_eq_ok.mp hload).1

/-- An edit that changes the flag writes the row of the loaded account with all its restrictions. -/
theorem updateIsBot_row {after : Db} (hload : AccountRepository.load db call.now id = .ok loaded)
    (h : updateIsBot tz call id dto.isBot db = .ok after) (hchanges : ChangesBot dto loaded.aggregate) :
    ∃ row, after.accounts.get id = some row ∧
      row.visible call.now = (AccountRow.ofAccount tz loaded.aggregate).visible call.now := by
  have hid := loaded_id hload
  simp only [updateIsBot, hload, Fallible.bind_eq_ok] at h
  obtain ⟨_, hloaded, h⟩ := h
  cases hloaded
  rw [if_neg hchanges] at h
  simp only [Fallible.bind_eq_ok] at h
  obtain ⟨⟨envelope, saved⟩, hsave, applied, happlied, hupdate⟩ := h
  obtain ⟨_, rfl, rfl⟩ := AccountRepository.save_ok hsave
  cases happlied
  simp only [AccountReadModel.update, uniqueViolation, reject] at hupdate
  split at hupdate
  · cases hupdate
  · split_ifs at hupdate
    cases hupdate
    refine ⟨_, Table.get_eq_some_iff.mpr ⟨Table.mem_put.mpr (.inl rfl), ?_⟩, ?_⟩
    · simpa using hid
    · exact AccountRow.visible_ofAccount_congr tz call.now rfl rfl

/-- Up to the flag, the writes of an edit leave the accounts alone. -/
theorem detailWrites_ok {profile : Profile} {existing : List Metadata} {mediaChanged : Bool}
    (h : detailWrites tz call id dto db = .ok ((profile, existing, mediaChanged), written)) :
    ∃ afterBot, updateIsBot tz call id dto.isBot db = .ok afterBot ∧
      written.accounts = afterBot.accounts := by
  simp only [detailWrites, Fallible.bind_eq_ok] at h
  obtain ⟨afterBot, hbot, h⟩ := h
  refine ⟨afterBot, hbot, ?_⟩
  split at h
  · cases h
  · simp only [Fallible.bind_eq_ok] at h
    obtain ⟨icon, _, banner, _, afterProfile, hprofile, afterFields, hfields, hresult⟩ := h
    cases hresult
    exact ((Streams.sameAccounts_updateProfile hprofile).trans
      (Streams.sameAccounts_updateFields hfields)).rows

/-- The answer is composed only for an account whose row is visible. -/
theorem visible_of_accountDetail {profile : Profile} {existing : List Metadata}
    {answer : AccountDetailDto} (h : accountDetail call id dto profile existing seen = .ok answer) :
    ∃ row, seen.accounts.get id = some row ∧ row.visible call.now = true := by
  rw [accountDetail] at h
  cases hfound : AccountReadModel.findById seen call.now id with
  | none =>
      rw [hfound] at h
      cases h
  | some account =>
      rw [AccountReadModel.findById, AccountReadModel.findVisible, Option.map_eq_some_iff] at hfound
      obtain ⟨row, hrow, _⟩ := hfound
      have hkeep := List.find?_some hrow
      rw [Bool.and_eq_true, decide_eq_true_eq] at hkeep
      exact ⟨row, Table.get_eq_some_iff.mpr ⟨List.mem_of_find?_eq_some hrow, hkeep.1⟩, hkeep.2⟩

/-! ### Edits of restricted accounts -/

/-- The row of the account the last query reads: the transaction's own if it has written one, which
stays locked until it commits, and otherwise the row others have committed. -/
def lastRow (tz : Timestamptz) (dto : UpdateAccountDto) (account : Account) (seen : Db) :
    Option AccountRow :=
  if ChangesBot dto account then some (.ofAccount tz account) else seen.accounts.get account.id

/-- A restriction of the loaded account is in the row the last query reads. -/
def ShowsRestriction (tz : Timestamptz) (now : OffsetDateTime) (dto : UpdateAccountDto)
    (account : Account) (seen : Db) : Prop :=
  account.isRestricted now = true → ∀ row ∈ lastRow tz dto account seen, row.visible now = false

/-- An edit that commits was made on an account without restrictions exactly when the row its last
query reads shows every restriction of the account it has loaded. -/
theorem committed_edit_unrestricted_iff (tz : Timestamptz) (call : Call) (id : AccountId)
    (dto : UpdateAccountDto) (db written seen : Db) (loaded : Rehydrated Account)
    (hload : AccountRepository.load db call.now id = .ok loaded) (profile : Profile)
    (existing : List Metadata) (mediaChanged : Bool)
    (hwrites : detailWrites tz call id dto db = .ok ((profile, existing, mediaChanged), written))
    (hlock : ChangesBot dto loaded.aggregate → seen.accounts.get id = written.accounts.get id)
    (answer : AccountDetailDto)
    (hanswer : accountDetail call id dto profile existing seen = .ok answer) :
    loaded.aggregate.isRestricted call.now = false ↔
      ShowsRestriction tz call.now dto loaded.aggregate seen := by
  constructor
  · intro hfree hrestricted
    rw [hfree] at hrestricted
    cases hrestricted
  · intro hshows
    by_contra hrestricted
    rw [Bool.not_eq_false] at hrestricted
    have hhidden := hshows hrestricted
    obtain ⟨row, hrow, hvisible⟩ := visible_of_accountDetail hanswer
    rw [lastRow] at hhidden
    split_ifs at hhidden with hchanges
    · -- its own row carries the restriction
      obtain ⟨afterBot, hbot, hsame⟩ := detailWrites_ok hwrites
      obtain ⟨own, hown, hsameVisible⟩ := updateIsBot_row hload hbot hchanges
      rw [hlock hchanges, hsame, hown, Option.some.injEq] at hrow
      rw [← hrow, hsameVisible, hhidden _ rfl] at hvisible
      cases hvisible
    · rw [loaded_id hload, hrow] at hhidden
      rw [hhidden row rfl] at hvisible
      cases hvisible

/-- A new display name for Alice, and nothing else. -/
def rename : UpdateAccountDto where
  accountNanoid := "alice-nanoid"
  isBot := .Unchanged
  displayName := .Set "Alice"
  summary := .Unchanged
  iconUrl := .Unchanged
  bannerUrl := .Unchanged
  fields := none

/-- The account as it was created. -/
def createdAlice : Db := Streams.step .microseconds Streams.registered Streams.createAlice

/-- An edit of an account without restrictions that runs alone. -/
theorem committed_edit_unrestricted_rename :
    ∃ loaded written, AccountRepository.load createdAlice 2 7 = .ok loaded ∧
      ShowsRestriction .microseconds 2 rename loaded.aggregate written := by
  have hcommits : (updateDetailTransaction .microseconds (Streams.permitted 2 (.ok ())) 7 rename
      createdAlice).toBool = true := by
    decide +kernel
  cases hok : updateDetailTransaction .microseconds (Streams.permitted 2 (.ok ())) 7 rename
      createdAlice with
  | error report =>
      rw [hok] at hcommits
      cases hcommits
  | ok result =>
      simp only [updateDetailTransaction_eq, Fallible.bind_eq_ok] at hok
      obtain ⟨⟨⟨profile, existing, mediaChanged⟩, written⟩, hwrites, answer, hanswer, _⟩ := hok
      refine ⟨_, written, rfl, (committed_edit_unrestricted_iff .microseconds
        (Streams.permitted 2 (.ok ())) 7 rename createdAlice written written _ rfl profile existing
        mediaChanged hwrites (fun _ => rfl) answer hanswer).mp ?_⟩
      decide +kernel

/-- The account is suspended for good, and the projector has not run since. -/
def suspendedRun : List Streams.Action :=
  [Streams.createAlice,
    .suspendAccount (Streams.permitted 2 (.ok ())) "alice-nanoid" "spam" none]

/-- The suspended account is renamed. -/
theorem suspended_account_is_edited :
    let before := Runs.run (Streams.step .microseconds) Streams.registered suspendedRun
    let after := Streams.step .microseconds before
      (.updateAccountDetail (Streams.permitted 3 (.ok ())) rename)
    (AccountRepository.load before 3 7).toOption.map (fun loaded => loaded.aggregate.status) =
        some (.Suspended "spam" 2 none) ∧
      before.profileEvents.length = 1 ∧ after.profileEvents.length = 2 ∧
      (after.profiles.get 8).map Profile.displayName = some (some "Alice") := by
  decide +kernel

end Moderation

end Emumet

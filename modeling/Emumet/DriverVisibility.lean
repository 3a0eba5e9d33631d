import Emumet.DriverAccountRow
import Emumet.DriverRepository

/-! What the lookups of an account find. The filtered ones hide a restricted row but give back the
status its columns hold, the unfiltered ones drop a suspension that is over, and an aggregate loaded
from its stream knows no clock. The three notions of an active account differ for a suspension that is
over. -/

namespace Emumet

/-! ### The names and nanoids of accounts are unique -/

/-- The `UNIQUE` constraints on the names and on the nanoids of accounts. -/
def Db.AccountsUnique (db : Db) : Prop := ∀ row ∈ db.accounts.rows, db.accountConflict row = false

instance (db : Db) : Decidable db.AccountsUnique :=
  inferInstanceAs (Decidable (∀ row ∈ db.accounts.rows, db.accountConflict row = false))

namespace Db.AccountsUnique

variable {tz : Timestamptz} {db after : Db} {account : Account} {row other : AccountRow}

theorem accountConflict_eq_false :
    db.accountConflict row = false ↔ ∀ other ∈ db.accounts.rows, other.id ≠ row.id →
      other.name ≠ row.name ∧ other.nanoid ≠ row.nanoid := by
  simp [Db.accountConflict]

theorem eq_of_name_eq (hunique : db.AccountsUnique) (hrow : row ∈ db.accounts.rows)
    (hother : other ∈ db.accounts.rows) (hname : other.name = row.name) : other = row := by
  by_contra hne
  refine (accountConflict_eq_false.mp (hunique row hrow) other hother ?_).1 hname
  exact fun hid => hne (db.accounts.eq_of_key_eq hother hrow hid)

theorem eq_of_nanoid_eq (hunique : db.AccountsUnique) (hrow : row ∈ db.accounts.rows)
    (hother : other ∈ db.accounts.rows) (hnanoid : other.nanoid = row.nanoid) : other = row := by
  by_contra hne
  refine (accountConflict_eq_false.mp (hunique row hrow) other hother ?_).2 hnanoid
  exact fun hid => hne (db.accounts.eq_of_key_eq hother hrow hid)

/-- A row without a conflict keeps the constraints. -/
theorem put (hunique : db.AccountsUnique) (hrow : db.accountConflict row = false) :
    { db with accounts := db.accounts.put row : Db }.AccountsUnique := by
  have hfree := accountConflict_eq_false.mp hrow
  intro kept hkept
  rw [accountConflict_eq_false]
  intro other hother hid
  rcases Table.mem_put.mp hkept with rfl | ⟨hold, _⟩
  · rcases Table.mem_put.mp hother with rfl | ⟨holdOther, _⟩
    · exact absurd rfl hid
    · exact hfree other holdOther hid
  · rcases Table.mem_put.mp hother with rfl | ⟨holdOther, _⟩
    · have hapart := hfree kept hold (Ne.symm hid)
      exact ⟨Ne.symm hapart.1, Ne.symm hapart.2⟩
    · exact accountConflict_eq_false.mp (hunique kept hold) other holdOther hid

theorem create (hunique : db.AccountsUnique)
    (h : AccountReadModel.create tz db account = .ok after) : after.AccountsUnique := by
  simp only [AccountReadModel.create, uniqueViolation, reject] at h
  split_ifs at h with hconflict
  cases h
  simp only [Bool.or_eq_true, not_or, Bool.not_eq_true] at hconflict
  exact hunique.put hconflict.2

theorem update (hunique : db.AccountsUnique)
    (h : AccountReadModel.update tz db account = .ok after) : after.AccountsUnique := by
  simp only [AccountReadModel.update, uniqueViolation, reject] at h
  split at h
  · cases h
  · split_ifs at h with hconflict
    cases h
    exact hunique.put (Bool.eq_false_iff.mpr hconflict)

theorem upsert (hunique : db.AccountsUnique)
    (h : AccountProjectionWriter.upsert tz db account = .ok after) : after.AccountsUnique := by
  simp only [AccountProjectionWriter.upsert, uniqueViolation, reject] at h
  split_ifs at h with hnewer hconflict
  · cases h
    exact hunique.put (Bool.eq_false_iff.mpr hconflict)
  · cases h
    exact hunique

end Db.AccountsUnique

/-! ### Lookups -/

namespace AccountStatus

/-- Suspended until an instant the clock has reached, as the column keeps it. -/
def isOver (tz : Timestamptz) (now : OffsetDateTime) : AccountStatus → Bool
  | .Suspended _ _ (some expiresAt) => tz.store expiresAt ≤ now
  | _ => false

theorem isOver_of_isActive {tz : Timestamptz} {now : OffsetDateTime} {status : AccountStatus}
    (h : status.isActive = true) : status.isOver tz now = false := by
  cases status with
  | Active => rfl
  | Suspended reason suspendedAt expiresAt => cases h
  | Banned reason bannedAt => cases h

end AccountStatus

namespace AccountRow

/-- What a filtered lookup of this row answers. -/
def filteredAnswer (row : AccountRow) (now : OffsetDateTime) : Option Account :=
  ((some row).filter (·.visible now)).map (·.toAccount false now)

/-- What an unfiltered lookup of this row answers. -/
def unfilteredAnswer (row : AccountRow) (now : OffsetDateTime) : Option Account :=
  ((some row).filter (·.deletedAt.isNone)).map (·.toAccount true now)

variable (tz : Timestamptz) (now : OffsetDateTime) {account : Account}

/-- The `WHERE` clause passes an active account and one whose suspension is over. -/
theorem visible_ofAccount (hlive : account.deletedAt = none) :
    (ofAccount tz account).visible now =
      (account.status.isActive || account.status.isOver tz now) := by
  obtain ⟨id, name, isBot, status, deletedAt, version, nanoid, createdAt⟩ := account
  subst hlive
  cases status with
  | Active => rfl
  | Banned reason bannedAt => rfl
  | Suspended reason suspendedAt expiresAt => cases expiresAt <;> rfl

/-- Whether a row is visible depends on the status and the deletion of the account only. -/
theorem visible_ofAccount_congr {account other : Account} (hstatus : account.status = other.status)
    (hdeleted : account.deletedAt = other.deletedAt) :
    (ofAccount tz account).visible now = (ofAccount tz other).visible now := by
  obtain ⟨id, name, isBot, status, deletedAt, version, nanoid, createdAt⟩ := account
  subst hstatus hdeleted
  cases hother : other.status <;> simp [visible, ofAccount, hother]

/-- Decoded without the clock, a row is active exactly when the account is. -/
theorem status_false_ofAccount (account : Account) :
    (ofAccount tz account).status false now = .Active ↔ account.status.isActive = true := by
  obtain ⟨id, name, isBot, status, deletedAt, version, nanoid, createdAt⟩ := account
  cases status <;> simp [ofAccount, status, AccountStatus.isActive]

/-- Decoded with the clock, a suspension that is over counts as none. -/
theorem status_true_ofAccount (account : Account) :
    (ofAccount tz account).status true now = .Active ↔
      account.status.isActive = true ∨ account.status.isOver tz now = true := by
  obtain ⟨id, name, isBot, status, deletedAt, version, nanoid, createdAt⟩ := account
  cases status with
  | Active => simp [ofAccount, status, AccountStatus.isActive]
  | Banned reason bannedAt =>
      simp [ofAccount, status, AccountStatus.isActive, AccountStatus.isOver]
  | Suspended reason suspendedAt expiresAt =>
      cases expiresAt with
      | none => simp [ofAccount, status, AccountStatus.isActive, AccountStatus.isOver]
      | some expiresAt =>
          by_cases hover : tz.store expiresAt ≤ now <;>
            simp [ofAccount, status, AccountStatus.isActive, AccountStatus.isOver, hover]

end AccountRow

namespace AccountReadModel

variable {db : Db} {row : AccountRow} (now : OffsetDateTime)

/-- A filtered lookup by a column only this row matches. -/
theorem findVisible_eq {matching : AccountRow → Bool} (hrow : row ∈ db.accounts.rows)
    (hmatch : matching row = true)
    (honly : ∀ other ∈ db.accounts.rows, matching other = true → other = row) :
    findVisible db now matching = row.filteredAnswer now := by
  rw [findVisible, Table.find_of_only hrow hmatch honly, AccountRow.filteredAnswer]

/-- What a filtered lookup finds is read from a visible row. -/
theorem findVisible_some {now : OffsetDateTime} {matching : AccountRow → Bool} {account : Account}
    (h : findVisible db now matching = some account) :
    ∃ row ∈ db.accounts.rows, matching row = true ∧ row.visible now = true ∧
      row.toAccount false now = account := by
  obtain ⟨row, hrow, haccount⟩ := Option.map_eq_some_iff.mp h
  have hmatch := List.find?_some hrow
  rw [Bool.and_eq_true] at hmatch
  exact ⟨row, List.mem_of_find?_eq_some hrow, hmatch.1, hmatch.2, haccount⟩

theorem findById_some {now : OffsetDateTime} {id : AccountId} {account : Account}
    (h : findById db now id = some account) :
    ∃ row ∈ db.accounts.rows, row.id = id ∧ row.visible now = true ∧
      row.toAccount false now = account := by
  simpa only [decide_eq_true_eq] using findVisible_some h

theorem findByNanoid_some {now : OffsetDateTime} {nanoid : Nanoid} {account : Account}
    (h : findByNanoid db now nanoid = some account) :
    ∃ row ∈ db.accounts.rows, row.nanoid = nanoid ∧ row.visible now = true ∧
      row.toAccount false now = account := by
  simpa only [decide_eq_true_eq] using findVisible_some h

theorem findById_eq (hrow : row ∈ db.accounts.rows) :
    findById db now row.id = row.filteredAnswer now := by
  refine findVisible_eq now hrow (by simp) fun other hother hid => ?_
  exact db.accounts.eq_of_key_eq hother hrow (by simpa using hid)

theorem findByName_eq (hunique : db.AccountsUnique) (hrow : row ∈ db.accounts.rows) :
    findByName db now row.name = row.filteredAnswer now := by
  refine findVisible_eq now hrow (by simp) fun other hother hname => ?_
  exact hunique.eq_of_name_eq hrow hother (by simpa using hname)

theorem findByNanoid_eq (hunique : db.AccountsUnique) (hrow : row ∈ db.accounts.rows) :
    findByNanoid db now row.nanoid = row.filteredAnswer now := by
  refine findVisible_eq now hrow (by simp) fun other hother hnanoid => ?_
  exact hunique.eq_of_nanoid_eq hrow hother (by simpa using hnanoid)

theorem findByIdUnfiltered_eq (hrow : row ∈ db.accounts.rows) :
    findByIdUnfiltered db now row.id = row.unfilteredAnswer now := by
  rw [findByIdUnfiltered, Table.get_eq_some_iff.mpr ⟨hrow, rfl⟩, AccountRow.unfilteredAnswer]

theorem findByNanoidUnfiltered_eq (hunique : db.AccountsUnique) (hrow : row ∈ db.accounts.rows) :
    findByNanoidUnfiltered db now row.nanoid = row.unfilteredAnswer now := by
  rw [findByNanoidUnfiltered, Table.find_of_only hrow (by simp), AccountRow.unfilteredAnswer]
  exact fun other hother hnanoid => hunique.eq_of_nanoid_eq hrow hother (by simpa using hnanoid)

end AccountReadModel

/-! ### Whether an account is active -/

/-- A lookup returns the account. -/
def Returns (found : Option Account) (id : AccountId) : Prop := ∃ account ∈ found, account.id = id

/-- A lookup returns the account, and with no restriction. -/
def ReturnsActive (found : Option Account) (id : AccountId) : Prop :=
  ∃ account ∈ found, account.id = id ∧ account.status = .Active

instance (found : Option Account) (id : AccountId) : Decidable (Returns found id) :=
  inferInstanceAs (Decidable (∃ account ∈ found, account.id = id))

instance (found : Option Account) (id : AccountId) : Decidable (ReturnsActive found id) :=
  inferInstanceAs (Decidable (∃ account ∈ found, account.id = id ∧ account.status = .Active))

open AccountReadModel in
/-- What the parts of the program say of an account at a reading of the clock. The last one is the
aggregate loaded from the stream. -/
def activeAnswers (db : Db) (now : OffsetDateTime) (account : Account) : List Prop :=
  [Returns (findById db now account.id) account.id,
    Returns (findByName db now account.name) account.id,
    Returns (findByNanoid db now account.nanoid) account.id,
    ReturnsActive (findById db now account.id) account.id,
    ReturnsActive (findByName db now account.name) account.id,
    ReturnsActive (findByNanoid db now account.nanoid) account.id,
    ReturnsActive (findByIdUnfiltered db now account.id) account.id,
    ReturnsActive (findByNanoidUnfiltered db now account.nanoid) account.id,
    ∃ loaded, AccountRepository.load db now account.id = .ok loaded ∧
      loaded.aggregate.status.isActive = true]

section Answers

variable {tz : Timestamptz} {account : Account} (now : OffsetDateTime)

theorem returns_filteredAnswer (hlive : account.deletedAt = none) :
    Returns ((AccountRow.ofAccount tz account).filteredAnswer now) account.id ↔
      account.status.isActive = true ∨ account.status.isOver tz now = true := by
  rw [← Bool.or_eq_true, ← AccountRow.visible_ofAccount tz now hlive]
  simp [Returns, AccountRow.filteredAnswer, Option.filter_some, AccountRow.toAccount]

theorem returnsActive_filteredAnswer (hlive : account.deletedAt = none) :
    ReturnsActive ((AccountRow.ofAccount tz account).filteredAnswer now) account.id ↔
      account.status.isActive = true := by
  have hstatus := AccountRow.status_false_ofAccount tz now account
  have hvisible := AccountRow.visible_ofAccount tz now hlive
  cases hactive : account.status.isActive <;>
    simp [ReturnsActive, AccountRow.filteredAnswer, Option.filter_some, AccountRow.toAccount, hstatus,
      hvisible, hactive]

theorem returnsActive_unfilteredAnswer (hlive : account.deletedAt = none) :
    ReturnsActive ((AccountRow.ofAccount tz account).unfilteredAnswer now) account.id ↔
      account.status.isActive = true ∨ account.status.isOver tz now = true := by
  rw [← AccountRow.status_true_ofAccount tz now]
  simp [ReturnsActive, AccountRow.unfilteredAnswer, Option.filter_some, AccountRow.toAccount, hlive]

end Answers

/-- The lookups and the aggregate agree on whether an account is active exactly when the account is not
under a suspension that is over. -/
theorem lookups_agree_on_active_iff (tz : Timestamptz) (db : Db) (now : OffsetDateTime) (id : AccountId)
    (loaded : Rehydrated Account) (hload : AccountRepository.load db now id = .ok loaded)
    (hrow : db.accounts.get id = some (.ofAccount tz loaded.aggregate))
    (hlive : loaded.aggregate.deletedAt = none) (hunique : db.AccountsUnique) :
    (activeAnswers db now loaded.aggregate).TFAE ↔ loaded.aggregate.status.isOver tz now = false := by
  obtain ⟨hmem, hkey⟩ := Table.get_eq_some_iff.mp hrow
  rw [AccountRow.ofAccount_id] at hkey
  have hload : ∀ found, AccountRepository.load db now loaded.aggregate.id = .ok found ↔
      loaded = found := by
    intro found
    rw [hkey, hload, Except.ok.injEq]
  have hid := AccountReadModel.findById_eq now hmem
  have hname := AccountReadModel.findByName_eq now hunique hmem
  have hnanoid := AccountReadModel.findByNanoid_eq now hunique hmem
  have hidUnfiltered := AccountReadModel.findByIdUnfiltered_eq now hmem
  have hnanoidUnfiltered := AccountReadModel.findByNanoidUnfiltered_eq now hunique hmem
  rw [AccountRow.ofAccount_id] at hid hidUnfiltered
  rw [AccountRow.ofAccount_name] at hname
  rw [AccountRow.ofAccount_nanoid] at hnanoid hnanoidUnfiltered
  simp only [activeAnswers, hid, hname, hnanoid, hidUnfiltered, hnanoidUnfiltered,
    returns_filteredAnswer now hlive, returnsActive_filteredAnswer now hlive,
    returnsActive_unfilteredAnswer now hlive, hload, exists_eq_left']
  constructor
  · intro hagree
    by_contra hover
    rw [Bool.not_eq_false] at hover
    have hactive : loaded.aggregate.status.isActive = true := (hagree.out 0 8 rfl rfl).mp (.inr hover)
    rw [AccountStatus.isOver_of_isActive hactive] at hover
    cases hover
  · intro hover
    refine List.tfae_of_forall (loaded.aggregate.status.isActive = true) _ ?_
    simp [hover]

/-- Alice, suspended until the instant 5000000. -/
def suspendedAlice : Account :=
  { id := 7, name := "alice", isBot := false, status := .Suspended "spam" 1000000 (some 5000000)
    deletedAt := none, version := 21, nanoid := "alice-nanoid", createdAt := 1767225600000000000 }

def suspendedAliceDb : Db :=
  { Db.empty with
    accountEvents :=
      [⟨2, ⟨7, .Suspended "spam" 1000000 (some 5000000), 21⟩⟩,
        ⟨1, ⟨7, .Created "alice" false "alice-nanoid" 3, 20⟩⟩]
    accounts := Table.empty.put (.ofAccount .microseconds suspendedAlice) }

theorem load_suspendedAlice (now : OffsetDateTime) :
    AccountRepository.load suspendedAliceDb now 7 = .ok ⟨suspendedAlice, 21⟩ := by
  rfl

/-- One instant before the end all parts call the account suspended. -/
theorem lookups_agree_on_suspendedAlice :
    (activeAnswers suspendedAliceDb 4999999 suspendedAlice).TFAE :=
  (lookups_agree_on_active_iff .microseconds suspendedAliceDb 4999999 7 ⟨suspendedAlice, 21⟩
    (load_suspendedAlice _) rfl rfl (by decide)).mpr (by decide)

/-- At the end of the suspension the filtered lookups find the account and call it suspended, the
unfiltered ones call it active, and the aggregate is still suspended. -/
theorem lookups_disagree_at_expiry :
    AccountRepository.load suspendedAliceDb 5000000 7 = .ok ⟨suspendedAlice, 21⟩ ∧
      suspendedAliceDb.accounts.get 7 = some (.ofAccount .microseconds suspendedAlice) ∧
      suspendedAlice.deletedAt = none ∧
      Returns (AccountReadModel.findByNanoid suspendedAliceDb 5000000 "alice-nanoid") 7 ∧
      ¬ReturnsActive (AccountReadModel.findByNanoid suspendedAliceDb 5000000 "alice-nanoid") 7 ∧
      ReturnsActive (AccountReadModel.findByNanoidUnfiltered suspendedAliceDb 5000000
        "alice-nanoid") 7 ∧
      suspendedAlice.status.isActive = false := by
  exact ⟨load_suspendedAlice _, rfl, rfl, by decide, by decide, by decide, rfl⟩

end Emumet

import Emumet.DriverFederation
import Emumet.LibProcess

/-! First and later logins. A login is resolved to an auth account by statements that commit one by one,
so logins of the same and of different identities run in between; the unique constraints of the two
tables decide which account a login gets. -/

namespace Emumet

abbrev AuthHostId := Int

structure AuthHost where
  id : AuthHostId
  url : String
  deriving DecidableEq, Repr

structure AuthAccount where
  id : AuthAccountId
  host : AuthHostId
  clientId : String
  deriving DecidableEq, Repr

/-- The columns of the unique constraint of `auth_accounts`. -/
def AuthAccount.identity (account : AuthAccount) : AuthHostId × String :=
  (account.host, account.clientId)

/-- `auth_hosts` and `auth_accounts` with their unique constraints. -/
structure AuthTables where
  hosts : Table AuthHost.id
  accounts : Table AuthAccount.id
  hosts_url : ∀ host ∈ hosts.rows, ∀ other ∈ hosts.rows, host.url = other.url → host = other
  accounts_identity : ∀ account ∈ accounts.rows, ∀ other ∈ accounts.rows,
    account.identity = other.identity → account = other

def AuthTables.empty : AuthTables where
  hosts := .empty
  accounts := .empty
  hosts_url := by simp [Table.empty]
  accounts_identity := by simp [Table.empty]

namespace AuthHostRepository

def findByUrl (tables : AuthTables) (url : String) : Option AuthHost :=
  tables.hosts.rows.find? (·.url = url)

/-- `INSERT INTO auth_hosts`. -/
def create (tables : AuthTables) (host : AuthHost) : Result Unit × AuthTables :=
  if tables.hosts.contains host.id then (uniqueViolation, tables)
  else if h : ∀ other ∈ tables.hosts.rows, other.url ≠ host.url then
    (.ok (), { tables with
      hosts := tables.hosts.put host
      hosts_url := Table.unique_put tables.hosts_url h })
  else (uniqueViolation, tables)

end AuthHostRepository

namespace AuthAccountRepository

/-- `SELECT ... WHERE host_id = $1 AND client_id = $2`. -/
def select (tables : AuthTables) (host : AuthHostId) (clientId : String) : Result AuthAccount :=
  match tables.accounts.rows.find? (·.identity = (host, clientId)) with
  | some account => .ok account
  | none => reject .Internal "no rows returned by a query that expected to return at least one row"

/-- `INSERT INTO auth_accounts ... ON CONFLICT (host_id, client_id) DO NOTHING RETURNING`. -/
def insert (tables : AuthTables) (account : AuthAccount) : Result (Option AuthAccount) × AuthTables :=
  if h : ∀ other ∈ tables.accounts.rows, other.identity ≠ account.identity then
    if tables.accounts.contains account.id then (uniqueViolation, tables)
    else if !tables.hosts.contains account.host then (foreignKeyViolation, tables)
    else
      (.ok (some account), { tables with
        accounts := tables.accounts.put account
        accounts_identity := Table.unique_put tables.accounts_identity h })
  else (.ok none, tables)

/-- `find_or_create`, with the id that is generated for a new account. -/
def findOrCreate (id : AuthAccountId) (host : AuthHostId) (clientId : String) :
    Process AuthTables (Result AuthAccount) := do
  match ← .exec fun tables => insert tables { id, host, clientId } with
  | .error report => pure (.error report)
  | .ok (some account) => pure (.ok account)
  | .ok none => .exec fun tables => (select tables host clientId, tables)

end AuthAccountRepository

structure OidcAuthInfo where
  issuer : String
  subject : String
  deriving DecidableEq, Repr

/-- A login and the ids that are generated in it. -/
structure Login extends OidcAuthInfo where
  hostId : AuthHostId
  authAccountId : AuthAccountId
  deriving DecidableEq, Repr

/-- The host of the issuer, created when there is none. -/
def findOrCreateHost (login : Login) : Process AuthTables (Result AuthHost) := do
  match ← .exec fun tables => (AuthHostRepository.findByUrl tables login.issuer, tables) with
  | some host => pure (.ok host)
  | none => do
      let host : AuthHost := { id := login.hostId, url := login.issuer }
      let created ← Process.exec fun tables => AuthHostRepository.create tables host
      pure (created.map fun _ => host)

/-- `resolve_auth_account_id`. -/
def resolveAuthAccountId (login : Login) : Process AuthTables (Result AuthAccountId) := do
  match ← findOrCreateHost login with
  | .error report => pure (.error report)
  | .ok host => do
      let account ← AuthAccountRepository.findOrCreate login.authAccountId host.id login.subject
      pure (account.map (·.id))

namespace Login

open Process

/-! ### What the statements guarantee -/

/-- Rows are only added. -/
def Grows (before after : AuthTables) : Prop :=
  (∀ host ∈ before.hosts.rows, host ∈ after.hosts.rows) ∧
    ∀ account ∈ before.accounts.rows, account ∈ after.accounts.rows

instance : IsPreorder AuthTables Grows where
  refl _ := ⟨fun _ h => h, fun _ h => h⟩
  trans _ _ _ hab hbc :=
    ⟨fun host h => hbc.1 host (hab.1 host h), fun account h => hbc.2 account (hab.2 account h)⟩

theorem create_spec (tables : AuthTables) (host : AuthHost) :
    Grows tables (AuthHostRepository.create tables host).2 ∧
      ((AuthHostRepository.create tables host).1 = .ok () →
        host ∈ (AuthHostRepository.create tables host).2.hosts.rows) := by
  unfold AuthHostRepository.create
  split_ifs with hid hurl
  · exact ⟨refl_of Grows tables, fun h => nomatch h⟩
  · refine ⟨⟨fun other hother => Table.mem_put.mpr (.inr ⟨hother, fun heq => ?_⟩), fun _ h => h⟩,
      fun _ => Table.mem_put.mpr (.inl rfl)⟩
    rw [Table.contains, ← heq, Table.get_eq_some_iff.mpr ⟨hother, rfl⟩] at hid
    exact hid rfl
  · exact ⟨refl_of Grows tables, fun h => nomatch h⟩

theorem insert_spec (tables : AuthTables) (account : AuthAccount) :
    Grows tables (AuthAccountRepository.insert tables account).2 ∧
      ∀ inserted, (AuthAccountRepository.insert tables account).1 = .ok (some inserted) →
        inserted = account ∧ account ∈ (AuthAccountRepository.insert tables account).2.accounts.rows := by
  unfold AuthAccountRepository.insert
  split_ifs with hidentity hid hhost
  · exact ⟨refl_of Grows tables, fun _ h => by cases h⟩
  · exact ⟨refl_of Grows tables, fun _ h => by cases h⟩
  · refine ⟨⟨fun _ h => h, fun other hother => Table.mem_put.mpr (.inr ⟨hother, fun heq => ?_⟩)⟩, ?_⟩
    · rw [Table.contains, ← heq, Table.get_eq_some_iff.mpr ⟨hother, rfl⟩] at hid
      exact hid rfl
    · rintro inserted ⟨⟩
      exact ⟨rfl, Table.mem_put.mpr (.inl rfl)⟩
  · exact ⟨refl_of Grows tables, fun _ h => by cases h⟩

theorem select_ok {tables : AuthTables} {host : AuthHostId} {clientId : String} {account : AuthAccount}
    (h : AuthAccountRepository.select tables host clientId = .ok account) :
    account ∈ tables.accounts.rows ∧ account.identity = (host, clientId) := by
  unfold AuthAccountRepository.select at h
  split at h
  · next found hfound =>
      cases h
      exact ⟨List.mem_of_find?_eq_some hfound, by simpa using List.find?_some hfound⟩
  · cases h

/-! ### What a login returns -/

/-- The host is stored under the issuer. -/
def HostStored (issuer : String) (host : AuthHost) (tables : AuthTables) : Prop :=
  host ∈ tables.hosts.rows ∧ host.url = issuer

/-- The account is stored for the host and the subject. -/
def AccountStored (host : AuthHostId) (subject : String) (account : AuthAccount) (tables : AuthTables) :
    Prop :=
  account ∈ tables.accounts.rows ∧ account.identity = (host, subject)

/-- A result that is not an error is as described. -/
def IfOk {α : Type} (P : α → AuthTables → Prop) : Result α → AuthTables → Prop
  | .ok result, tables => P result tables
  | .error _, _ => True

/-- The id is that of the account of the issuer and the subject. -/
def Identifies (authInfo : OidcAuthInfo) (id : AuthAccountId) (tables : AuthTables) : Prop :=
  ∃ host account, HostStored authInfo.issuer host tables ∧
    AccountStored host.id authInfo.subject account tables ∧ account.id = id

theorem HostStored.grows {issuer : String} {host : AuthHost} {tables later : AuthTables}
    (h : HostStored issuer host tables) (hgrows : Grows tables later) : HostStored issuer host later :=
  ⟨hgrows.1 host h.1, h.2⟩

theorem AccountStored.grows {host : AuthHostId} {subject : String} {account : AuthAccount}
    {tables later : AuthTables} (h : AccountStored host subject account tables)
    (hgrows : Grows tables later) : AccountStored host subject account later :=
  ⟨hgrows.2 account h.1, h.2⟩

theorem safe_findOrCreate (id : AuthAccountId) (host : AuthHostId) (subject : String)
    (tables : AuthTables) :
    Safe Grows (IfOk (AccountStored host subject))
      (AuthAccountRepository.findOrCreate id host subject) tables := by
  unfold AuthAccountRepository.findOrCreate
  refine .bind (M := fun inserted tables => ∀ account, inserted = .ok (some account) →
    AccountStored host subject account tables) (.exec fun later _ => ?_) fun inserted later hinserted => ?_
  · obtain ⟨hgrows, hrow⟩ := insert_spec later { id, host, clientId := subject }
    refine ⟨hgrows, fun last hlast account haccount => ?_⟩
    obtain ⟨rfl, hmem⟩ := hrow account haccount
    exact AccountStored.grows ⟨hmem, rfl⟩ hlast
  · match inserted with
    | .error report => exact .pure fun _ _ => trivial
    | .ok (some account) => exact .pure fun last hlast => (hinserted account rfl).grows hlast
    | .ok none =>
        refine .exec fun last _ => ⟨refl_of Grows last, fun final hfinal => ?_⟩
        dsimp only
        cases hselect : AuthAccountRepository.select last host subject with
        | error report => trivial
        | ok account => exact AccountStored.grows (select_ok hselect) hfinal

theorem safe_findOrCreateHost (login : Login) (tables : AuthTables) :
    Safe Grows (IfOk (HostStored login.issuer)) (findOrCreateHost login) tables := by
  unfold findOrCreateHost
  refine .bind (M := fun found tables => ∀ host ∈ found, HostStored login.issuer host tables)
    (.exec fun later _ => ⟨refl_of Grows later, fun last hlast host hhost => ?_⟩)
    fun found later hfound => ?_
  · exact HostStored.grows ⟨List.mem_of_find?_eq_some hhost, by simpa using List.find?_some hhost⟩ hlast
  cases found with
  | some host => exact .pure fun last hlast => (hfound host rfl).grows hlast
  | none =>
      refine .bind (M := fun created tables => created = .ok () →
        HostStored login.issuer ⟨login.hostId, login.issuer⟩ tables) (.exec fun last _ => ?_)
        fun created last hcreated => .pure fun final hfinal => ?_
      · obtain ⟨hgrows, hrow⟩ := create_spec last ⟨login.hostId, login.issuer⟩
        exact ⟨hgrows, fun final hfinal hok => HostStored.grows ⟨hrow hok, rfl⟩ hfinal⟩
      · cases created with
        | error report => trivial
        | ok _ => exact (hcreated rfl).grows hfinal

theorem safe_resolveAuthAccountId (login : Login) (tables : AuthTables) :
    Safe Grows (IfOk (Identifies login.toOidcAuthInfo)) (resolveAuthAccountId login) tables := by
  unfold resolveAuthAccountId
  refine .bind (safe_findOrCreateHost login tables) fun host later hhost => ?_
  cases host with
  | error report => exact .pure fun _ _ => trivial
  | ok host =>
      -- the host stays stored while the account is looked for
      have haccount := (safe_findOrCreate login.authAccountId host.id login.subject later).frame
        (fun _ _ hstored hgrows => HostStored.grows hstored hgrows) hhost
      refine haccount.bind fun account last hstored => .pure fun final hfinal => ?_
      cases account with
      | error report => trivial
      | ok account =>
          exact ⟨host, account, hstored.1.grows hfinal, AccountStored.grows hstored.2 hfinal, rfl⟩

/-! ### Concurrent logins -/

variable {ι : Type} [DecidableEq ι]

/-- The logins run from the given tables, one statement of one login at a time. -/
def logins (tables : AuthTables) (login : ι → Login) (schedule : List ι) :
    System ι AuthTables (Result AuthAccountId) :=
  Runs.run advance { store := tables, process := fun i => resolveAuthAccountId (login i) } schedule

/-- Two ids of the same tables are the same exactly when they identify the same login. -/
theorem eq_iff_of_identifies {tables : AuthTables} {first second : OidcAuthInfo}
    {a b : AuthAccountId} (ha : Identifies first a tables) (hb : Identifies second b tables) :
    a = b ↔ first.issuer = second.issuer ∧ first.subject = second.subject := by
  obtain ⟨host, account, ⟨hhost, hurl⟩, ⟨haccount, hidentity⟩, rfl⟩ := ha
  obtain ⟨host', account', ⟨hhost', hurl'⟩, ⟨haccount', hidentity'⟩, rfl⟩ := hb
  constructor
  · intro hid
    have hsame := tables.accounts.eq_of_key_eq haccount haccount' hid
    rw [hsame, hidentity', Prod.mk.injEq] at hidentity
    have hhosts := tables.hosts.eq_of_key_eq hhost hhost' hidentity.1.symm
    rw [← hurl, ← hurl', hhosts]
    exact ⟨rfl, hidentity.2.symm⟩
  · rintro ⟨hissuer, hsubject⟩
    have hhosts := tables.hosts_url host hhost host' hhost' (by rw [hurl, hurl', hissuer])
    rw [tables.accounts_identity account haccount account' haccount'
      (by rw [hidentity, hidentity', hhosts, hsubject])]

/-- However any number of logins interleave, two that succeed get the same auth account exactly when
they have the same issuer and the same subject. -/
theorem login_identities_injective (tables : AuthTables) (login : ι → Login) (schedule : List ι)
    (i j : ι) (a b : AuthAccountId)
    (hi : ((logins tables login schedule).process i).result = some (.ok a))
    (hj : ((logins tables login schedule).process j).result = some (.ok b)) :
    a = b ↔ (login i).issuer = (login j).issuer ∧ (login i).subject = (login j).subject := by
  have hsafe : ∀ i, Safe Grows (IfOk (Identifies (login i).toOidcAuthInfo))
      (resolveAuthAccountId (login i)) tables := fun i => safe_resolveAuthAccountId (login i) tables
  have ha : IfOk (Identifies (login i).toOidcAuthInfo) (.ok a) (logins tables login schedule).store :=
    post_of_result hsafe hi
  have hb : IfOk (Identifies (login j).toOidcAuthInfo) (.ok b) (logins tables login schedule).store :=
    post_of_result hsafe hj
  exact eq_iff_of_identifies ha hb

/-- Three first logins race: two of one person, whose slower account insert finds the other's row, and
one of another person of the same issuer. -/
def racing : Fin 3 → Login
  | 0 => { issuer := "https://id.example", subject := "ann", hostId := 1, authAccountId := 10 }
  | 1 => { issuer := "https://id.example", subject := "ann", hostId := 2, authAccountId := 20 }
  | 2 => { issuer := "https://id.example", subject := "ben", hostId := 3, authAccountId := 30 }

theorem login_identities_racing :
    ((20 : AuthAccountId) = 20 ↔ (racing 0).issuer = (racing 1).issuer ∧
      (racing 0).subject = (racing 1).subject) ∧
    ((20 : AuthAccountId) = 30 ↔ (racing 0).issuer = (racing 2).issuer ∧
      (racing 0).subject = (racing 2).subject) :=
  ⟨login_identities_injective .empty racing [0, 0, 1, 2, 1, 0, 2, 0] 0 1 20 20 (by decide +kernel)
    (by decide +kernel),
    login_identities_injective .empty racing [0, 0, 1, 2, 1, 0, 2, 0] 0 2 20 30 (by decide +kernel)
    (by decide +kernel)⟩

end Login

end Emumet

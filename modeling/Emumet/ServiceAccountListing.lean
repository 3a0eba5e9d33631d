import Emumet.LibPaging
import Emumet.DriverVisibility
import Emumet.ServiceAccountDetail

/-! The accounts of a caller, page by page. The listing shows suspended and banned accounts, while the
cursor is looked up among the visible ones only, so a page that ends with a restricted account is
followed by the first page again. -/

namespace Emumet

/-! ### Pages -/

inductive Direction where
  | NEXT
  | PREV
  deriving DecidableEq, Repr

structure Pagination (Cursor : Type) where
  limit : Nat
  cursor : Option Cursor
  direction : Direction

/-- The rows on one side of the cursor, in increasing order. -/
def applyPagination {T : Type} [Ord T] (vec : List T) (limit : Nat) (cursorData : Option T) :
    Direction → List T
  | .NEXT => ((vec.insertionSort fun a b => (compare a b).isLE).filter fun x =>
      cursorData.all fun cursor => (compare x cursor).isGT).take limit
  | .PREV => (((vec.insertionSort fun a b => (compare b a).isLE).filter fun x =>
      cursorData.all fun cursor => (compare x cursor).isLT).take limit).reverse

/-- Accounts are ordered by their ids. -/
instance : Ord Account := ⟨fun a b => compare a.id b.id⟩

theorem Account.isLE_compare {a b : Account} : (compare a b).isLE = true ↔ a.id ≤ b.id :=
  Int.isLE_compare

theorem Account.isGT_compare {a b : Account} : (compare a b).isGT = true ↔ b.id < a.id := by
  rw [Ordering.isGT_iff_eq_gt]
  exact Int.compare_eq_gt

/-! ### Details -/

namespace AccountDto

def intoDetail (base : AccountDto) (displayName summary iconUrl bannerUrl : Option String)
    (fields : List AccountFieldDto) : AccountDetailDto :=
  { nanoid := base.nanoid, name := base.name, displayName, summary, iconUrl, bannerUrl
    isBot := base.isBot, fields, createdAt := base.createdAt, moderation := base.moderation }

end AccountDto

/-- The fields of each account, by account and field id. -/
def metadataMap (metadata : List Metadata) (accountId : AccountId) : List AccountFieldDto :=
  ((metadata.insertionSort fun a b => toLex (a.accountId, a.id) ≤ toLex (b.accountId, b.id)).filter
    fun field => field.accountId = accountId).map fun field => ⟨field.label, field.content⟩

/-- The details of the accounts in turn; the fields of an account are taken out of the map. -/
def composeDetails (profiles : List Profile) (images : List Image) :
    (AccountId → List AccountFieldDto) → List Account → Result (List AccountDetailDto)
  | _, [] => .ok []
  | fields, account :: accounts =>
      let urlOf (id : ImageId) : Option String := (images.find? (·.id = id)).map Image.url
      match profiles.find? (·.accountId = account.id) with
      | none => reject .NotFound "Profile not found for account"
      | some profile => do
          let detail := (AccountDto.ofAccount account).intoDetail profile.displayName profile.summary
            (profile.icon.bind urlOf) (profile.banner.bind urlOf) (fields account.id)
          let details ← composeDetails profiles images (Function.update fields account.id []) accounts
          pure (detail :: details)

def composeAccountDetails (db : Db) (accounts : List Account) : Result (List AccountDetailDto) :=
  if accounts.isEmpty then .ok []
  else
    let accountIds := accounts.map Account.id
    let profiles := ProfileReadModel.findByAccountIds db accountIds
    let metadata := MetadataReadModel.findByAccountIds db accountIds
    let imageIds := (profiles.flatMap fun profile => profile.icon.toList ++ profile.banner.toList).dedup
    composeDetails profiles (ImageRepository.findByIds db imageIds) (metadataMap metadata) accounts

/-- `get_all_account_details` at a reading of the clock. -/
def getAllAccountDetails (db : Db) (now : OffsetDateTime) (authAccountId : AuthAccountId)
    (pagination : Pagination String) : Result (List AccountDetailDto) :=
  let accounts := AccountReadModel.findByAuthId db now authAccountId
  let cursor := pagination.cursor.bind (AccountReadModel.findByNanoid db now)
  composeAccountDetails db (applyPagination accounts pagination.limit cursor pagination.direction)

/-! ### One page -/

namespace AccountListing

/-- The accounts of the caller that are not deactivated, in increasing id order. -/
def ownedRows (db : Db) (authId : AuthAccountId) : List AccountRow :=
  (db.accounts.select fun row =>
    (row.id, authId) ∈ db.authEmumetAccounts && row.deletedAt.isNone).insertionSort
      fun a b => a.id ≤ b.id

/-- Every account of the caller has a profile. -/
def HasProfiles (db : Db) (authId : AuthAccountId) : Prop :=
  ∀ row ∈ ownedRows db authId, ∃ profile ∈ db.profiles.rows, profile.accountId = row.id

variable {db : Db} {now : OffsetDateTime} {authId : AuthAccountId} {limit : Nat} {row : AccountRow}

theorem mem_accounts_of_mem_ownedRows (h : row ∈ ownedRows db authId) : row ∈ db.accounts.rows := by
  rw [ownedRows, List.mem_insertionSort] at h
  exact List.mem_of_mem_filter h

theorem ownedRows_sorted (db : Db) (authId : AuthAccountId) :
    (ownedRows db authId).Pairwise fun a b => a.id < b.id := by
  have hle : (ownedRows db authId).Pairwise fun a b => a.id ≤ b.id :=
    List.pairwise_insertionSort (fun a b : AccountRow => a.id ≤ b.id) _
  have hkeys : ((ownedRows db authId).map AccountRow.id).Nodup := by
    refine (((List.perm_insertionSort _ _).map AccountRow.id).nodup_iff).mpr ?_
    exact db.accounts.nodup.sublist (List.filter_sublist.map AccountRow.id)
  have hne : (ownedRows db authId).Pairwise fun a b => a.id ≠ b.id := List.pairwise_map.mp hkeys
  exact hle.imp₂ (fun a b hle hne => lt_of_le_of_ne hle hne) hne

/-- The page after a cursor, cut from the caller's accounts. -/
theorem applyPagination_findByAuthId (cursor : Option Account) :
    applyPagination (AccountReadModel.findByAuthId db now authId) limit cursor .NEXT =
      ((Paging.after AccountRow.id (ownedRows db authId) (cursor.map Account.id)).take limit).map
        (·.toAccount true now) := by
  have hsort : (AccountReadModel.findByAuthId db now authId).insertionSort
      (fun a b => (compare a b).isLE) = (ownedRows db authId).map (·.toAccount true now) := by
    refine (List.map_insertionSort (fun a b : AccountRow => a.id ≤ b.id)
      (fun a b : Account => (compare a b).isLE) (·.toAccount true now) _ ?_).symm
    intro a _ b _
    rw [Account.isLE_compare]
    rfl
  have hkeep : ∀ row : AccountRow,
      (cursor.all fun cursor => (compare (row.toAccount true now) cursor).isGT) =
        (cursor.map Account.id).all (· < row.id) := by
    intro row
    cases cursor with
    | none => rfl
    | some cursor => exact Bool.eq_iff_iff.mpr (Account.isGT_compare.trans decide_eq_true_iff.symm)
  rw [applyPagination, hsort, List.filter_map, ← List.map_take]
  simp only [Function.comp_def, hkeep, Paging.after]

theorem composeDetails_nanoids {profiles : List Profile} {images : List Image}
    (fields : AccountId → List AccountFieldDto) {accounts : List Account}
    (hprofiles : ∀ account ∈ accounts, ∃ profile ∈ profiles, profile.accountId = account.id) :
    ∃ details, composeDetails profiles images fields accounts = .ok details ∧
      details.map AccountDetailDto.nanoid = accounts.map Account.nanoid := by
  induction accounts generalizing fields with
  | nil => exact ⟨[], rfl, rfl⟩
  | cons account accounts ih =>
      rw [List.forall_mem_cons] at hprofiles
      obtain ⟨⟨profile, hprofile, howner⟩, hrest⟩ := hprofiles
      obtain ⟨found, hfound⟩ : ∃ found, profiles.find? (·.accountId = account.id) = some found :=
        Option.isSome_iff_exists.mp (List.find?_isSome.mpr ⟨profile, hprofile, by simpa using howner⟩)
      obtain ⟨details, hdetails, hnanoids⟩ := ih (Function.update fields account.id []) hrest
      refine ⟨_, by simp only [composeDetails, hfound, hdetails]; rfl, ?_⟩
      rw [List.map_cons, hnanoids]
      rfl

/-- Accounts with profiles are all composed, in their order. -/
theorem composeAccountDetails_nanoids (db : Db) (accounts : List Account)
    (hprofiles : ∀ account ∈ accounts, ∃ profile ∈ db.profiles.rows, profile.accountId = account.id) :
    ∃ details, composeAccountDetails db accounts = .ok details ∧
      details.map AccountDetailDto.nanoid = accounts.map Account.nanoid := by
  rw [composeAccountDetails]
  split_ifs with hempty
  · rw [List.isEmpty_iff] at hempty
    exact ⟨[], rfl, by rw [hempty]; rfl⟩
  · refine composeDetails_nanoids _ fun account haccount => ?_
    obtain ⟨profile, hprofile, howner⟩ := hprofiles account haccount
    refine ⟨profile, List.mem_filter.mpr ⟨hprofile, ?_⟩, howner⟩
    simpa [howner] using ⟨account, haccount, rfl⟩

/-- A page lists the caller's accounts after the account its cursor finds. -/
theorem getAllAccountDetails_nanoids (hprofiles : HasProfiles db authId) (now : OffsetDateTime)
    (limit : Nat) (cursor : Option String) :
    ∃ details, getAllAccountDetails db now authId ⟨limit, cursor, .NEXT⟩ = .ok details ∧
      details.map AccountDetailDto.nanoid =
        ((Paging.after AccountRow.id (ownedRows db authId)
          ((cursor.bind (AccountReadModel.findByNanoid db now)).map Account.id)).take limit).map
            AccountRow.nanoid := by
  simp only [getAllAccountDetails, applyPagination_findByAuthId]
  generalize hpage : (Paging.after AccountRow.id (ownedRows db authId)
    ((cursor.bind (AccountReadModel.findByNanoid db now)).map Account.id)).take limit = page
  obtain ⟨details, hdetails, hnanoids⟩ := composeAccountDetails_nanoids db
    (page.map (·.toAccount true now)) (by
      intro account haccount
      obtain ⟨row, hrow, rfl⟩ := List.mem_map.mp haccount
      rw [← hpage] at hrow
      exact hprofiles row (List.mem_of_mem_filter (List.mem_of_mem_take hrow)))
  refine ⟨details, hdetails, ?_⟩
  rw [hnanoids, List.map_map]
  rfl

/-- The cursor of a visible account is found. -/
theorem cursor_of_visible (hunique : db.AccountsUnique) (hrow : row ∈ ownedRows db authId)
    (hvisible : row.visible now = true) :
    (AccountReadModel.findByNanoid db now row.nanoid).map Account.id = some row.id := by
  rw [AccountReadModel.findByNanoid_eq now hunique (mem_accounts_of_mem_ownedRows hrow),
    AccountRow.filteredAnswer, Option.filter_some, if_pos hvisible]
  rfl

/-- The cursor of a hidden account is not. -/
theorem cursor_of_hidden (hunique : db.AccountsUnique) (hrow : row ∈ ownedRows db authId)
    (hhidden : row.visible now = false) : AccountReadModel.findByNanoid db now row.nanoid = none := by
  rw [AccountReadModel.findByNanoid_eq now hunique (mem_accounts_of_mem_ownedRows hrow),
    AccountRow.filteredAnswer, Option.filter_some, if_neg (by simp [hhidden])]
  rfl

/-! ### The client's loop -/

/-- The nanoid of the last account of the last page. -/
def nextCursor (pages : List (List AccountDetailDto)) : Option String :=
  pages.getLast?.bind fun page => page.getLast?.map AccountDetailDto.nanoid

/-- The pages of the first requests of a client that lists the accounts in direction `NEXT`, the last
page at the end; request number `n` is made at `clock n`. -/
def listing (db : Db) (authId : AuthAccountId) (limit : Nat) (clock : Nat → OffsetDateTime) :
    Nat → Result (List (List AccountDetailDto))
  | 0 => .ok []
  | calls + 1 => do
      let pages ← listing db authId limit clock calls
      let page ← getAllAccountDetails db (clock calls) authId ⟨limit, nextCursor pages, .NEXT⟩
      pure (pages ++ [page])

/-- The loop ends with the first empty page, and the pages before it list every account of the caller
once, in increasing id order. -/
def Enumerates (db : Db) (authId : AuthAccountId) (limit : Nat) (clock : Nat → OffsetDateTime) : Prop :=
  ∃ pages, listing db authId limit clock (pages.length + 1) = .ok (pages ++ [[]]) ∧ [] ∉ pages ∧
    pages.flatten.map AccountDetailDto.nanoid = (ownedRows db authId).map AccountRow.nanoid

/-- The account that ends a page is visible when the next page is asked for. -/
def EndVisible (db : Db) (authId : AuthAccountId) (limit : Nat) (clock : Nat → OffsetDateTime)
    (index : Nat) : Prop :=
  ∀ last ∈ (Paging.page limit (ownedRows db authId) index).getLast?, last.visible (clock (index + 1)) = true

variable {clock : Nat → OffsetDateTime} {pages : List (List AccountDetailDto)}

/-- The nanoids a page shows, for the pages the loop asks for when it is not thrown back. -/
def expected (db : Db) (authId : AuthAccountId) (limit calls : Nat) : List (List String) :=
  (List.range calls).map fun index =>
    (Paging.page limit (ownedRows db authId) index).map AccountRow.nanoid

def shown (pages : List (List AccountDetailDto)) : List (List String) :=
  pages.map (List.map AccountDetailDto.nanoid)

theorem nextCursor_eq (pages : List (List AccountDetailDto)) :
    nextCursor pages = (shown pages).getLast?.bind List.getLast? := by
  simp only [nextCursor, shown, List.getLast?_map, Option.bind_map, Function.comp_def]

/-- The first pages of a loop are those of a shorter one. -/
theorem listing_take {calls : Nat} (h : listing db authId limit clock calls = .ok pages) :
    pages.length = calls ∧
      ∀ fewer ≤ calls, listing db authId limit clock fewer = .ok (pages.take fewer) := by
  induction calls generalizing pages with
  | zero =>
      cases h
      refine ⟨rfl, fun fewer hfewer => ?_⟩
      rw [Nat.le_zero.mp hfewer]
      rfl
  | succ calls ih =>
      have hlisting := h
      simp only [listing, Fallible.bind_eq_ok] at h
      obtain ⟨earlier, hearlier, page, hpage, hpages⟩ := h
      cases hpages
      obtain ⟨hlength, htake⟩ := ih hearlier
      refine ⟨by simp [hlength], fun fewer hfewer => ?_⟩
      rcases Nat.le_succ_iff.mp hfewer with hfewer | rfl
      · rw [htake fewer hfewer, List.take_append_of_le_length (by omega)]
      · rw [List.take_of_length_le (by simp [hlength]), hlisting]

theorem listing_succ {calls : Nat} (hprofiles : HasProfiles db authId)
    (h : listing db authId limit clock calls = .ok pages) :
    ∃ page, listing db authId limit clock (calls + 1) = .ok (pages ++ [page]) ∧
      page.map AccountDetailDto.nanoid =
        ((Paging.after AccountRow.id (ownedRows db authId)
          (((nextCursor pages).bind (AccountReadModel.findByNanoid db (clock calls))).map
            Account.id)).take limit).map AccountRow.nanoid := by
  obtain ⟨page, hpage, hnanoids⟩ := getAllAccountDetails_nanoids hprofiles (clock calls) limit
    (nextCursor pages)
  refine ⟨page, ?_, hnanoids⟩
  simp only [listing, h, Fallible.bind_eq_ok]
  exact ⟨pages, rfl, page, hpage, rfl⟩

theorem expected_succ (calls : Nat) :
    expected db authId limit (calls + 1) = expected db authId limit calls ++
      [(Paging.page limit (ownedRows db authId) calls).map AccountRow.nanoid] := by
  simp [expected, List.range_succ]

/-- As long as pages have rows and end visibly, the loop asks for one page after the other. -/
theorem listing_expected (hunique : db.AccountsUnique) (hprofiles : HasProfiles db authId)
    (clock : Nat → OffsetDateTime) (calls : Nat)
    (hends : ∀ index, index + 1 < calls →
      Paging.page limit (ownedRows db authId) index ≠ [] ∧ EndVisible db authId limit clock index) :
    ∃ pages, listing db authId limit clock calls = .ok pages ∧
      shown pages = expected db authId limit calls := by
  induction calls with
  | zero => exact ⟨[], rfl, rfl⟩
  | succ calls ih =>
      obtain ⟨pages, hpages, hshown⟩ := ih fun index hindex => hends index (by omega)
      obtain ⟨page, hlisting, hpage⟩ := listing_succ hprofiles hpages
      refine ⟨_, hlisting, ?_⟩
      rw [shown, List.map_append, List.map_singleton, ← shown, hshown, expected_succ, hpage]
      congr 2
      rw [nextCursor_eq, hshown, Paging.page]
      cases calls with
      | zero => simp [expected]
      | succ calls =>
          -- the cursor is the last row of the page before
          obtain ⟨hrows, hvisible⟩ := hends calls (by omega)
          obtain ⟨last, hlast⟩ := Option.isSome_iff_exists.mp (List.getLast?_isSome.mpr hrows)
          have hmem : last ∈ ownedRows db authId :=
            List.mem_of_mem_drop (List.mem_of_mem_take (List.mem_of_getLast? hlast))
          have hcursor := cursor_of_visible hunique hmem (hvisible last hlast)
          rw [expected_succ, List.getLast?_append_of_ne_nil _ (by simp), List.getLast?_singleton,
            Option.bind_some, List.getLast?_map, hlast, Option.map_some, Option.bind_some, hcursor,
            Paging.after_page AccountRow.id (ownedRows_sorted db authId) hlast]

theorem flatten_expected (db : Db) (authId : AuthAccountId) (limit calls : Nat) :
    (expected db authId limit calls).flatten =
      ((ownedRows db authId).take (calls * limit)).map AccountRow.nanoid := by
  rw [← Paging.flatten_pages, List.map_flatten, List.map_map]
  rfl

theorem nil_notMem_expected {calls : Nat}
    (h : ∀ index < calls, Paging.page limit (ownedRows db authId) index ≠ []) :
    [] ∉ expected db authId limit calls := by
  intro hmem
  obtain ⟨index, hindex, hpage⟩ := List.mem_map.mp hmem
  exact h index (List.mem_range.mp hindex) (List.map_eq_nil_iff.mp hpage)

theorem nil_mem_shown_iff : [] ∈ shown pages ↔ [] ∈ pages := by
  simp [shown]

theorem nodup_nanoids (hunique : db.AccountsUnique) (authId : AuthAccountId) :
    ((ownedRows db authId).map AccountRow.nanoid).Nodup := by
  rw [List.Nodup, List.pairwise_map]
  refine List.Pairwise.imp_of_mem ?_ (ownedRows_sorted db authId)
  intro a b ha hb hlt hnanoid
  have heq : a = b := hunique.eq_of_nanoid_eq (mem_accounts_of_mem_ownedRows hb)
    (mem_accounts_of_mem_ownedRows ha) hnanoid
  exact lt_irrefl _ (heq ▸ hlt)

/-- If every page ends visibly, the loop enumerates the accounts. -/
theorem enumerates_of_endVisible (hlimit : 0 < limit) (hunique : db.AccountsUnique)
    (hprofiles : HasProfiles db authId) (hends : ∀ index, EndVisible db authId limit clock index) :
    Enumerates db authId limit clock := by
  have hsome : ∃ count, Paging.page limit (ownedRows db authId) count = [] :=
    ⟨_, (Paging.page_eq_nil_iff hlimit).mpr (Nat.le_mul_of_pos_right (ownedRows db authId).length hlimit)⟩
  -- the number of pages that have rows
  let count := Nat.find hsome
  have hempty : Paging.page limit (ownedRows db authId) count = [] := Nat.find_spec hsome
  have hfull : ∀ index < count, Paging.page limit (ownedRows db authId) index ≠ [] :=
    fun index hindex => Nat.find_min hsome hindex
  obtain ⟨all, hlisting, hshown⟩ := listing_expected hunique hprofiles clock (count + 1)
    fun index hindex => ⟨hfull index (by omega), hends index⟩
  obtain ⟨pages, page, rfl⟩ : ∃ pages page, all = pages ++ [page] := by
    rcases List.eq_nil_or_concat' all with rfl | hconcat
    · cases (listing_take hlisting).1
    · exact hconcat
  have hlength : pages.length = count := by simpa using (listing_take hlisting).1
  rw [expected_succ, hempty, shown, List.map_append, List.map_singleton, ← shown] at hshown
  obtain ⟨hpages, hpage⟩ := List.append_inj' hshown rfl
  have hpage : page = [] := by simpa using hpage
  subst hpage
  refine ⟨pages, hlength ▸ hlisting, ?_, ?_⟩
  · rw [← nil_mem_shown_iff, hpages]
    exact nil_notMem_expected hfull
  · rw [List.map_flatten, ← shown, hpages, flatten_expected,
      List.take_of_length_le ((Paging.page_eq_nil_iff hlimit).mp hempty)]

/-- A page that ends with a hidden account is followed by the first page again. -/
theorem listing_restarts (hunique : db.AccountsUnique) (hprofiles : HasProfiles db authId) {calls : Nat}
    {last : AccountRow} (hlisting : listing db authId limit clock (calls + 1) = .ok pages)
    (hshown : shown pages = expected db authId limit (calls + 1))
    (hlast : (Paging.page limit (ownedRows db authId) calls).getLast? = some last)
    (hhidden : last.visible (clock (calls + 1)) = false) :
    ∃ page, listing db authId limit clock (calls + 2) = .ok (pages ++ [page]) ∧
      page.map AccountDetailDto.nanoid = ((ownedRows db authId).take limit).map AccountRow.nanoid := by
  obtain ⟨page, hnext, hpage⟩ := listing_succ hprofiles hlisting
  refine ⟨page, hnext, ?_⟩
  have hmem : last ∈ ownedRows db authId :=
    List.mem_of_mem_drop (List.mem_of_mem_take (List.mem_of_getLast? hlast))
  rw [hpage, nextCursor_eq, hshown, expected_succ, List.getLast?_append_of_ne_nil _ (by simp),
    List.getLast?_singleton, Option.bind_some, List.getLast?_map, hlast, Option.map_some,
    Option.bind_some, cursor_of_hidden hunique hmem hhidden, Option.map_none, Paging.after_none]

/-- If a page ends with a hidden account, the loop repeats the first page or does not end. -/
theorem not_enumerates_of_hidden (hlimit : 0 < limit) (hunique : db.AccountsUnique)
    (hprofiles : HasProfiles db authId) (index : Nat) (hhidden : ¬EndVisible db authId limit clock index)
    (hbefore : ∀ earlier < index, EndVisible db authId limit clock earlier) :
    ¬Enumerates db authId limit clock := by
  simp only [EndVisible, Option.mem_def, not_forall, Bool.not_eq_true] at hhidden
  obtain ⟨last, hlast, hhidden⟩ := hhidden
  have hfull : ∀ earlier < index + 1, Paging.page limit (ownedRows db authId) earlier ≠ [] := by
    intro earlier hearlier hempty
    have hrest : Paging.page limit (ownedRows db authId) index = [] :=
      (Paging.page_eq_nil_iff hlimit).mpr (((Paging.page_eq_nil_iff hlimit).mp hempty).trans
        (Nat.mul_le_mul_right limit (Nat.lt_succ_iff.mp hearlier)))
    rw [hrest] at hlast
    cases hlast
  obtain ⟨front, hfront, hshown⟩ := listing_expected hunique hprofiles clock (index + 1)
    fun earlier hearlier => ⟨hfull earlier (by omega), hbefore earlier (by omega)⟩
  obtain ⟨page, hlisting, hpage⟩ := listing_restarts hunique hprofiles hfront hshown hlast hhidden
  obtain ⟨first, rest, howned⟩ : ∃ first rest, ownedRows db authId = first :: rest :=
    List.exists_cons_of_ne_nil fun hnil => hfull 0 (by omega) (by rw [hnil]; simp [Paging.page])
  have hfirst : ∀ count, 0 < count →
      first.nanoid ∈ ((ownedRows db authId).take count).map AccountRow.nanoid := by
    intro count hcount
    obtain ⟨count, rfl⟩ := Nat.exists_eq_succ_of_ne_zero hcount.ne'
    rw [howned]
    exact List.mem_map_of_mem List.mem_cons_self
  rintro ⟨pages, hpages, hnonempty, hall⟩
  rcases Nat.lt_or_ge (index + 2) (pages.length + 1) with hlonger | hshorter
  · -- the repeated page is among the pages, and its first account is listed twice
    have htake := (listing_take hpages).2 (index + 2) hlonger.le
    rw [hlisting, List.take_append_of_le_length (by omega), Except.ok.injEq] at htake
    have hdup := nodup_nanoids hunique authId
    rw [← hall, ← List.take_append_drop (index + 2) pages, ← htake, List.flatten_append, List.map_append,
      List.flatten_append, List.map_append, List.map_flatten, ← shown, hshown, flatten_expected,
      List.flatten_singleton, hpage] at hdup
    exact List.disjoint_of_nodup_append hdup.of_append_left
      (hfirst _ (Nat.mul_pos (Nat.succ_pos index) hlimit)) (hfirst limit hlimit)
  · -- the empty page would be among those that have rows
    have htake := (listing_take hlisting).2 (pages.length + 1) hshorter
    rw [hpages, Except.ok.injEq] at htake
    have hmem : [] ∈ front ++ [page] :=
      List.mem_of_mem_take (htake ▸ List.mem_append_right pages List.mem_cons_self)
    rcases List.mem_append.mp hmem with hmem | hmem
    · rw [← nil_mem_shown_iff, hshown] at hmem
      exact nil_notMem_expected hfull hmem
    · rw [← List.mem_singleton.mp hmem] at hpage
      have hmem := hfirst limit hlimit
      rw [← hpage] at hmem
      cases hmem

/-- The pages enumerate the accounts of the caller exactly when every account that ends a page is
neither banned nor suspended when the next page is asked for. -/
theorem listing_enumerates_iff (db : Db) (authId : AuthAccountId) (limit : Nat)
    (clock : Nat → OffsetDateTime) (hlimit : 1 ≤ limit) (hunique : db.AccountsUnique)
    (hprofiles : HasProfiles db authId) :
    Enumerates db authId limit clock ↔ ∀ index, EndVisible db authId limit clock index := by
  constructor
  · intro henumerates
    by_contra hhidden
    rw [not_forall] at hhidden
    classical
    refine not_enumerates_of_hidden hlimit hunique hprofiles _ (Nat.find_spec hhidden) ?_ henumerates
    exact fun earlier hearlier => not_not.mp (Nat.find_min hhidden hearlier)
  · exact enumerates_of_endVisible hlimit hunique hprofiles

/-- An account of caller 3 that was created with this id. -/
def listedAccount (id : AccountId) (name : String) (status : AccountStatus) : AccountRow :=
  .ofAccount .microseconds
    { id, name, isBot := false, status, deletedAt := none, version := 20, nanoid := name, createdAt := 0 }

def listedProfile (id : ProfileId) (accountId : AccountId) : Profile :=
  { id, accountId, displayName := none, summary := none, icon := none, banner := none, version := 30
    nanoid := toString id }

/-- Alice is banned, Bob and Carol are not. -/
def listedDb : Db :=
  { Db.empty with
    accounts := ((Table.empty.put (listedAccount 9 "carol" .Active)).put
      (listedAccount 7 "alice" (.Banned "spam" 1000))).put (listedAccount 8 "bob" .Active)
    profiles := ((Table.empty.put (listedProfile 1 7)).put (listedProfile 2 8)).put (listedProfile 3 9)
    authEmumetAccounts := [(7, 3), (8, 3), (9, 3)] }

theorem hasProfiles_listedDb : HasProfiles listedDb 3 := by
  unfold HasProfiles
  decide +kernel

/-- Pages of two end with Bob and with Carol. -/
theorem listing_enumerates_listedDb : Enumerates listedDb 3 2 fun _ => 5000 := by
  refine (listing_enumerates_iff listedDb 3 2 (fun _ => 5000) (by decide) (by decide +kernel)
    hasProfiles_listedDb).mpr fun index => ?_
  rcases index with _ | _ | index
  · unfold EndVisible
    decide +kernel
  · unfold EndVisible
    decide +kernel
  · have hlength : (ownedRows listedDb 3).length = 3 := by decide +kernel
    have hempty : Paging.page 2 (ownedRows listedDb 3) (index + 2) = [] :=
      (Paging.page_eq_nil_iff (by decide)).mpr (by omega)
    rw [EndVisible, hempty]
    rintro last ⟨⟩

/-- Pages of one show Alice again and again. -/
theorem banned_account_restarts_listing :
    listedDb.AccountsUnique ∧ HasProfiles listedDb 3 ∧
      (ownedRows listedDb 3).map AccountRow.nanoid = ["alice", "bob", "carol"] ∧
      (listing listedDb 3 1 (fun _ => 5000) 3).toOption.map shown =
        some [["alice"], ["alice"], ["alice"]] ∧
      ¬Enumerates listedDb 3 1 fun _ => 5000 := by
  refine ⟨by decide +kernel, hasProfiles_listedDb, by decide +kernel, by decide +kernel, ?_⟩
  refine not_enumerates_of_hidden (by decide) (by decide +kernel) hasProfiles_listedDb 0 ?_
    fun earlier hearlier => absurd hearlier (Nat.not_lt_zero earlier)
  unfold EndVisible
  decide +kernel

end AccountListing

end Emumet

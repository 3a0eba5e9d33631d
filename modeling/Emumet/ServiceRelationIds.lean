import Emumet.ServiceLocalTarget
import Emumet.ServiceRelationLists
import Emumet.ServiceUndo

/-! The ids that blocking, muting and following return. Each generates an id for its row; a block and a
follow that exist already are errors, but a mute that exists already is not, and its id is then not the
one that is returned. The list of followed accounts shows a follow once it is approved. -/

namespace Emumet

namespace RelationIds

open FollowRepository (approve approve_id approveFollowIfPending)
open LocalTarget RelationLists Relations Session Undo

/-- The table holds one row for a pair, and it has the id. -/
def Identified {ρ : Type} (rowId : ρ → Int) (rows : List ρ) (pair : ρ → Bool) (id : Int) : Prop :=
  ∃ row, rows.filter pair = [row] ∧ rowId row = id

/-- Two entries show the same target. -/
def sameTarget (dto other : RelationDto) : Bool :=
  other.targetType = dto.targetType ∧ other.target = dto.target

/-- Whoever asks for the list of an account, and whenever, the entries for the target of `dto` in the
list that is answered are the given ones. -/
def Shows (list : Outside → String → Db → Result (List RelationDto)) (accountNanoid : String) (db : Db)
    (dto : RelationDto) (entries : List RelationDto) : Prop :=
  ∀ reader dtos, list reader accountNanoid db = .ok dtos → dtos.filter (sameTarget dto) = entries

/-- The entry of a follow in the list of followed accounts. -/
def followEntry (dto : SendFollowResultDto) : RelationDto where
  id := dto.followId
  targetType := "remote"
  target := dto.remoteActorUrl

variable {server : Server} {outside : Outside} {accountNanoid target : String} {db after : Db}
  {account : Account} {destination : TargetId} {dto : RelationDto}

theorem relates_ofMute {mute : Mute} {x y : TargetId} :
    (MuteRow.ofMute mute).relates x y = true ↔ mute.source = x ∧ mute.destination = y := by
  rw [MuteRow.relates_iff]
  exact and_congr TargetId.columns_eq_iff TargetId.columns_eq_iff

/-! ### Targets by what is shown of them -/

/-- The constraints by which what an entry shows determines its target. -/
structure Distinct (db : Db) : Prop where
  accounts : db.AccountsUnique
  urls : UrlsUnique db

theorem Distinct.of_tables (h : Distinct db) (haccounts : after.accounts = db.accounts)
    (hremotes : after.remoteAccounts = db.remoteAccounts) : Distinct after := by
  refine ⟨?_, ?_⟩
  · rw [Db.AccountsUnique]
    simp only [Db.accountConflict, haccounts]
    exact h.accounts
  · rw [UrlsUnique, hremotes]
    exact h.urls

/-- What an entry shows is what `dto` shows exactly if it is an entry for the destination. -/
def Names (db : Db) (destination : TargetId) (dto : RelationDto) : Prop :=
  ∀ kind now id other shown, relationDto kind now db id other = .ok shown →
    (sameTarget dto shown = true ↔ other = destination)

theorem names_local (hdistinct : Distinct db) {row : AccountRow} (hrow : row ∈ db.accounts.rows)
    (id : String) : Names db (.Local row.id) ⟨id, "local", row.nanoid⟩ := by
  intro kind now entryId other shown hshown
  simp only [sameTarget, decide_eq_true_eq]
  obtain ⟨_, ⟨accountId, found, rfl, htype, hfound, htarget⟩ | ⟨remote, _, rfl, htype, _⟩⟩ :=
    relationDto_ok hshown
  · obtain ⟨stored, hstored, rfl, _, rfl⟩ := AccountReadModel.findById_some hfound
    rw [htype, htarget, TargetId.Local.injEq]
    constructor
    · rintro ⟨_, hnanoid⟩
      rw [hdistinct.accounts.eq_of_nanoid_eq hrow hstored hnanoid]
    · intro hsame
      rw [db.accounts.eq_of_key_eq hstored hrow hsame]
      exact ⟨rfl, rfl⟩
  · rw [htype]
    exact iff_of_false (fun h => absurd h.1 (by decide)) (fun h => by cases h)

theorem names_remote (hdistinct : Distinct db) {remote : RemoteAccount}
    (hremote : remote ∈ db.remoteAccounts.rows) (id : String) :
    Names db (.Remote remote.id) ⟨id, "remote", remote.url⟩ := by
  intro kind now entryId other shown hshown
  simp only [sameTarget, decide_eq_true_eq]
  obtain ⟨_, ⟨accountId, _, rfl, htype, _⟩ | ⟨stored, hstored, rfl, htype, htarget⟩⟩ :=
    relationDto_ok hshown
  · rw [htype]
    exact iff_of_false (fun h => absurd h.1 (by decide)) (fun h => by cases h)
  · rw [htype, htarget, TargetId.Remote.injEq]
    constructor
    · rintro ⟨_, hurl⟩
      rw [hdistinct.urls stored hstored remote hremote hurl]
    · intro hsame
      rw [db.remoteAccounts.eq_of_key_eq hstored hremote hsame]
      exact ⟨rfl, rfl⟩

/-- A remote account that was stored is named by its URL. -/
theorem upsert_names {mid : Db} {actor : ResolvedRemoteActor} {remote : RemoteAccount}
    (hdistinct : Distinct db) (h : upsertRemoteAccount outside actor db = .ok (remote, mid))
    (id : String) : Distinct mid ∧ mid.accounts = db.accounts ∧
      Names mid (.Remote remote.id) ⟨id, "remote", remote.url⟩ := by
  have hurls := hdistinct.urls.upsert h
  obtain ⟨rfl, _⟩ := upsertRemoteAccount_ok h
  have hmid : Distinct { db with remoteAccounts := db.remoteAccounts.put remote } :=
    ⟨hdistinct.accounts, hurls⟩
  exact ⟨hmid, rfl, names_remote hmid (Table.mem_put.mpr (.inl rfl)) id⟩

/-- The target that blocking and muting resolve is named by what they return of it. -/
theorem resolveBlockTarget_names {mid : Db} {resolved : BlockTarget} (hdistinct : Distinct db)
    (h : resolveBlockTarget server outside target db = (.ok resolved, mid)) (id : String) :
    Distinct mid ∧ mid.accounts = db.accounts ∧
      Names mid resolved.id ⟨id, resolved.typeName, resolved.name⟩ := by
  obtain ⟨found, _, hread, h⟩ := bind_eq_ok.mp h
  obtain ⟨hfound, rfl⟩ := read_eq_ok.mp hread
  cases found with
  | some account =>
      obtain ⟨rfl, rfl⟩ := pure_eq_ok.mp h
      obtain ⟨row, hrow, _, _, rfl⟩ := AccountReadModel.findByNanoid_some (Except.ok.inj hfound)
      exact ⟨hdistinct, rfl, names_local hdistinct hrow id⟩
  | none =>
      obtain ⟨actor, _, hactor, h⟩ := bind_eq_ok.mp h
      obtain ⟨_, rfl⟩ := lift_eq_ok.mp hactor
      obtain ⟨remote, _, hupsert, h⟩ := bind_eq_ok.mp h
      obtain ⟨rfl, rfl⟩ := pure_eq_ok.mp h
      exact upsert_names hdistinct (atomically_eq_ok.mp hupsert) id

theorem Names.of_tables (h : Names db destination dto) (haccounts : after.accounts = db.accounts)
    (hremotes : after.remoteAccounts = db.remoteAccounts) : Names after destination dto := by
  intro kind now id other shown hshown
  refine h kind now id other shown ?_
  rw [← hshown]
  cases other with
  | Local accountId =>
      simp only [relationDto, AccountReadModel.findById, AccountReadModel.findVisible, haccounts]
  | Remote remoteAccountId =>
      simp only [relationDto, RemoteAccountRepository.findById, hremotes]

/-! ### Lists -/

section Entries

variable {ρ α : Type} {rows : List ρ} {pair : ρ → Bool} {rowId : ρ → Int} {read : ρ → Result α}
  {entryId : α → Int} {entryTarget : α → TargetId} {kind : String}

/-- The entries for a destination are those of its rows. -/
theorem filter_entries {now : OffsetDateTime} (hnames : Names db destination dto)
    (hread : ∀ row ∈ rows, ∀ x, read row = .ok x →
      entryId x = rowId row ∧ (entryTarget x = destination ↔ pair row = true))
    {dtos : List RelationDto} (hdtos : List.Forall₂ (fun row shown =>
      (read row >>= fun x => relationDto kind now db (entryId x) (entryTarget x)) = .ok shown) rows dtos) :
    dtos.filter (sameTarget dto) =
      (rows.filter pair).map fun row => { dto with id := toString (rowId row) } := by
  induction hdtos with
  | nil => rfl
  | @cons row shown rows dtos hfirst _ ih =>
      specialize ih fun other hother => hread other (List.mem_cons_of_mem _ hother)
      obtain ⟨x, hx, hshown⟩ := Fallible.bind_eq_ok.mp hfirst
      obtain ⟨hid, hdestination⟩ := hread row List.mem_cons_self x hx
      have hsame := (hnames kind now _ _ shown hshown).trans hdestination
      by_cases hpair : pair row = true
      · have htarget := hsame.mpr hpair
        have hentry : shown = { dto with id := toString (rowId row) } := by
          simp only [sameTarget, decide_eq_true_eq] at htarget
          rw [← hid, ← (relationDto_ok hshown).1, ← htarget.1, ← htarget.2]
        rw [List.filter_cons_of_pos htarget, List.filter_cons_of_pos hpair, List.map_cons, ih, hentry]
      · rw [List.filter_cons_of_neg (mt hsame.mp hpair), List.filter_cons_of_neg hpair, ih]

/-- An account is found under one id, whenever it is looked up. -/
theorem id_of_findAccount (hunique : db.AccountsUnique) {now later : OffsetDateTime} {found : Account}
    (h : findAccount db now accountNanoid = .ok account)
    (h' : findAccount db later accountNanoid = .ok found) : found.id = account.id := by
  have hlookup : ∀ {now account}, findAccount db now accountNanoid = .ok account →
      ∃ row ∈ db.accounts.rows, row.nanoid = accountNanoid ∧ row.id = account.id := by
    intro now account h
    unfold findAccount at h
    split at h
    · next hfound =>
        cases h
        obtain ⟨row, hrow, hnanoid, _, rfl⟩ := AccountReadModel.findByNanoid_some hfound
        exact ⟨row, hrow, hnanoid, rfl⟩
    · cases h
  obtain ⟨row, hrow, hnanoid, hid⟩ := hlookup h
  obtain ⟨other, hother, hnanoid', hid'⟩ := hlookup h'
  rw [← hid, ← hid', hunique.eq_of_nanoid_eq hrow hother (hnanoid'.trans hnanoid.symm)]

/-- A list with an entry for every row of its account shows the rows of a pair. -/
theorem shows_of_rows {list : Outside → String → Db → Result (List RelationDto)}
    {now : OffsetDateTime} (hasSource : AccountId → ρ → Bool) (hdistinct : Distinct db)
    (haccount : findAccount db now accountNanoid = .ok account) (hnames : Names db destination dto)
    (hlist : ∀ reader dtos, list reader accountNanoid db = .ok dtos →
      ∃ found, findAccount db reader.now accountNanoid = .ok found ∧
        checkPermission reader.permission = .ok () ∧ List.Forall₂ (fun row shown =>
          (read row >>= fun x => relationDto kind reader.now db (entryId x) (entryTarget x)) = .ok shown)
            (rows.filter (hasSource found.id)) dtos)
    (hread : ∀ row, hasSource account.id row = true → ∀ x, read row = .ok x →
      entryId x = rowId row ∧ (entryTarget x = destination ↔ pair row = true)) :
    Shows list accountNanoid db dto
      (((rows.filter pair).filter (hasSource account.id)).map fun row =>
        { dto with id := toString (rowId row) }) := by
  intro reader dtos hdtos
  obtain ⟨found, hfound, _, hentries⟩ := hlist reader dtos hdtos
  rw [id_of_findAccount hdistinct.accounts haccount hfound] at hentries
  rw [filter_entries hnames (fun row hrow => hread row (List.mem_filter.mp hrow).2) hentries,
    List.filter_filter, List.filter_filter]
  simp only [Bool.and_comm]

end Entries

/-- A row that is identified is the only one of the pair that is shown. -/
theorem Shows.of_identified {ρ : Type} {list : Outside → String → Db → Result (List RelationDto)}
    {rows : List ρ} {pair listed : ρ → Bool} {rowId : ρ → Int} {id : Int}
    (h : Shows list accountNanoid db dto (((rows.filter pair).filter listed).map fun row =>
      { dto with id := toString (rowId row) }))
    (hlisted : ∀ row, pair row = true → listed row = true) (hidentified : Identified rowId rows pair id)
    (hid : dto.id = toString id) : Shows list accountNanoid db dto [dto] := by
  obtain ⟨row, hrow, rfl⟩ := hidentified
  have hpair : pair row = true := (List.mem_filter.mp (hrow ▸ List.mem_singleton_self row)).2
  rw [hrow, List.filter_cons_of_pos (hlisted row hpair), List.filter_nil, List.map_singleton, ← hid] at h
  exact h

theorem shows_getBlocks (hdistinct : Distinct db) {now : OffsetDateTime} {id : BlockId}
    (haccount : findAccount db now accountNanoid = .ok account) (hnames : Names db destination dto)
    (hidentified : Identified BlockRow.id db.blocks.rows (·.relates (.Local account.id) destination) id)
    (hid : dto.id = toString id) : Shows getBlocks accountNanoid db dto [dto] := by
  refine .of_identified (shows_of_rows (fun accountId row => row.hasBlocker (.Local accountId)) hdistinct
    haccount hnames (fun reader dtos => getBlocks_eq_ok_iff.mp) fun row hblocker block hblock => ?_)
    (fun row hrelates => ?_) hidentified hid
  · obtain ⟨read, hread, hrowId, hrelates⟩ := toBlock_of_hasBlocker hblocker
    obtain rfl : read = block := Except.ok.inj (hread.symm.trans hblock)
    exact ⟨hrowId, fun heq => heq ▸ hrelates, fun hpair => (block_ends_of_relates hrelates hpair).2⟩
  · simp [BlockRow.hasBlocker, (BlockRow.relates_iff.mp hrelates).1.1, TargetId.localId]

theorem shows_getMutes (hdistinct : Distinct db) {now : OffsetDateTime} {id : MuteId}
    (haccount : findAccount db now accountNanoid = .ok account) (hnames : Names db destination dto)
    (hidentified : Identified MuteRow.id db.mutes.rows (·.relates (.Local account.id) destination) id)
    (hid : dto.id = toString id) : Shows getMutes accountNanoid db dto [dto] := by
  refine .of_identified (shows_of_rows (fun accountId row => row.hasMuter (.Local accountId)) hdistinct
    haccount hnames (fun reader dtos => getMutes_eq_ok_iff.mp) fun row hmuter mute hmute => ?_)
    (fun row hrelates => ?_) hidentified hid
  · obtain ⟨read, hread, hrowId, hrelates⟩ := toMute_of_hasMuter hmuter
    obtain rfl : read = mute := Except.ok.inj (hread.symm.trans hmute)
    refine ⟨hrowId, fun heq => heq ▸ hrelates, fun hpair => ?_⟩
    obtain ⟨_, hlocal, hremote⟩ := MuteRow.relates_iff.mp hrelates
    rw [MuteRow.relates_iff, hlocal, hremote, TargetId.columns_eq_iff] at hpair
    exact hpair.2
  · simp [MuteRow.hasMuter, (MuteRow.relates_iff.mp hrelates).1.1, TargetId.localId]

/-- The list of followed accounts has an entry for every approved follow. -/
theorem getFollowing_ok {dtos : List RelationDto} (h : getFollowing outside accountNanoid db = .ok dtos) :
    ∃ account, findAccount db outside.now accountNanoid = .ok account ∧
      checkPermission outside.permission = .ok () ∧
      List.Forall₂ (fun row dto => (row.toFollow >>= fun follow =>
          relationDto "Follow relation" outside.now db follow.id follow.destination) = .ok dto)
        (db.follows.rows.filter fun row =>
          row.hasFollower (.Local account.id) && row.approvedAt.isSome) dtos := by
  simp only [getFollowing, getFollowRelations, listApprovedRelations, Fallible.bind_eq_ok, if_true] at h
  obtain ⟨account, haccount, ⟨⟩, hpermission, follows, hfollows, hdtos⟩ := h
  refine ⟨account, haccount, hpermission,
    Fallible.mapM_bind_mapM_eq_ok.mp (Fallible.bind_eq_ok.mpr ⟨_, ?_, hdtos⟩)⟩
  have hsame : ∀ (row : FollowRow) (follow : Follow), row.toFollow = .ok follow →
      (row.approvedAt.isSome = true ↔ follow.approvedAt.isSome = true) :=
    fun row follow hread => by rw [approvedAt_of_toFollow hread]
  have happroved := List.rel_filter hsame (Fallible.mapM_eq_ok_iff.mp hfollows)
  rw [Table.select, List.filter_filter] at happroved
  rw [Fallible.mapM_eq_ok_iff]
  simpa only [Bool.and_comm] using happroved

theorem shows_getFollowing (hdistinct : Distinct db) {now : OffsetDateTime}
    (haccount : findAccount db now accountNanoid = .ok account) (hnames : Names db destination dto) :
    Shows getFollowing accountNanoid db dto
      (((db.follows.rows.filter (·.relates (.Local account.id) destination)).filter fun row =>
          row.hasFollower (.Local account.id) && row.approvedAt.isSome).map fun row =>
        { dto with id := toString row.id }) := by
  refine shows_of_rows (fun accountId (row : FollowRow) =>
    row.hasFollower (.Local accountId) && row.approvedAt.isSome) hdistinct haccount hnames
    (fun reader dtos => getFollowing_ok) fun row hlisted follow hread => ?_
  obtain ⟨hid, hrelates⟩ := relates_of_toFollow hread
  rw [source_of_hasFollower hread (Bool.and_eq_true_iff.mp hlisted).1] at hrelates
  exact ⟨hid, fun heq => heq ▸ hrelates, fun hpair => (ends_of_relates hrelates hpair).2⟩

/-- A follow that is pending is not listed. -/
theorem shows_pending (hdistinct : Distinct db) {now : OffsetDateTime} {row : FollowRow}
    (haccount : findAccount db now accountNanoid = .ok account) (hnames : Names db destination dto)
    (honly : db.follows.rows.filter (·.relates (.Local account.id) destination) = [row])
    (hpending : row.approvedAt = none) : Shows getFollowing accountNanoid db dto [] := by
  have hshows := shows_getFollowing hdistinct haccount hnames
  rw [honly, List.filter_cons_of_neg (by simp [hpending]), List.filter_nil, List.map_nil] at hshows
  exact hshows

theorem relates_approve {now : OffsetDateTime} {source : TargetId} {row : FollowRow} :
    (approve now source destination row).relates source destination =
      row.relates source destination := by
  unfold approve
  split_ifs <;> rfl

/-- Once it is approved, it is. -/
theorem shows_approved (hdistinct : Distinct db) {now : OffsetDateTime} {row : FollowRow}
    (haccount : findAccount db now accountNanoid = .ok account) (hnames : Names db destination dto)
    (honly : db.follows.rows.filter (·.relates (.Local account.id) destination) = [row])
    (hid : dto.id = toString row.id) (approvedAt : OffsetDateTime) :
    Shows getFollowing accountNanoid
      (approveFollowIfPending db approvedAt (.Local account.id) destination).2 dto
      [dto] := by
  have hrelates := (List.mem_filter.mp (honly ▸ List.mem_singleton_self row)).2
  have happroved : (approve approvedAt (.Local account.id) destination row).approvedAt.isSome = true := by
    unfold approve
    split_ifs with hpending
    · rfl
    · simpa [hrelates, Option.isSome_iff_ne_none] using hpending
  have hrows : (db.follows.rows.map (approve approvedAt (.Local account.id) destination)).filter
      (·.relates (.Local account.id) destination) =
        [approve approvedAt (.Local account.id) destination row] := by
    rw [List.filter_map, ← List.map_singleton, ← honly]
    refine congrArg (List.map _) (List.filter_congr fun other _ => ?_)
    exact relates_approve
  have hshows : Shows getFollowing accountNanoid
      (approveFollowIfPending db approvedAt (.Local account.id) destination).2 dto _ :=
    shows_getFollowing (hdistinct.of_tables rfl rfl) haccount (hnames.of_tables rfl rfl)
  have hfollows : (approveFollowIfPending db approvedAt (.Local account.id) destination).2.follows.rows =
      db.follows.rows.map (approve approvedAt (.Local account.id) destination) := rfl
  rw [hfollows, hrows, List.filter_cons_of_pos, List.filter_nil, List.map_singleton, approve_id,
    ← hid] at hshows
  · exact hshows
  · rw [Bool.and_eq_true]
    exact ⟨hasFollower_of_relates (relates_approve.trans hrelates), happroved⟩

/-! ### Inserts -/

theorem identified_insertBlock {block : Block} (h : BlockRepository.insert db block = .inserted after) :
    Identified BlockRow.id after.blocks.rows (·.relates block.source block.destination) block.id := by
  have hfree := BlockRepository.insert_unrelated h
  obtain rfl := BlockRepository.insert_inserted h
  exact ⟨_, Table.filter_put (relates_ofBlock.mpr ⟨rfl, rfl⟩) fun row hrow =>
    Bool.eq_false_iff.mpr (hfree row hrow), rfl⟩

/-- The transaction of a block removes follows and stores an activity after the insert. -/
theorem identified_blockTransaction {accountId : AccountId} {block : Block} {delivery : Option Delivery}
    {outboxId : Option OutboxActivityId}
    (h : blockTransaction outside accountId block delivery db = .ok (outboxId, after)) :
    after.accounts = db.accounts ∧ after.remoteAccounts = db.remoteAccounts ∧
      Identified BlockRow.id after.blocks.rows (·.relates block.source block.destination) block.id := by
  simp only [blockTransaction, Fallible.bind_eq_ok, reject] at h
  obtain ⟨existing, _, h⟩ := h
  split_ifs at h
  simp only [Fallible.bind_eq_ok] at h
  obtain ⟨created, hcreate, removed, hremove, hstore⟩ := h
  have hinsert := Insertion.orReject_ok hcreate
  have hinserted := identified_insertBlock hinsert
  rw [BlockRepository.insert_inserted hinsert] at hinserted hremove
  rw [storeDelivery_tables hstore, (removeFollowsBetween_ok hremove).1]
  exact ⟨rfl, rfl, hinserted⟩

/-- A row that has the pair or the id has both. -/
def NoneOrSame (source destination : TargetId) (id : MuteId) (db : Db) : Prop :=
  ∀ row ∈ db.mutes.rows, row.relates source destination = true ∨ row.id = id →
    row.relates source destination = true ∧ row.id = id

/-- A mute that is inserted if absent is identified by its id exactly if it was absent, or was there
with this id. -/
theorem identified_insertMute {mute : Mute} {inserted : Bool}
    (h : MuteRepository.insertIfAbsent db mute = .ok (inserted, after)) :
    Identified MuteRow.id after.mutes.rows (·.relates mute.source mute.destination) mute.id ↔
      NoneOrSame mute.source mute.destination mute.id db := by
  simp only [MuteRepository.insertIfAbsent, MuteRepository.insert, insertRelation] at h
  split_ifs at h with hduplicate
  · cases h
    constructor
    · -- the row with the id is the only one of the pair
      rintro ⟨row, hfilter, hid⟩ other hother hsame
      obtain ⟨hrow, hpair⟩ := List.mem_filter.mp (hfilter ▸ List.mem_singleton_self row)
      rcases hsame with hrelates | hotherId
      · have hmem : other ∈ db.mutes.rows.filter (·.relates mute.source mute.destination) :=
          List.mem_filter.mpr ⟨hother, hrelates⟩
        rw [hfilter, List.mem_singleton] at hmem
        exact ⟨hrelates, hmem ▸ hid⟩
      · rw [db.mutes.eq_of_key_eq hother hrow (hotherId.trans hid.symm)]
        exact ⟨hpair, hid⟩
    · intro hsame
      obtain ⟨row, hrow, hmatch⟩ : ∃ row ∈ db.mutes.rows,
          row.relates mute.source mute.destination = true ∨ row.id = mute.id := by
        rw [Bool.or_eq_true] at hduplicate
        rcases hduplicate with hcontains | hany
        · obtain ⟨row, hget⟩ := Option.isSome_iff_exists.mp hcontains
          exact ⟨row, (Table.get_eq_some_iff.mp hget).1, .inr (Table.get_eq_some_iff.mp hget).2⟩
        · obtain ⟨row, hrow, hrelates⟩ := List.any_eq_true.mp hany
          exact ⟨row, hrow, .inl hrelates⟩
      obtain ⟨hpair, hid⟩ := hsame row hrow hmatch
      refine ⟨row, Table.filter_eq_singleton hrow hpair fun other hother hrelates => ?_, hid⟩
      exact db.mutes.eq_of_key_eq hother hrow
        ((hsame other hother (.inl hrelates)).2.trans hid.symm)
  · cases h
    rw [Bool.or_eq_true, not_or, Bool.not_eq_true, Bool.not_eq_true, List.any_eq_false] at hduplicate
    refine iff_of_true ⟨_, Table.filter_put (relates_ofMute.mpr ⟨rfl, rfl⟩) fun row hrow =>
      Bool.eq_false_iff.mpr (hduplicate.2 row hrow), rfl⟩ fun row hrow hmatch => ?_
    rcases hmatch with hrelates | hid
    · exact absurd hrelates (hduplicate.2 row hrow)
    · have hcontains : db.mutes.contains mute.id = false := hduplicate.1
      rw [Table.contains, Table.get_eq_some_iff.mpr ⟨hrow, hid⟩] at hcontains
      cases hcontains
  · cases h

/-! ### The use cases -/

/-- The mutes stay. -/
def SameMutes (before after : Db) : Prop := after.mutes = before.mutes

instance : IsPreorder Db SameMutes where
  refl _ := rfl
  trans _ _ _ hab hbc := Eq.trans hbc hab

theorem sameMutes_resolveMuteTarget (server : Server) (outside : Outside) (target : String) :
    Moves SameMutes (resolveMuteTarget server outside target) := by
  refine .bind (.bind (.read _) fun found => ?_) fun _ => .pure _
  cases found with
  | some account => exact .pure _
  | none =>
      refine .bind (.lift _) fun actor => .bind (.atomically fun db _ after h => ?_) fun _ => .pure _
      rw [SameMutes, (upsertRemoteAccount_ok h).1]

theorem onlyOutbox_storeDelivered {accountId : AccountId} {activity : Activity} {result : Unit}
    (h : storeDelivered outside accountId activity db = (.ok result, after)) : OnlyOutbox db after := by
  replace h := exec_eq_ok.mp h
  split at h
  · next hcreate =>
      cases h
      obtain ⟨_, _, rfl⟩ := outboxCreate_ok hcreate
      rfl
  · cases h

theorem blockAccount_ok (haccount : findAccount db outside.now accountNanoid = .ok account)
    (hok : blockAccount server outside accountNanoid target db = (.ok dto, after)) :
    ∃ resolved mid, resolveBlockTarget server outside target db = (.ok resolved, mid) ∧
      dto = ⟨toString outside.relationId, resolved.typeName, resolved.name⟩ ∧
      after.accounts = mid.accounts ∧ after.remoteAccounts = mid.remoteAccounts ∧
      Identified BlockRow.id after.blocks.rows (·.relates (.Local account.id) resolved.id)
        outside.relationId := by
  obtain ⟨found, _, hread, hok⟩ := bind_eq_ok.mp hok
  obtain ⟨hfound, rfl⟩ := read_eq_ok.mp hread
  obtain rfl : account = found := Except.ok.inj (haccount.symm.trans hfound)
  obtain ⟨_, _, hpermission, hok⟩ := bind_eq_ok.mp hok
  obtain ⟨_, rfl⟩ := lift_eq_ok.mp hpermission
  obtain ⟨resolved, mid, hresolved, hok⟩ := bind_eq_ok.mp hok
  obtain ⟨block, _, hlift, hok⟩ := bind_eq_ok.mp hok
  obtain ⟨hblock, rfl⟩ := lift_eq_ok.mp hlift
  rw [reject, ite_eq_iff'] at hblock
  replace hblock := hblock.2 fun hself => by cases hblock.1 hself
  obtain ⟨hsource, hdestination⟩ := Block.new_ok hblock
  obtain ⟨outboxId, stored, htransaction, hok⟩ := bind_eq_ok.mp hok
  obtain ⟨_, delivered, hdeliver, hok⟩ := bind_eq_ok.mp hok
  obtain ⟨rfl, rfl⟩ := pure_eq_ok.mp hok
  have hinserted := identified_blockTransaction (atomically_eq_ok.mp htransaction)
  rw [hsource, hdestination, Block.new_id hblock] at hinserted
  have hkept := onlyOutbox_deliverStored outside outboxId
    (resolved.blockDelivery server block.id (localActorUrl server.publicBaseUrl account.nanoid)) stored
  rw [hdeliver] at hkept
  refine ⟨resolved, mid, hresolved, by rw [Block.new_id hblock], ?_⟩
  rw [show delivered = _ from hkept]
  exact hinserted

theorem sendFollow_ok {dto : SendFollowResultDto}
    (haccount : findAccount db outside.now accountNanoid = .ok account)
    (hok : sendFollow server outside accountNanoid target db = (.ok dto, after)) :
    ∃ actor remote mid row, resolveRemoteActorIdentifier server outside target = .ok actor ∧
      upsertRemoteAccount outside actor db = .ok (remote, mid) ∧
      followEntry dto = ⟨toString outside.relationId, "remote", remote.url⟩ ∧
      after.accounts = mid.accounts ∧ after.remoteAccounts = mid.remoteAccounts ∧
      after.follows.rows.filter (·.relates (.Local account.id) (.Remote remote.id)) = [row] ∧
      row.id = outside.relationId ∧ row.approvedAt = none := by
  obtain ⟨found, _, hread, hok⟩ := bind_eq_ok.mp hok
  obtain ⟨hfound, rfl⟩ := read_eq_ok.mp hread
  obtain rfl : account = found := Except.ok.inj (haccount.symm.trans hfound)
  obtain ⟨_, _, hpermission, hok⟩ := bind_eq_ok.mp hok
  obtain ⟨_, rfl⟩ := lift_eq_ok.mp hpermission
  obtain ⟨actor, _, hlift, hok⟩ := bind_eq_ok.mp hok
  obtain ⟨hactor, rfl⟩ := lift_eq_ok.mp hlift
  obtain ⟨remote, mid, hupsert, hok⟩ := bind_eq_ok.mp hok
  obtain ⟨existing, _, hexisting, hok⟩ := bind_eq_ok.mp hok
  obtain ⟨_, rfl⟩ := read_eq_ok.mp hexisting
  obtain ⟨follow, _, hlift, hok⟩ := bind_eq_ok.mp hok
  obtain ⟨hfollow, rfl⟩ := lift_eq_ok.mp hlift
  rw [reject, ite_eq_iff'] at hfollow
  replace hfollow := hfollow.2 fun hself => by cases hfollow.1 hself
  obtain ⟨hsource, hdestination⟩ := Follow.new_ok hfollow
  obtain ⟨_, created, hcreate, hok⟩ := bind_eq_ok.mp hok
  have hinsert := Insertion.orReject_ok (exec_eq_ok.mp hcreate)
  have honly : (mid.follows.put (.ofFollow follow)).rows.filter
      (·.relates follow.source follow.destination) = [.ofFollow follow] :=
    Table.filter_put (relates_ofFollow.mpr ⟨rfl, rfl⟩)
      fun row hrow => Bool.eq_false_iff.mpr (FollowRepository.insert_unrelated hinsert row hrow)
  rw [hsource, hdestination] at honly
  obtain rfl := FollowRepository.insert_inserted hinsert
  cases hdeliver : deliverTo outside remote (outboundFollow server account remote follow) with
  | error report =>
      simp only [hdeliver] at hok
      obtain ⟨_, _, _, hok⟩ := bind_eq_ok.mp hok
      cases hok
  | ok _ =>
      simp only [hdeliver] at hok
      obtain ⟨_, stored, hstore, hok⟩ := bind_eq_ok.mp hok
      obtain ⟨rfl, rfl⟩ := pure_eq_ok.mp hok
      refine ⟨actor, remote, mid, .ofFollow follow, hactor, atomically_eq_ok.mp hupsert,
        by rw [followEntry, Follow.new_id hfollow], ?_⟩
      rw [show stored = _ from onlyOutbox_storeDelivered hstore]
      exact ⟨rfl, rfl, honly, Follow.new_id hfollow, Follow.new_approvedAt hfollow⟩

theorem muteAccount_ok (haccount : findAccount db outside.now accountNanoid = .ok account)
    (hok : muteAccount server outside accountNanoid target db = (.ok dto, after)) :
    ∃ resolved mid, resolveBlockTarget server outside target db = (.ok resolved, mid) ∧
      dto = ⟨toString outside.relationId, resolved.typeName, resolved.name⟩ ∧
      after.accounts = mid.accounts ∧ after.remoteAccounts = mid.remoteAccounts ∧
      (Identified MuteRow.id after.mutes.rows (·.relates (.Local account.id) resolved.id)
          outside.relationId ↔
        NoneOrSame (.Local account.id) resolved.id outside.relationId db) := by
  obtain ⟨found, _, hread, hok⟩ := bind_eq_ok.mp hok
  obtain ⟨hfound, rfl⟩ := read_eq_ok.mp hread
  obtain rfl : account = found := Except.ok.inj (haccount.symm.trans hfound)
  obtain ⟨_, _, hpermission, hok⟩ := bind_eq_ok.mp hok
  obtain ⟨_, rfl⟩ := lift_eq_ok.mp hpermission
  obtain ⟨_, _, hmuted, hok⟩ := bind_eq_ok.mp hok
  have hkept := sameMutes_resolveMuteTarget server outside target db
  rw [hmuted] at hkept
  obtain ⟨resolved, mid, hresolved, hpure⟩ := bind_eq_ok.mp hmuted
  obtain ⟨rfl, rfl⟩ := pure_eq_ok.mp hpure
  obtain ⟨mute, _, hlift, hok⟩ := bind_eq_ok.mp hok
  obtain ⟨hmute, rfl⟩ := lift_eq_ok.mp hlift
  rw [reject, ite_eq_iff'] at hmute
  replace hmute := hmute.2 fun hself => by cases hmute.1 hself
  obtain ⟨inserted, stored, hinsert, hok⟩ := bind_eq_ok.mp hok
  obtain ⟨rfl, rfl⟩ := pure_eq_ok.mp hok
  replace hinsert := atomically_eq_ok.mp hinsert
  have hinserted := identified_insertMute hinsert
  obtain ⟨hsource, hdestination, hid⟩ := Mute.new_ok hmute
  rw [hsource, hdestination, hid, NoneOrSame, show mid.mutes = db.mutes from hkept] at hinserted
  have htables : stored.accounts = mid.accounts ∧ stored.remoteAccounts = mid.remoteAccounts := by
    rcases Insertion.orAbsent_ok hinsert with ⟨_, hnew⟩ | ⟨_, rfl⟩
    · obtain ⟨_, _, _, rfl⟩ := insertRelation_inserted hnew
      exact ⟨rfl, rfl⟩
    · exact ⟨rfl, rfl⟩
  refine ⟨resolved, mid, hresolved, ?_, htables.1, htables.2, hinserted⟩
  rw [hid]
  cases resolved <;> rfl

/-- The id that a block returns is always that of the one row of its pair, and the list of blocks shows
it. So it is with the id of a follow, except that the list shows no pending follow. The id that a mute
returns is so exactly if no row had the pair or the id, or the one that had them had both. -/
theorem relation_ids_iff (server : Server) (outside : Outside) (accountNanoid target : String) (db : Db)
    (hdistinct : Distinct db) (account : Account)
    (haccount : findAccount db outside.now accountNanoid = .ok account) (destination : TargetId) :
    (∀ dto after, (UseCase.blockAccount.resolve server outside target db).1 = .ok destination →
      blockAccount server outside accountNanoid target db = (.ok dto, after) →
      dto.id = toString outside.relationId ∧
        Identified BlockRow.id after.blocks.rows (·.relates (.Local account.id) destination)
          outside.relationId ∧
        Shows getBlocks accountNanoid after dto [dto]) ∧
    (∀ dto after, (UseCase.sendFollow.resolve server outside target db).1 = .ok destination →
      sendFollow server outside accountNanoid target db = (.ok dto, after) →
      dto.followId = toString outside.relationId ∧
        Identified FollowRow.id after.follows.rows (·.relates (.Local account.id) destination)
          outside.relationId ∧
        Shows getFollowing accountNanoid after (followEntry dto) [] ∧
        ∀ approvedAt, Shows getFollowing accountNanoid
          (approveFollowIfPending after approvedAt (.Local account.id) destination).2 (followEntry dto)
          [followEntry dto]) ∧
    ∀ dto after, (UseCase.muteAccount.resolve server outside target db).1 = .ok destination →
      muteAccount server outside accountNanoid target db = (.ok dto, after) →
      dto.id = toString outside.relationId ∧
        (Identified MuteRow.id after.mutes.rows (·.relates (.Local account.id) destination)
            outside.relationId ∧
          Shows getMutes accountNanoid after dto [dto] ↔
        NoneOrSame (.Local account.id) destination outside.relationId db) := by
  have hlater : ∀ {after : Db}, after.accounts = db.accounts →
      findAccount after outside.now accountNanoid = .ok account := by
    intro after haccounts
    rw [← haccount, findAccount, findAccount, AccountReadModel.findByNanoid,
      AccountReadModel.findByNanoid, AccountReadModel.findVisible, AccountReadModel.findVisible, haccounts]
  refine ⟨fun dto after hresolve hok => ?_, fun dto after hresolve hok => ?_,
    fun dto after hresolve hok => ?_⟩
  · obtain ⟨resolved, mid, hresolved, rfl, haccounts, hremotes, hidentified⟩ := blockAccount_ok haccount hok
    obtain rfl : resolved.id = destination := by
      rw [UseCase.resolve, bind_of_ok hresolved] at hresolve
      exact Except.ok.inj hresolve
    obtain ⟨hmid, hsame, hnames⟩ :=
      resolveBlockTarget_names hdistinct hresolved (toString outside.relationId)
    exact ⟨rfl, hidentified, shows_getBlocks (hmid.of_tables haccounts hremotes)
      (hlater (haccounts.trans hsame)) (hnames.of_tables haccounts hremotes) hidentified rfl⟩
  · obtain ⟨actor, remote, mid, row, hactor, hupsert, hentry, haccounts, hremotes, honly, hid, hpending⟩ :=
      sendFollow_ok haccount hok
    obtain rfl : .Remote remote.id = destination := by
      rw [UseCase.resolve, bind_of_ok (lift_eq_ok.mpr ⟨hactor, rfl⟩),
        bind_of_ok (atomically_eq_ok.mpr hupsert)] at hresolve
      exact Except.ok.inj hresolve
    obtain ⟨hmid, hsame, hnames⟩ := upsert_names hdistinct hupsert (toString outside.relationId)
    rw [← hentry] at hnames
    have hafter := hmid.of_tables haccounts hremotes
    have hfound := hlater (haccounts.trans hsame)
    have hnamesAfter := hnames.of_tables haccounts hremotes
    have hfollowId : dto.followId = toString outside.relationId := congrArg RelationDto.id hentry
    exact ⟨hfollowId, ⟨row, honly, hid⟩, shows_pending hafter hfound hnamesAfter honly hpending,
      shows_approved hafter hfound hnamesAfter honly (hid ▸ hfollowId)⟩
  · obtain ⟨resolved, mid, hresolved, rfl, haccounts, hremotes, hidentified⟩ := muteAccount_ok haccount hok
    obtain rfl : resolved.id = destination := by
      rw [UseCase.resolve, resolveMuteTarget, bind_assoc, bind_of_ok hresolved] at hresolve
      exact Except.ok.inj hresolve
    obtain ⟨hmid, hsame, hnames⟩ :=
      resolveBlockTarget_names hdistinct hresolved (toString outside.relationId)
    refine ⟨rfl, Iff.trans (and_iff_left_of_imp fun hrow => ?_) hidentified⟩
    exact shows_getMutes (hmid.of_tables haccounts hremotes) (hlater (haccounts.trans hsame))
      (hnames.of_tables haccounts hremotes) hrow rfl

open Exclusion

/-- Alice mutes Bob, with ids generated from the given one. -/
def aliceMutes (id : Int) (db : Db) : Except Report RelationDto × Db :=
  muteAccount localServer (answering 1 id) "alice-nanoid" bobUrl db

theorem distinct_aliceDb : Distinct aliceDb where
  accounts := by decide +kernel
  urls _ hremote := by cases hremote

theorem relation_ids_firstMute :
    let first := aliceMutes 10 aliceDb
    let muted : RelationDto := { id := "11", targetType := "remote", target := bobUrl }
    first.1 = .ok muted ∧ NoneOrSame (.Local 7) (.Remote 10) 11 aliceDb ∧
      Identified MuteRow.id first.2.mutes.rows (·.relates (.Local 7) (.Remote 10)) 11 ∧
      Shows getMutes "alice-nanoid" first.2 muted [muted] := by
  have hmuted : (aliceMutes 10 aliceDb).1 =
      .ok { id := "11", targetType := "remote", target := bobUrl } := by
    rfl
  have hnone : NoneOrSame (.Local 7) (.Remote 10) 11 aliceDb := fun row hrow => by cases hrow
  refine ⟨hmuted, hnone, ?_⟩
  have hparts := relation_ids_iff localServer (answering 1 10) "alice-nanoid" bobUrl aliceDb
    distinct_aliceDb Exclusion.alice (by rfl) (.Remote 10)
  exact (hparts.2.2 _ _ (by rfl) (Prod.ext hmuted rfl)).2.mpr hnone

/-- The second mute returns the id it generated; the row keeps that of the first, and so does the
list. -/
theorem second_mute_returns_unstored_id :
    let first := aliceMutes 10 aliceDb
    let second := aliceMutes 20 first.2
    (first.1.toOption.map (·.id), second.1.toOption.map (·.id)) = (some "11", some "21") ∧
      (second.2.mutes.rows.filter (·.relates (.Local 7) (.Remote 10))).map (·.id) = [11] ∧
      getMutes (answering 2 30) "alice-nanoid" second.2 =
        .ok [{ id := "11", targetType := "remote", target := bobUrl }] ∧
      ¬Identified MuteRow.id second.2.mutes.rows (·.relates (.Local 7) (.Remote 10)) 21 := by
  have hrows : ((aliceMutes 20 (aliceMutes 10 aliceDb).2).2.mutes.rows.filter
      (·.relates (.Local 7) (.Remote 10))).map (·.id) = [11] := by
    decide +kernel
  refine ⟨by decide +kernel, hrows, by decide +kernel, ?_⟩
  rintro ⟨row, hfilter, hid⟩
  rw [hfilter, List.map_singleton, hid] at hrows
  exact absurd hrows (by decide)

end RelationIds

end Emumet

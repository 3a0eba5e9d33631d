import Emumet.DriverVisibility
import Emumet.ProjectorCoverage
import Emumet.ServiceMute
import Emumet.ServiceStreams
import Emumet.ServiceUndo

/-! The lists of blocked and muted accounts. Every row of a list is looked up by the id of its target
with the lookup that hides suspended, banned and deactivated accounts, and is removed by a text that is
looked up the same way, so a list works as long as its local targets are visible. -/

namespace Emumet

namespace RelationLists

open Relations Session

/-! ### What the constraints keep -/

/-- The columns of the unique indexes of `blocks`. -/
def blockEnds (row : BlockRow) : (Option AccountId × Option RemoteAccountId) ×
    (Option AccountId × Option RemoteAccountId) :=
  ((row.blockerLocalId, row.blockerRemoteId), (row.blockedLocalId, row.blockedRemoteId))

/-- The columns of the unique indexes of `mutes`. -/
def muteEnds (row : MuteRow) : (Option AccountId × Option RemoteAccountId) ×
    (Option AccountId × Option RemoteAccountId) :=
  ((row.muterLocalId, row.muterRemoteId), (row.mutedLocalId, row.mutedRemoteId))

/-- The unique indexes on accounts, blocks and mutes, and the foreign keys to remote accounts. -/
structure Consistent (db : Db) : Prop where
  accounts : db.AccountsUnique
  blockPairs : ∀ row ∈ db.blocks.rows, ∀ other ∈ db.blocks.rows, blockEnds row = blockEnds other →
    row = other
  mutePairs : ∀ row ∈ db.mutes.rows, ∀ other ∈ db.mutes.rows, muteEnds row = muteEnds other → row = other
  blockRemotes : ∀ row ∈ db.blocks.rows, ∀ id ∈ row.blockedRemoteId,
    (RemoteAccountRepository.findById db id).isSome = true
  muteRemotes : ∀ row ∈ db.mutes.rows, ∀ id ∈ row.mutedRemoteId,
    (RemoteAccountRepository.findById db id).isSome = true

theorem blockRelates_iff {row : BlockRow} {source destination : TargetId} :
    row.relates source destination = true ↔ blockEnds row =
      ((source.localId, source.remoteId), (destination.localId, destination.remoteId)) := by
  simp [BlockRow.relates, blockEnds, and_assoc]

theorem muteRelates_iff {row : MuteRow} {source destination : TargetId} :
    row.relates source destination = true ↔ muteEnds row =
      ((source.localId, source.remoteId), (destination.localId, destination.remoteId)) := by
  simp [MuteRow.relates, muteEnds, and_assoc]

/-- The two columns of an end that satisfies its check. -/
theorem exists_target {localId : Option AccountId} {remoteId : Option RemoteAccountId}
    (h : localId.isSome ≠ remoteId.isSome) : ∃ target, TargetId.ofColumns localId remoteId = some target ∧
      localId = target.localId ∧ remoteId = target.remoteId := by
  cases localId with
  | some accountId =>
      cases remoteId with
      | some _ => exact absurd rfl h
      | none => exact ⟨.Local accountId, rfl, rfl, rfl⟩
  | none =>
      cases remoteId with
      | some remoteAccountId => exact ⟨.Remote remoteAccountId, rfl, rfl, rfl⟩
      | none => exact absurd rfl h

theorem eq_local_of_localId {target : TargetId} {accountId : AccountId}
    (h : target.localId = some accountId) : target = .Local accountId := by
  cases target with
  | Local _ => exact congrArg TargetId.Local (Option.some.inj h)
  | Remote _ => cases h

/-- A row of a local account is read back. -/
theorem toBlock_of_hasBlocker {row : BlockRow} {accountId : AccountId}
    (h : row.hasBlocker (.Local accountId) = true) :
    ∃ block, row.toBlock = .ok block ∧ block.id = row.id ∧
      row.relates (.Local accountId) block.destination = true := by
  obtain ⟨source, hsource, hlocal, hremote⟩ := exists_target row.chkBlockerExclusive
  obtain ⟨destination, hdestination, hlocal', hremote'⟩ := exists_target row.chkBlockedExclusive
  simp only [BlockRow.hasBlocker, decide_eq_true_eq] at h
  obtain rfl := eq_local_of_localId (hlocal.symm.trans h)
  refine ⟨⟨row.id, .Local accountId, destination, rfl⟩, ?_, rfl, ?_⟩
  · simp only [BlockRow.toBlock, hsource, hdestination]
    rfl
  · simp [BlockRow.relates, hlocal, hremote, hlocal', hremote']

theorem toMute_of_hasMuter {row : MuteRow} {accountId : AccountId}
    (h : row.hasMuter (.Local accountId) = true) :
    ∃ mute, row.toMute = .ok mute ∧ mute.id = row.id ∧
      row.relates (.Local accountId) mute.destination = true := by
  obtain ⟨source, hsource, hlocal, hremote⟩ := exists_target row.chkMuterExclusive
  obtain ⟨destination, hdestination, hlocal', hremote'⟩ := exists_target row.chkMutedExclusive
  simp only [MuteRow.hasMuter, decide_eq_true_eq] at h
  obtain rfl := eq_local_of_localId (hlocal.symm.trans h)
  refine ⟨⟨row.id, .Local accountId, destination, rfl⟩, ?_, rfl, ?_⟩
  · simp only [MuteRow.toMute, hsource, hdestination]
    rfl
  · simp [MuteRow.relates, hlocal, hremote, hlocal', hremote']

/-! ### Entries -/

variable {server : Server} {outside : Outside} {accountNanoid : String} {db : Db} {account : Account}

/-- An entry is listed when its target is found. -/
theorem relationDto_isOk (kind : String) (now : OffsetDateTime) (id : Int) (target : TargetId)
    (hlocal : ∀ accountId, target = .Local accountId → AccountReadModel.findById db now accountId ≠ none)
    (hremote : ∀ remoteAccountId, target = .Remote remoteAccountId →
      (RemoteAccountRepository.findById db remoteAccountId).isSome = true) :
    ∃ dto, relationDto kind now db id target = .ok dto ∧ dto.id = toString id ∧
      (dto.targetType = "local" → ∃ accountId found, target = .Local accountId ∧
        AccountReadModel.findById db now accountId = some found ∧ dto.target = found.nanoid) := by
  cases target with
  | Local accountId =>
      obtain ⟨found, hfound⟩ := Option.ne_none_iff_exists'.mp (hlocal accountId rfl)
      refine ⟨{ id := toString id, targetType := "local", target := found.nanoid }, ?_, rfl, ?_⟩
      · rw [relationDto, hfound]
      · exact fun _ => ⟨accountId, found, rfl, hfound, rfl⟩
  | Remote remoteAccountId =>
      obtain ⟨remote, hfound⟩ := Option.isSome_iff_exists.mp (hremote remoteAccountId rfl)
      refine ⟨{ id := toString id, targetType := "remote", target := remote.url }, ?_, rfl, ?_⟩
      · rw [relationDto, hfound]
      · intro htype
        exact absurd (show "remote" = "local" from htype) (by decide)

/-- What an entry was read from. -/
theorem relationDto_ok {kind : String} {now : OffsetDateTime} {id : Int} {target : TargetId}
    {dto : RelationDto} (h : relationDto kind now db id target = .ok dto) :
    dto.id = toString id ∧
      ((∃ accountId found, target = .Local accountId ∧ dto.targetType = "local" ∧
          AccountReadModel.findById db now accountId = some found ∧ dto.target = found.nanoid) ∨
        ∃ remote ∈ db.remoteAccounts.rows, target = .Remote remote.id ∧ dto.targetType = "remote" ∧
          dto.target = remote.url) := by
  cases target with
  | Local accountId =>
      cases hfound : AccountReadModel.findById db now accountId with
      | none =>
          rw [relationDto, hfound] at h
          cases h
      | some found =>
          rw [relationDto, hfound] at h
          cases h
          exact ⟨rfl, .inl ⟨accountId, found, rfl, rfl, hfound, rfl⟩⟩
  | Remote remoteAccountId =>
      cases hfound : RemoteAccountRepository.findById db remoteAccountId with
      | none =>
          rw [relationDto, hfound] at h
          cases h
      | some remote =>
          rw [relationDto, hfound] at h
          cases h
          obtain ⟨hstored, rfl⟩ := Table.get_eq_some_iff.mp hfound
          exact ⟨rfl, .inr ⟨remote, hstored, rfl, rfl, rfl⟩⟩

/-- A visible account is found by its nanoid as by its id. -/
theorem findByNanoid_of_findById (hunique : db.AccountsUnique) {now : OffsetDateTime}
    {accountId : AccountId} {found : Account}
    (h : AccountReadModel.findById db now accountId = some found) :
    AccountReadModel.findByNanoid db now found.nanoid = some found ∧ found.id = accountId := by
  obtain ⟨row, hrow, rfl, _, rfl⟩ := AccountReadModel.findById_some h
  refine ⟨?_, rfl⟩
  rw [← h, AccountReadModel.findById_eq now hrow]
  exact AccountReadModel.findByNanoid_eq now hunique hrow

/-- A listed target resolves to the account. -/
theorem resolveBlockTarget_of_findById (hunique : db.AccountsUnique) {accountId : AccountId}
    {found : Account} (h : AccountReadModel.findById db outside.now accountId = some found) :
    resolveBlockTarget server outside found.nanoid db = (.ok (.Local found), db) := by
  have hread := (findByNanoid_of_findById hunique h).1
  exact bind_eq_ok.mpr ⟨some found, db, read_eq_ok.mpr ⟨congrArg Except.ok hread, rfl⟩, rfl⟩

/-! ### Removing what is listed -/

/-- The block a row is read back as is found among the blocks of its account by its destination. -/
theorem find_listed (hconsistent : Consistent db) {row : BlockRow} (hrow : row ∈ db.blocks.rows)
    {target : TargetId} (hrelates : row.relates (.Local account.id) target = true) :
    ∃ blocks block, BlockRepository.findBlocks db (.Local account.id) = .ok blocks ∧
      blocks.find? (·.destination = target) = some block ∧ block.id = row.id := by
  have hread : ∀ other ∈ db.blocks.select (·.hasBlocker (.Local account.id)), ∃ block,
      other.toBlock = .ok block := fun other hother => by
    obtain ⟨block, hblock, _⟩ := toBlock_of_hasBlocker (List.mem_filter.mp hother).2
    exact ⟨block, hblock⟩
  obtain ⟨blocks, hblocks⟩ := Fallible.exists_forall₂ hread
  have hfind : BlockRepository.findBlocks db (.Local account.id) = .ok blocks :=
    Fallible.mapM_eq_ok_iff.mpr hblocks
  -- whatever is found was read from a row with the same ends
  have hsame : ∀ block ∈ blocks, block.destination = target → block.id = row.id := by
    intro block hblock hdestination
    obtain ⟨other, hother, hok⟩ := Fallible.exists_of_mem_results hfind hblock
    obtain ⟨hmem, hblocker⟩ := List.mem_filter.mp hother
    obtain ⟨read, hread, hid, hends⟩ := toBlock_of_hasBlocker hblocker
    obtain rfl : read = block := Except.ok.inj (hread.symm.trans hok)
    rw [hdestination] at hends
    rw [hid, hconsistent.blockPairs other hmem row hrow
      ((blockRelates_iff.mp hends).trans (blockRelates_iff.mp hrelates).symm)]
  have hblocker : row.hasBlocker (.Local account.id) = true := by
    rw [BlockRow.relates_iff] at hrelates
    simp [BlockRow.hasBlocker, hrelates.1.1, TargetId.localId]
  obtain ⟨listed, hlisted, hends⟩ := Fallible.exists_of_mapM_eq_ok hfind
    (List.mem_filter.mpr ⟨hrow, hblocker⟩)
  obtain ⟨block, hblock⟩ : ∃ block, blocks.find? (·.destination = target) = some block := by
    rw [← Option.isSome_iff_exists, List.find?_isSome]
    obtain ⟨read, hread, _, hreadEnds⟩ := toBlock_of_hasBlocker hblocker
    obtain rfl : read = listed := Except.ok.inj (hread.symm.trans hends)
    exact ⟨read, hlisted, by simpa using (block_ends_of_relates hreadEnds hrelates).2⟩
  refine ⟨blocks, block, hfind, hblock, hsame block (List.mem_of_find?_eq_some hblock) ?_⟩
  simpa using List.find?_some hblock

theorem unblock_listed (hconsistent : Consistent db)
    (haccount : findAccount db outside.now accountNanoid = .ok account)
    (hpermission : outside.permission = .ok true) {row : BlockRow} (hrow : row ∈ db.blocks.rows)
    {accountId : AccountId} (hrelates : row.relates (.Local account.id) (.Local accountId) = true)
    {found : Account} (hfound : AccountReadModel.findById db outside.now accountId = some found) :
    unblockAccount server outside accountNanoid found.nanoid db =
      (.ok (), { db with blocks := db.blocks.erase row.id }) := by
  obtain ⟨blocks, block, hblocks, hfind, hid⟩ := find_listed hconsistent hrow hrelates
  have hresolved : resolveBlockTarget server outside found.nanoid db = (.ok (.Local found), db) :=
    resolveBlockTarget_of_findById hconsistent.accounts hfound
  have htarget := (findByNanoid_of_findById hconsistent.accounts hfound).2
  have htransaction : unblockTransaction server outside account (.Local found) db =
      .ok ((none, none), { db with blocks := db.blocks.erase row.id }) := by
    have hcontains : db.blocks.contains block.id = true := by
      rw [hid, Table.contains, Table.get_eq_some_iff.mpr ⟨hrow, rfl⟩]
      rfl
    simp only [unblockTransaction, hblocks, BlockTarget.id, htarget, Fallible.bind_eq_ok]
    refine ⟨blocks, rfl, ?_⟩
    rw [hfind]
    simp only [Fallible.bind_eq_ok, BlockRepository.delete, if_pos hcontains]
    exact ⟨_, rfl, _, rfl, by rw [hid]; rfl⟩
  have hbegin : beginUnblock server outside accountNanoid found.nanoid db =
      (.ok (account, .Local found), db) :=
    (beginUnblock_eq_ok server outside).mpr ⟨haccount, by rw [hpermission]; rfl, hresolved⟩
  refine bind_eq_ok.mpr ⟨_, db, hbegin, ?_⟩
  exact bind_eq_ok.mpr ⟨(none, none), _, atomically_eq_ok.mpr htransaction, rfl⟩

theorem unmute_listed (hconsistent : Consistent db)
    (haccount : findAccount db outside.now accountNanoid = .ok account)
    (hpermission : outside.permission = .ok true) {row : MuteRow} (hrow : row ∈ db.mutes.rows)
    {accountId : AccountId} (hrelates : row.relates (.Local account.id) (.Local accountId) = true)
    {found : Account} (hfound : AccountReadModel.findById db outside.now accountId = some found) :
    unmuteAccount server outside accountNanoid found.nanoid db =
      (.ok (), { db with mutes := db.mutes.erase row.id }) := by
  have hresolved : resolveMuteTarget server outside found.nanoid db =
      (.ok (.Local accountId, found.nanoid), db) := by
    refine bind_eq_ok.mpr ⟨_, db, resolveBlockTarget_of_findById hconsistent.accounts hfound, ?_⟩
    rw [← (findByNanoid_of_findById hconsistent.accounts hfound).2]
    rfl
  -- the ends of a mute are those of one row only
  have honly : db.mutes.deleteWhere (·.relates (.Local account.id) (.Local accountId)) =
      db.mutes.erase row.id := by
    refine Table.deleteWhere_congr fun other hother => ?_
    rw [Bool.eq_iff_iff, decide_eq_true_eq]
    constructor
    · intro hends
      rw [hconsistent.mutePairs other hother row hrow
        ((muteRelates_iff.mp hends).trans (muteRelates_iff.mp hrelates).symm)]
    · intro hid
      rw [db.mutes.eq_of_key_eq hother hrow hid]
      exact hrelates
  refine bind_eq_ok.mpr ⟨account, db, read_eq_ok.mpr ⟨haccount, rfl⟩, ?_⟩
  refine bind_eq_ok.mpr ⟨(), db, lift_eq_ok.mpr ⟨by rw [hpermission]; rfl, rfl⟩, ?_⟩
  refine bind_eq_ok.mpr ⟨_, db, hresolved, exec_eq_ok.mpr ?_⟩
  rw [MuteRepository.deleteIfExists, honly]

/-! ### Lists that can be used -/

/-- The list of blocks has one entry for each row of the account, and a local target it shows removes
exactly the row it stands for. -/
def BlocksUsable (server : Server) (outside : Outside) (accountNanoid : String) (account : Account)
    (db : Db) : Prop :=
  ∃ dtos, getBlocks outside accountNanoid db = .ok dtos ∧
    List.Forall₂ (fun row dto => dto.id = toString row.id ∧ (dto.targetType = "local" →
        unblockAccount server outside accountNanoid dto.target db =
          (.ok (), { db with blocks := db.blocks.erase row.id })))
      (db.blocks.select (·.hasBlocker (.Local account.id))) dtos

def MutesUsable (server : Server) (outside : Outside) (accountNanoid : String) (account : Account)
    (db : Db) : Prop :=
  ∃ dtos, getMutes outside accountNanoid db = .ok dtos ∧
    List.Forall₂ (fun row dto => dto.id = toString row.id ∧ (dto.targetType = "local" →
        unmuteAccount server outside accountNanoid dto.target db =
          (.ok (), { db with mutes := db.mutes.erase row.id })))
      (db.mutes.select (·.hasMuter (.Local account.id))) dtos

/-- Every local account the account blocks is visible. -/
def BlockedVisible (now : OffsetDateTime) (account : Account) (db : Db) : Prop :=
  ∀ row ∈ db.blocks.rows, row.blockerLocalId = some account.id → ∀ accountId ∈ row.blockedLocalId,
    AccountReadModel.findById db now accountId ≠ none

/-- Every local account the account mutes is visible. -/
def MutedVisible (now : OffsetDateTime) (account : Account) (db : Db) : Prop :=
  ∀ row ∈ db.mutes.rows, row.muterLocalId = some account.id → ∀ accountId ∈ row.mutedLocalId,
    AccountReadModel.findById db now accountId ≠ none

/-- A list is answered to whom may see the account, with an entry for every row. -/
theorem listing_eq_ok_iff {ρ α : Type} (rows : AccountId → List ρ) (read : ρ → Result α)
    (entry : α → Result RelationDto) {dtos : List RelationDto} :
    (do let account ← findAccount db outside.now accountNanoid
        checkPermission outside.permission
        let found ← (rows account.id).mapM read
        found.mapM entry : Result (List RelationDto)) = .ok dtos ↔
      ∃ account, findAccount db outside.now accountNanoid = .ok account ∧
        checkPermission outside.permission = .ok () ∧
        List.Forall₂ (fun row dto => (read row >>= entry) = .ok dto) (rows account.id) dtos := by
  rw [Fallible.bind_eq_ok]
  refine exists_congr fun account => and_congr_right fun _ => ?_
  rw [Fallible.bind_eq_ok, ← Fallible.mapM_bind_mapM_eq_ok]
  constructor
  · rintro ⟨⟨⟩, h⟩
    exact h
  · exact fun h => ⟨(), h⟩

theorem getBlocks_eq_ok_iff {dtos : List RelationDto} :
    getBlocks outside accountNanoid db = .ok dtos ↔
      ∃ account, findAccount db outside.now accountNanoid = .ok account ∧
        checkPermission outside.permission = .ok () ∧
        List.Forall₂ (fun row dto => (row.toBlock >>= fun block =>
            relationDto "Blocked" outside.now db block.id block.destination) = .ok dto)
          (db.blocks.select (·.hasBlocker (.Local account.id))) dtos :=
  listing_eq_ok_iff (fun accountId => db.blocks.select (·.hasBlocker (.Local accountId))) BlockRow.toBlock
    fun block => relationDto "Blocked" outside.now db block.id block.destination

theorem getMutes_eq_ok_iff {dtos : List RelationDto} :
    getMutes outside accountNanoid db = .ok dtos ↔
      ∃ account, findAccount db outside.now accountNanoid = .ok account ∧
        checkPermission outside.permission = .ok () ∧
        List.Forall₂ (fun row dto => (row.toMute >>= fun mute =>
            relationDto "Muted" outside.now db mute.id mute.destination) = .ok dto)
          (db.mutes.select (·.hasMuter (.Local account.id))) dtos :=
  listing_eq_ok_iff (fun accountId => db.mutes.select (·.hasMuter (.Local accountId))) MuteRow.toMute
    fun mute => relationDto "Muted" outside.now db mute.id mute.destination

/-- What a list knows of its rows: how they are read, the columns of their targets, and what removes
them. -/
structure Rows (now : OffsetDateTime) (db : Db) {ρ α : Type} (read : ρ → Result α)
    (entry : α → Int × TargetId) (rowId : ρ → Int)
    (columns : ρ → Option AccountId × Option RemoteAccountId) (removes : ρ → String → Prop)
    (rows : List ρ) : Prop where
  read : ∀ row ∈ rows, ∃ x, read row = .ok x ∧ (entry x).1 = rowId row ∧
    columns row = ((entry x).2.localId, (entry x).2.remoteId)
  remotes : ∀ row ∈ rows, ∀ id ∈ (columns row).2, (RemoteAccountRepository.findById db id).isSome = true
  removes : ∀ row ∈ rows, ∀ accountId, columns row = (some accountId, none) → ∀ found,
    AccountReadModel.findById db now accountId = some found → removes row found.nanoid

/-- The rows can be listed, and removed by what the list shows, exactly if the local accounts they are
about are visible. -/
theorem Rows.usable_iff {ρ α : Type} {now : OffsetDateTime} {kind : String} {read : ρ → Result α}
    {entry : α → Int × TargetId} {rowId : ρ → Int}
    {columns : ρ → Option AccountId × Option RemoteAccountId} {removes : ρ → String → Prop}
    {rows : List ρ} (hrows : Rows now db read entry rowId columns removes rows) :
    (∃ dtos, List.Forall₂ (fun row dto =>
          (read row >>= fun x => relationDto kind now db (entry x).1 (entry x).2) = .ok dto) rows dtos ∧
        List.Forall₂ (fun row dto => dto.id = toString (rowId row) ∧
          (dto.targetType = "local" → removes row dto.target)) rows dtos) ↔
      ∀ row ∈ rows, ∀ accountId ∈ (columns row).1,
        AccountReadModel.findById db now accountId ≠ none := by
  constructor
  · rintro ⟨dtos, hdtos, _⟩ row hrow accountId hlocal hnone
    obtain ⟨dto, hdto⟩ := Fallible.exists_of_forall₂ hdtos hrow
    obtain ⟨x, hread, _, hends⟩ := hrows.read row hrow
    rw [hread] at hdto
    obtain ⟨_, ⟨id, found, hid, _, hfound, _⟩ | ⟨remote, _, hid, _⟩⟩ :=
      relationDto_ok (show relationDto kind now db (entry x).1 (entry x).2 = .ok dto from hdto)
    · rw [hends, hid] at hlocal
      cases hlocal
      cases hfound.symm.trans hnone
    · rw [hends, hid] at hlocal
      cases hlocal
  · intro hvisible
    have hentry : ∀ row ∈ rows, ∃ dto,
        (read row >>= fun x => relationDto kind now db (entry x).1 (entry x).2) = .ok dto ∧
          dto.id = toString (rowId row) ∧ (dto.targetType = "local" → removes row dto.target) := by
      intro row hrow
      obtain ⟨x, hread, hid, hends⟩ := hrows.read row hrow
      obtain ⟨dto, hdto, hdtoId, htarget⟩ := relationDto_isOk kind now (entry x).1 (entry x).2
        (fun accountId hlocal => hvisible row hrow accountId (by rw [hends, hlocal]; rfl))
        (fun id hremote => hrows.remotes row hrow id (by rw [hends, hremote]; rfl))
      refine ⟨dto, by rw [hread]; exact hdto, by rw [hdtoId, hid], fun htype => ?_⟩
      obtain ⟨accountId, found, hlocal, hfound, hname⟩ := htarget htype
      rw [hname]
      exact hrows.removes row hrow accountId (by rw [hends, hlocal]; rfl) found hfound
    obtain ⟨dtos, hdtos⟩ := Fallible.exists_forall₂ hentry
    exact ⟨dtos, hdtos.imp fun _ _ h => h.1, hdtos.imp fun _ _ h => h.2⟩

theorem checkPermission_of_ok {answer : Result Bool} (h : answer = .ok true) :
    checkPermission answer = .ok () := by
  rw [h]
  rfl

/-- An account that was found and may be seen is the one a list is answered for. -/
theorem exists_found_iff (haccount : findAccount db outside.now accountNanoid = .ok account)
    (hpermission : outside.permission = .ok true) {P : Account → Prop} :
    (∃ found, findAccount db outside.now accountNanoid = .ok found ∧
      checkPermission outside.permission = .ok () ∧ P found) ↔ P account := by
  simp [haccount, checkPermission_of_ok hpermission]

theorem blocksUsable_iff (hconsistent : Consistent db)
    (haccount : findAccount db outside.now accountNanoid = .ok account)
    (hpermission : outside.permission = .ok true) :
    BlocksUsable server outside accountNanoid account db ↔
      BlockedVisible outside.now account db := by
  have hrows : Rows outside.now db BlockRow.toBlock (fun block => (block.id, block.destination)) BlockRow.id
      (fun row => (row.blockedLocalId, row.blockedRemoteId))
      (fun row target => unblockAccount server outside accountNanoid target db =
        (.ok (), { db with blocks := db.blocks.erase row.id }))
      (db.blocks.select (·.hasBlocker (.Local account.id))) := by
    refine ⟨fun row hrow => ?_, fun row hrow => hconsistent.blockRemotes row (List.mem_filter.mp hrow).1,
      fun row hrow accountId hlocal found hfound => ?_⟩
    · obtain ⟨block, hblock, hid, hends⟩ := toBlock_of_hasBlocker (List.mem_filter.mp hrow).2
      obtain ⟨_, hlocal, hremote⟩ := BlockRow.relates_iff.mp hends
      exact ⟨block, hblock, hid, Prod.ext hlocal hremote⟩
    · obtain ⟨hstored, hblocker⟩ := List.mem_filter.mp hrow
      obtain ⟨_, _, _, hends⟩ := toBlock_of_hasBlocker hblocker
      refine unblock_listed hconsistent haccount hpermission hstored (BlockRow.relates_iff.mpr ?_) hfound
      exact ⟨(BlockRow.relates_iff.mp hends).1, Prod.mk.inj hlocal⟩
  simp only [BlocksUsable, getBlocks_eq_ok_iff, exists_found_iff haccount hpermission]
  rw [hrows.usable_iff]
  simp [BlockedVisible, Table.select, BlockRow.hasBlocker]

theorem mutesUsable_iff (hconsistent : Consistent db)
    (haccount : findAccount db outside.now accountNanoid = .ok account)
    (hpermission : outside.permission = .ok true) :
    MutesUsable server outside accountNanoid account db ↔
      MutedVisible outside.now account db := by
  have hrows : Rows outside.now db MuteRow.toMute (fun mute => (mute.id, mute.destination)) MuteRow.id
      (fun row => (row.mutedLocalId, row.mutedRemoteId))
      (fun row target => unmuteAccount server outside accountNanoid target db =
        (.ok (), { db with mutes := db.mutes.erase row.id }))
      (db.mutes.select (·.hasMuter (.Local account.id))) := by
    refine ⟨fun row hrow => ?_, fun row hrow => hconsistent.muteRemotes row (List.mem_filter.mp hrow).1,
      fun row hrow accountId hlocal found hfound => ?_⟩
    · obtain ⟨mute, hmute, hid, hends⟩ := toMute_of_hasMuter (List.mem_filter.mp hrow).2
      obtain ⟨_, hlocal, hremote⟩ := MuteRow.relates_iff.mp hends
      exact ⟨mute, hmute, hid, Prod.ext hlocal hremote⟩
    · obtain ⟨hstored, hmuter⟩ := List.mem_filter.mp hrow
      obtain ⟨_, _, _, hends⟩ := toMute_of_hasMuter hmuter
      refine unmute_listed hconsistent haccount hpermission hstored (MuteRow.relates_iff.mpr ?_) hfound
      exact ⟨(MuteRow.relates_iff.mp hends).1, Prod.mk.inj hlocal⟩
  simp only [MutesUsable, getMutes_eq_ok_iff, exists_found_iff haccount hpermission]
  rw [hrows.usable_iff]
  simp [MutedVisible, Table.select, MuteRow.hasMuter]

/-! ### The constraints hold in every state -/

/-- A step keeps what the constraints say. -/
def Keeps (before after : Db) : Prop := Consistent before → Consistent after

instance : IsPreorder Db Keeps where
  refl _ := id
  trans _ _ _ hab hbc h := hbc (hab h)

variable {after : Db}

/-- Remote accounts may be added and changed, the other three tables are the same. -/
theorem Keeps.of_tables (haccounts : after.accounts = db.accounts) (hblocks : after.blocks = db.blocks)
    (hmutes : after.mutes = db.mutes)
    (hremotes : ∀ id, (RemoteAccountRepository.findById db id).isSome = true →
      (RemoteAccountRepository.findById after id).isSome = true) : Keeps db after := by
  intro h
  constructor
  · intro row hrow
    rw [haccounts] at hrow
    rw [Db.accountConflict, haccounts]
    exact h.accounts row hrow
  · rw [hblocks]
    exact h.blockPairs
  · rw [hmutes]
    exact h.mutePairs
  · rw [hblocks]
    exact fun row hrow id hid => hremotes id (h.blockRemotes row hrow id hid)
  · rw [hmutes]
    exact fun row hrow id hid => hremotes id (h.muteRemotes row hrow id hid)

theorem keeps_upsertRemoteAccount (outside : Outside) (actor : ResolvedRemoteActor) :
    Moves Keeps (Session.atomically (upsertRemoteAccount outside actor)) := by
  refine .atomically fun db remoteAccount after h => ?_
  obtain ⟨rfl, _⟩ := upsertRemoteAccount_ok h
  refine .of_tables rfl rfl rfl fun id hid => ?_
  rw [RemoteAccountRepository.findById, Table.get_put]
  split_ifs
  · rfl
  · exact hid

theorem keeps_resolveBlockTarget (server : Server) (outside : Outside) (target : String) :
    Moves Keeps (resolveBlockTarget server outside target) := by
  refine .bind (.read _) fun found => ?_
  cases found with
  | some account => exact .pure _
  | none => exact .bind (.lift _) fun _ => .bind (keeps_upsertRemoteAccount _ _) fun _ => .pure _

theorem remote_of_exists {target : TargetId} {id : RemoteAccountId}
    (hexists : db.targetExists target = true) (hid : id ∈ target.remoteId) :
    (RemoteAccountRepository.findById db id).isSome = true := by
  cases target with
  | Local _ => cases hid
  | Remote _ =>
      cases hid
      exact hexists

/-- An inserted block has new ends, and its target exists. -/
theorem keeps_insertBlock {block : Block} (h : BlockRepository.insert db block = .inserted after) :
    Keeps db after := by
  intro hconsistent
  obtain ⟨_, hfree, hexists, rfl⟩ := insertRelation_inserted h
  refine ⟨hconsistent.accounts, Table.unique_put hconsistent.blockPairs fun row hrow heq => ?_,
    hconsistent.mutePairs, fun row hrow id hid => ?_, hconsistent.muteRemotes⟩
  · exact hfree row hrow (blockRelates_iff.mpr heq)
  · rcases Table.mem_put.mp hrow with rfl | ⟨hold, _⟩
    · exact remote_of_exists hexists.2 hid
    · exact hconsistent.blockRemotes row hold id hid

theorem keeps_insertMute {mute : Mute} (h : MuteRepository.insert db mute = .inserted after) :
    Keeps db after := by
  intro hconsistent
  obtain ⟨_, hfree, hexists, rfl⟩ := insertRelation_inserted h
  refine ⟨hconsistent.accounts, hconsistent.blockPairs, Table.unique_put hconsistent.mutePairs
    fun row hrow heq => ?_, hconsistent.blockRemotes, fun row hrow id hid => ?_⟩
  · exact hfree row hrow (muteRelates_iff.mpr heq)
  · rcases Table.mem_put.mp hrow with rfl | ⟨hold, _⟩
    · exact remote_of_exists hexists.2 hid
    · exact hconsistent.muteRemotes row hold id hid

/-- Blocks and mutes may be taken away. -/
theorem keeps_fewer {blocks : Table BlockRow.id} {mutes : Table MuteRow.id}
    (hblocks : ∀ row ∈ blocks.rows, row ∈ db.blocks.rows)
    (hmutes : ∀ row ∈ mutes.rows, row ∈ db.mutes.rows) : Keeps db { db with blocks, mutes } :=
  fun h => ⟨h.accounts,
    fun row hrow other hother => h.blockPairs row (hblocks row hrow) other (hblocks other hother),
    fun row hrow other hother => h.mutePairs row (hmutes row hrow) other (hmutes other hother),
    fun row hrow => h.blockRemotes row (hblocks row hrow),
    fun row hrow => h.muteRemotes row (hmutes row hrow)⟩

theorem keeps_deliverStored (outside : Outside) (outboxId : Option OutboxActivityId)
    (delivery : Option Delivery) : Moves Keeps (deliverStored outside outboxId delivery) := by
  refine (Undo.onlyOutbox_deliverStored outside outboxId delivery).mono fun before after h => ?_
  rw [Undo.OnlyOutbox] at h
  rw [h]
  exact .of_tables rfl rfl rfl fun _ h => h

theorem keeps_blockTransaction (outside : Outside) (accountId : AccountId) (block : Block)
    (delivery : Option Delivery) :
    Moves Keeps (Session.atomically (blockTransaction outside accountId block delivery)) := by
  refine .atomically fun db outboxId after h => ?_
  simp only [blockTransaction, Fallible.bind_eq_ok] at h
  obtain ⟨existing, _, h⟩ := h
  split_ifs at h
  · cases h
  obtain ⟨created, hcreate, removed, hremove, hstore⟩ := by
    simpa only [Fallible.bind_eq_ok] using h
  refine trans_of Keeps (keeps_insertBlock (Insertion.orReject_ok hcreate)) ?_
  rw [storeDelivery_tables hstore, (removeFollowsBetween_ok hremove).1]
  exact .of_tables rfl rfl rfl fun _ h => h

theorem keeps_unblockTransaction (server : Server) (outside : Outside) (account : Account)
    (resolved : BlockTarget) :
    Moves Keeps (Session.atomically (unblockTransaction server outside account resolved)) := by
  refine .atomically fun db result after h => ?_
  simp only [unblockTransaction, Fallible.bind_eq_ok] at h
  obtain ⟨blocks, _, h⟩ := h
  split at h
  · cases h
  · next block _ =>
      obtain ⟨deleted, hdelete, ⟨outboxId, stored⟩, hstore, hresult⟩ := by
        simpa only [Fallible.bind_eq_ok] using h
      cases hresult
      rw [storeDelivery_tables hstore]
      simp only [BlockRepository.delete, reject] at hdelete
      split_ifs at hdelete
      cases hdelete
      have hfewer : Keeps db { db with blocks := db.blocks.erase block.id } :=
        keeps_fewer (fun _ hrow => (Table.mem_erase.mp hrow).1) fun _ hrow => hrow
      refine trans_of Keeps hfewer ?_
      exact .of_tables rfl rfl rfl fun _ h => h

theorem keeps_commandTransaction (call : Call) (id : AccountId) (check : Account → Result Unit)
    (command : EventVersion → CommandEnvelope AccountEvent) :
    Moves Keeps (Session.exec (commandTransaction call id check command)) := by
  refine .exec fun db after h => ?_
  simp only [commandTransaction, Fallible.bind_eq_ok] at h
  obtain ⟨_, _, _, _, ⟨envelope, saved⟩, hsave, hresult⟩ := h
  cases hresult
  rw [(AccountRepository.save_ok hsave).2.2]
  exact .of_tables rfl rfl rfl fun _ h => h

theorem keeps_moderate (call : Call) (accountNanoid : String) (precondition : Result Unit)
    (check : Account → Result Unit)
    (command : AccountId → EventVersion → CommandEnvelope AccountEvent) :
    Moves Keeps (moderate call accountNanoid precondition check command) :=
  .bind (.read _) fun _ => .bind (.lift _) fun _ => .bind (.lift _) fun _ =>
    keeps_commandTransaction _ _ _ _

/-- A group that is written changes accounts within their constraints and, of the other tables, none
that the lists read. -/
theorem keeps_project {tz : Timestamptz} {env : PollEnv} {kind : Aggregate} {id : Int}
    {events : List (SeqEvent kind.Event)} {owner : Option (AccountId × AuthAccountId)}
    (h : kind.project tz env db id events = .written after owner) : Keeps db after := by
  cases kind with
  | account =>
      rcases AccountProjector.project_cases tz env db id events with
        ⟨_, heq⟩ | ⟨account, _, _, ⟨result, hwrite, heq⟩ | heq⟩
      · cases heq.symm.trans h
      · cases heq.symm.trans h
        obtain ⟨upserted, _, _, _, _, hupsert, rfl⟩ := AccountProjector.write_ok hwrite
        intro hconsistent
        have haccounts := hconsistent.accounts.upsert hupsert
        simp only [AccountProjectionWriter.upsert, uniqueViolation, reject] at hupsert
        split_ifs at hupsert <;> cases hupsert <;>
          exact ⟨haccounts, hconsistent.blockPairs, hconsistent.mutePairs, hconsistent.blockRemotes,
            hconsistent.muteRemotes⟩
      · cases heq.symm.trans h
  | profile =>
      obtain ⟨entity, _, _, hwrite⟩ := ProfileProjector.project_written h
      cases entity with
      | none =>
          cases hwrite
          exact .of_tables rfl rfl rfl fun _ h => h
      | some profile =>
          simp only [ProfileProjector.write, ProfileProjectionWriter.upsert, uniqueViolation,
            foreignKeyViolation, reject] at hwrite
          split_ifs at hwrite <;> cases hwrite <;> exact .of_tables rfl rfl rfl fun _ h => h
  | metadata =>
      obtain ⟨entity, hwrite⟩ := MetadataProjector.project_written h
      cases entity with
      | none =>
          cases hwrite
          exact .of_tables rfl rfl rfl fun _ h => h
      | some metadata =>
          simp only [MetadataProjector.write, MetadataProjectionWriter.upsert, uniqueViolation,
            foreignKeyViolation, reject] at hwrite
          split_ifs at hwrite <;> cases hwrite <;> exact .of_tables rfl rfl rfl fun _ h => h

theorem keeps_projectBatch (tz : Timestamptz) (env : PollEnv) (kind : Aggregate) (db : Db) :
    Keeps db (kind.projectBatch tz env db).progress.db := by
  by_cases hempty : db.batch kind = []
  · rw [Aggregate.projectBatch_of_nil hempty]
    exact refl_of Keeps db
  · rw [Aggregate.projectBatch_of_ne_nil hempty]
    have hproject : ∀ {before id group after owner},
        kind.project tz env before id group = .written after owner → Keeps before after :=
      fun h => keeps_project h
    have hprogress : Keeps db (kind.progress tz env db).db :=
      Projector.foldl_related (R := Keeps) (refl_of Keeps) (trans_of Keeps) hproject _ ⟨db, [], []⟩
    refine trans_of Keeps hprogress ?_
    exact .of_tables rfl rfl rfl fun _ h => h

theorem keeps_blockAccount (server : Server) (outside : Outside) (accountNanoid target : String) :
    Moves Keeps (blockAccount server outside accountNanoid target) :=
  .bind (.read _) fun _ => .bind (.lift _) fun _ => .bind (keeps_resolveBlockTarget _ _ _) fun _ =>
    .bind (.lift _) fun _ => .bind (keeps_blockTransaction _ _ _ _) fun _ =>
      .bind (keeps_deliverStored _ _ _) fun _ => .pure _

theorem keeps_unblockAccount (server : Server) (outside : Outside) (accountNanoid target : String) :
    Moves Keeps (unblockAccount server outside accountNanoid target) :=
  .bind (.bind (.read _) fun _ => .bind (.lift _) fun _ => .bind (keeps_resolveBlockTarget _ _ _)
    fun _ => .pure _) fun _ => .bind (keeps_unblockTransaction _ _ _ _) fun _ => keeps_deliverStored _ _ _

theorem keeps_resolveMuteTarget (server : Server) (outside : Outside) (target : String) :
    Moves Keeps (resolveMuteTarget server outside target) :=
  .bind (keeps_resolveBlockTarget _ _ _) fun _ => .pure _

theorem keeps_muteAccount (server : Server) (outside : Outside) (accountNanoid target : String) :
    Moves Keeps (muteAccount server outside accountNanoid target) := by
  have hinsert : ∀ mute,
      Moves Keeps (Session.atomically fun db => MuteRepository.insertIfAbsent db mute) := by
    refine fun mute => .atomically fun db inserted after h => ?_
    rcases Insertion.orAbsent_ok h with ⟨_, hinserted⟩ | ⟨_, hsame⟩
    · exact keeps_insertMute hinserted
    · rw [hsame]
      exact refl_of Keeps db
  exact .bind (.read _) fun _ => .bind (.lift _) fun _ => .bind (keeps_resolveMuteTarget _ _ _)
    fun _ => .bind (.lift _) fun _ => .bind (hinsert _) fun _ => .pure _

theorem keeps_unmuteAccount (server : Server) (outside : Outside) (accountNanoid target : String) :
    Moves Keeps (unmuteAccount server outside accountNanoid target) := by
  have hdelete : ∀ source destination, Moves Keeps (Session.exec fun db =>
      .ok (MuteRepository.deleteIfExists db source destination).2 : Session Db Report Unit) := by
    refine fun source destination => .exec fun db after h => ?_
    cases h
    exact keeps_fewer (fun _ hrow => hrow) fun _ hrow => (Table.mem_deleteWhere.mp hrow).1
  exact .bind (.read _) fun _ => .bind (.lift _) fun _ => .bind (keeps_resolveMuteTarget _ _ _)
    fun _ => hdelete _ _

/-! ### The machine -/

inductive Action where
  | blockAccount (outside : Outside) (accountNanoid target : String)
  | unblockAccount (outside : Outside) (accountNanoid target : String)
  | muteAccount (outside : Outside) (accountNanoid target : String)
  | unmuteAccount (outside : Outside) (accountNanoid target : String)
  | suspendAccount (call : Call) (accountNanoid reason : String) (expiresAt : Option OffsetDateTime)
  | banAccount (call : Call) (accountNanoid reason : String)
  | deactivateAccount (call : Call) (accountNanoid : String)
  | projectBatch (kind : Aggregate) (env : PollEnv)

/-- The database afterwards, whether the call succeeded or failed. -/
def step (tz : Timestamptz) (server : Server) (db : Db) : Action → Db
  | .blockAccount outside accountNanoid target => (blockAccount server outside accountNanoid target db).2
  | .unblockAccount outside accountNanoid target =>
      (unblockAccount server outside accountNanoid target db).2
  | .muteAccount outside accountNanoid target => (muteAccount server outside accountNanoid target db).2
  | .unmuteAccount outside accountNanoid target =>
      (unmuteAccount server outside accountNanoid target db).2
  | .suspendAccount call accountNanoid reason expiresAt =>
      (suspendAccount call accountNanoid reason expiresAt db).2
  | .banAccount call accountNanoid reason => (banAccount call accountNanoid reason db).2
  | .deactivateAccount call accountNanoid => (deactivateAccount call accountNanoid db).2
  | .projectBatch kind env => (kind.projectBatch tz env db).progress.db

theorem consistent_step (tz : Timestamptz) (server : Server) (db : Db) (action : Action)
    (h : Consistent db) : Consistent (step tz server db action) := by
  cases action with
  | blockAccount outside accountNanoid target => exact keeps_blockAccount _ _ _ _ db h
  | unblockAccount outside accountNanoid target => exact keeps_unblockAccount _ _ _ _ db h
  | muteAccount outside accountNanoid target => exact keeps_muteAccount _ _ _ _ db h
  | unmuteAccount outside accountNanoid target => exact keeps_unmuteAccount _ _ _ _ db h
  | suspendAccount call accountNanoid reason expiresAt =>
      exact Moves.bind (R := Keeps) (.lift _) (fun _ => keeps_moderate _ _ _ _ _) db h
  | banAccount call accountNanoid reason =>
      exact Moves.bind (R := Keeps) (.lift _) (fun _ => keeps_moderate _ _ _ _ _) db h
  | deactivateAccount call accountNanoid =>
      exact Moves.bind (R := Keeps) (.read _) (fun _ => .bind (.lift _) fun _ =>
        .bind (keeps_commandTransaction _ _ _ _) fun _ => .lift _) db h
  | projectBatch kind env => exact keeps_projectBatch tz env kind db h

theorem consistent_run (tz : Timestamptz) (server : Server) {db : Db} (h : Consistent db)
    (actions : List Action) : Consistent (Runs.run (step tz server) db actions) :=
  Runs.run_invariant (fun db action => consistent_step tz server db action) h actions

/-- In every state reached, the lists of an account can be used exactly if every local account it
blocks or mutes is visible. -/
theorem relation_lists_usable_iff (tz : Timestamptz) (server : Server) (start : Db)
    (hstart : Consistent start) (actions : List Action) (outside : Outside) (accountNanoid : String)
    (account : Account)
    (haccount : findAccount (Runs.run (step tz server) start actions) outside.now accountNanoid =
      .ok account)
    (hpermission : outside.permission = .ok true) :
    let db := Runs.run (step tz server) start actions
    (BlocksUsable server outside accountNanoid account db ∧
        MutesUsable server outside accountNanoid account db) ↔
      (BlockedVisible outside.now account db ∧ MutedVisible outside.now account db) := by
  have hconsistent := consistent_run tz server hstart actions
  exact and_congr (blocksUsable_iff hconsistent haccount hpermission)
    (mutesUsable_iff hconsistent haccount hpermission)

open Exclusion (answering localServer)
open Coverage (plainEnv)
open Streams (permitted)

/-- Alice and Bob have local accounts. -/
def aliceAndBob : Db :=
  (Aggregate.account.projectBatch .microseconds (plainEnv 2)
    { Db.empty with
      authAccounts := [3, 4]
      accountEvents := [⟨1, ⟨7, .Created "alice" false "alice-nanoid" 3, 20⟩⟩,
        ⟨2, ⟨8, .Created "bob" false "bob-nanoid" 4, 21⟩⟩] }).progress.db

def againstBob : List Action :=
  [.blockAccount (answering 3 10) "alice-nanoid" "bob-nanoid",
    .muteAccount (answering 4 11) "alice-nanoid" "bob-nanoid"]

theorem consistent_aliceAndBob : Consistent aliceAndBob := by
  have hblocks : aliceAndBob.blocks.rows = [] := by rfl
  have hmutes : aliceAndBob.mutes.rows = [] := by rfl
  constructor
  · decide +kernel
  all_goals simp [hblocks, hmutes]

/-- Alice's account as it is projected. -/
def alice : Account :=
  { Exclusion.alice with version := 20, createdAt := 1767225600000000000 }

/-- Alice blocks and mutes Bob, whose account is visible. -/
theorem relation_lists_usable_againstBob :
    let db := Runs.run (step .microseconds localServer) aliceAndBob againstBob
    db.blocks.rows.length = 1 ∧ db.mutes.rows.length = 1 ∧
      BlocksUsable localServer (answering 5 12) "alice-nanoid" alice db ∧
      MutesUsable localServer (answering 5 12) "alice-nanoid" alice db := by
  refine ⟨by decide +kernel, by decide +kernel, ?_⟩
  refine (relation_lists_usable_iff .microseconds localServer aliceAndBob consistent_aliceAndBob
    againstBob (answering 5 12) "alice-nanoid" alice (by decide +kernel) rfl).mpr ⟨?_, ?_⟩
  · unfold BlockedVisible
    decide +kernel
  · unfold MutedVisible
    decide +kernel

/-- Bob is suspended and the suspension is projected: Alice can no longer see whom they block or mute,
nor undo it. -/
theorem relation_lists_fail_suspendedBob :
    let db := Runs.run (step .microseconds localServer) aliceAndBob
      (againstBob ++ [.suspendAccount (permitted 5 (.ok ())) "bob-nanoid" "spam" none,
        .projectBatch .account (plainEnv 6)])
    let outside := answering 7 12
    (findAccount db outside.now "alice-nanoid").isOk = true ∧ outside.permission = .ok true ∧
      db.blocks.rows.length = 1 ∧ db.mutes.rows.length = 1 ∧
      (getBlocks outside "alice-nanoid" db).isOk = false ∧
      (getMutes outside "alice-nanoid" db).isOk = false ∧
      (unblockAccount localServer outside "alice-nanoid" "bob-nanoid" db).1.isOk = false ∧
      (unmuteAccount localServer outside "alice-nanoid" "bob-nanoid" db).1.isOk = false := by
  decide +kernel

end RelationLists

end Emumet

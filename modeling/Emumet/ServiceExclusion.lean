import Emumet.LibRuns
import Emumet.ServiceRelations

/-! Blocks and follows exclude each other. A block removes the follows between its two ends, and every
other operation but following only takes rows away. Following looks at no block: a run keeps the
exclusion as long as nobody follows across a block. -/

namespace Emumet

namespace Exclusion

open Relations

/-- The table of blocks holds a row between the two parties, in either direction. -/
def blocksBetween (db : Db) (x y : TargetId) : Bool :=
  db.blocks.rows.any fun row => row.relates x y || row.relates y x

/-- The table of follows holds a row between the two parties, in either direction. -/
def followsBetween (db : Db) (x y : TargetId) : Bool :=
  db.follows.rows.any fun row => row.relates x y || row.relates y x

theorem blocksBetween_iff {db : Db} {x y : TargetId} : blocksBetween db x y = true ↔
    ∃ row ∈ db.blocks.rows, row.relates x y = true ∨ row.relates y x = true := by
  simp [blocksBetween]

theorem blocksBetween_comm (db : Db) (x y : TargetId) : blocksBetween db x y = blocksBetween db y x := by
  simp only [blocksBetween, Bool.or_comm]

theorem followsBetween_iff {db : Db} {x y : TargetId} : followsBetween db x y = true ↔
    ∃ row ∈ db.follows.rows, row.relates x y = true ∨ row.relates y x = true := by
  simp [followsBetween]

theorem followsBetween_eq_false_iff {db : Db} {x y : TargetId} : followsBetween db x y = false ↔
    ∀ row ∈ db.follows.rows, row.relates x y = false ∧ row.relates y x = false := by
  simp [followsBetween]

def Excludes (db : Db) : Prop := ∀ x y, blocksBetween db x y = true → followsBetween db x y = false

/-- Whatever is related afterwards was related before. -/
structure Shrinks (before after : Db) : Prop where
  blocks : ∀ x y, blocksBetween after x y = true → blocksBetween before x y = true
  follows : ∀ x y, followsBetween after x y = true → followsBetween before x y = true

instance : IsPreorder Db Shrinks where
  refl _ := ⟨fun _ _ h => h, fun _ _ h => h⟩
  trans _ _ _ hab hbc :=
    ⟨fun x y h => hab.blocks x y (hbc.blocks x y h), fun x y h => hab.follows x y (hbc.follows x y h)⟩

theorem Excludes.shrinks {before after : Db} (h : Excludes before) (hshrinks : Shrinks before after) :
    Excludes after := by
  intro x y hblocks
  rw [← Bool.not_eq_true]
  intro hfollows
  have hnone := h x y (hshrinks.blocks x y hblocks)
  rw [hshrinks.follows x y hfollows] at hnone
  cases hnone

/-! ### Writes -/

/-- Fewer blocks, and follows whose ends were there before. -/
theorem Shrinks.of_rows {before after : Db}
    (hblocks : ∀ row ∈ after.blocks.rows, row ∈ before.blocks.rows)
    (hfollows : ∀ row ∈ after.follows.rows, ∃ old ∈ before.follows.rows, row.relates = old.relates) :
    Shrinks before after where
  blocks := by
    intro x y h
    obtain ⟨row, hrow, hrelates⟩ := blocksBetween_iff.mp h
    exact blocksBetween_iff.mpr ⟨row, hblocks row hrow, hrelates⟩
  follows := by
    intro x y h
    obtain ⟨row, hrow, hrelates⟩ := followsBetween_iff.mp h
    obtain ⟨old, hold, heq⟩ := hfollows row hrow
    exact followsBetween_iff.mpr ⟨old, hold, heq ▸ hrelates⟩

theorem Shrinks.of_drops {before after : Db} (h : Drops before after) : Shrinks before after :=
  .of_rows h.blocks fun row hrow => ⟨row, h.follows row hrow, rfl⟩

/-- A block that removes the follows between its ends. -/
theorem Excludes.insertBlock {before after : Db} {block : Block} (h : Excludes before)
    (hblocks : after.blocks = before.blocks.put (.ofBlock block))
    (hfollows : ∀ row ∈ after.follows.rows, row ∈ before.follows.rows ∧
      row.relates block.source block.destination = false ∧
      row.relates block.destination block.source = false) : Excludes after := by
  intro x y hbetween
  rw [followsBetween_eq_false_iff]
  intro row hrow
  obtain ⟨hstored, hforward, hbackward⟩ := hfollows row hrow
  obtain ⟨blockRow, hblockRow, hrelates⟩ := blocksBetween_iff.mp hbetween
  rw [hblocks, Table.mem_put] at hblockRow
  rcases hblockRow with rfl | ⟨hold, _⟩
  · rw [relates_ofBlock, relates_ofBlock] at hrelates
    rcases hrelates with ⟨rfl, rfl⟩ | ⟨rfl, rfl⟩
    · exact ⟨hforward, hbackward⟩
    · exact ⟨hbackward, hforward⟩
  · have hnone := h x y (blocksBetween_iff.mpr ⟨blockRow, hold, hrelates⟩)
    exact followsBetween_eq_false_iff.mp hnone row hstored

/-- A follow between two parties without a block. -/
theorem Excludes.insertFollow {db : Db} {follow : Follow} (h : Excludes db)
    (hunblocked : blocksBetween db follow.source follow.destination = false) :
    Excludes { db with follows := db.follows.put (.ofFollow follow) } := by
  intro x y hbetween
  have hnone := h x y hbetween
  rw [followsBetween_eq_false_iff] at hnone ⊢
  intro row hrow
  rcases Table.mem_put.mp hrow with rfl | ⟨hold, _⟩
  · rw [← Bool.not_eq_true, ← Bool.not_eq_true, relates_ofFollow, relates_ofFollow]
    change blocksBetween db x y = true at hbetween
    constructor
    · rintro ⟨rfl, rfl⟩
      rw [hunblocked] at hbetween
      cases hbetween
    · rintro ⟨rfl, rfl⟩
      rw [blocksBetween_comm, hunblocked] at hbetween
      cases hbetween
  · exact hnone row hold

/-! ### Approving -/

open Session

variable (server : Server) (outside : Outside)

theorem moves_handleAcceptActivity (dto : InboxActivityDto) :
    Moves Shrinks (handleAcceptActivity server outside dto) := by
  refine .bind (.lift _) fun accepted => ?_
  cases accepted with
  | none => exact .pure _
  | some remoteActorUrl =>
      refine .bind (.read _) fun remoteAccount => .exec fun db after h => ?_
      cases h
      refine .of_rows (fun _ hrow => hrow) fun row hrow => ?_
      -- The approval changes no end of a row.
      obtain ⟨old, hold, rfl⟩ := List.mem_map.mp hrow
      refine ⟨old, hold, ?_⟩
      unfold FollowRepository.approve
      split_ifs <;> rfl

/-! ### Blocking -/

/-- An operation that only takes rows away keeps the exclusion. -/
theorem keeps {α : Type} {op : Session Db Report α} (h : Moves Drops op) :
    Triple Excludes op (fun _ => Excludes) Excludes :=
  h.triple fun _ _ hexcludes hdrops => hexcludes.shrinks (.of_drops hdrops)

theorem keeps_blockAccount (accountNanoid target : String) :
    Triple Excludes (blockAccount server outside accountNanoid target) (fun _ => Excludes)
      Excludes := by
  refine .bind (keeps (.read _)) fun account => .bind (keeps (.lift _)) fun _ =>
    .bind (keeps (moves_resolveBlockTarget _ _ _)) fun resolved => .bind (keeps (.lift _)) fun block =>
    .bind (.atomically ?_ fun _ h => h) fun _ => .bind (keeps (moves_deliverStored _ _ _)) fun _ =>
    keeps (.pure _)
  intro db outboxId after h hblock
  simp only [blockTransaction, Fallible.bind_eq_ok, reject] at hblock
  obtain ⟨existing, _, hblock⟩ := hblock
  split_ifs at hblock
  simp only [Fallible.bind_eq_ok] at hblock
  obtain ⟨created, hcreate, removed, hremove, hstore⟩ := hblock
  obtain ⟨hremoved, hrows⟩ := removeFollowsBetween_ok hremove
  obtain rfl := BlockRepository.insert_inserted (Insertion.orReject_ok hcreate)
  rw [storeDelivery_tables hstore]
  refine h.insertBlock ?_ fun row hrow => (hrows row).mp hrow
  rw [hremoved]

theorem keeps_handleBlockActivity (dto : InboxActivityDto) :
    Triple Excludes (handleBlockActivity server outside dto) (fun _ => Excludes) Excludes := by
  refine .bind (keeps (.lift _)) fun _ => .bind (keeps (.lift _)) fun _ =>
    .bind (keeps (.lift _)) fun actor => .bind (keeps (moves_upsertRemoteAccount _ _)) fun _ =>
    .bind (keeps (.lift _)) fun block => .exec ?_ fun _ h => h
  intro db after h hblock
  simp only [inboundBlockTransaction, Fallible.bind_eq_ok] at hblock
  obtain ⟨⟨inserted, middle⟩, hinsert, hblock⟩ := hblock
  rcases Insertion.orAbsent_ok hinsert with ⟨rfl, hinserted⟩ | ⟨rfl, rfl⟩
  · obtain rfl := BlockRepository.insert_inserted hinserted
    obtain ⟨hremoved, hrows⟩ := removeFollowsBetween_ok hblock
    refine h.insertBlock ?_ fun row hrow => (hrows row).mp hrow
    rw [hremoved]
  · -- A duplicate: the exclusion already holds of the block that is there.
    cases hblock
    exact h

/-! ### Following -/

/-- The exclusion holds and no block is between the two ends. -/
def Clear (source destination : TargetId) (db : Db) : Prop :=
  Excludes db ∧ blocksBetween db source destination = false

theorem Clear.shrinks {source destination : TargetId} {before after : Db}
    (h : Clear source destination before) (hshrinks : Shrinks before after) :
    Clear source destination after := by
  refine ⟨h.1.shrinks hshrinks, ?_⟩
  rw [← Bool.not_eq_true]
  intro hblocked
  have hnone := h.2
  rw [hshrinks.blocks _ _ hblocked] at hnone
  cases hnone

/-- The row of a followed or following actor is written before the follow. -/
theorem clear_upsertRemoteAccount (actor : ResolvedRemoteActor)
    (ends : RemoteAccountId → TargetId × TargetId) {db : Db} (h : Excludes db)
    (hunblocked : blocksBetween db (ends (remoteAccountIdOf db outside actor)).1
      (ends (remoteAccountIdOf db outside actor)).2 = false) :
    Triple (· = db) (atomically (upsertRemoteAccount outside actor))
      (fun remoteAccount => Clear (ends remoteAccount.id).1 (ends remoteAccount.id).2) Excludes := by
  refine .atomically ?_ fun _ hstate => hstate ▸ h
  rintro _ remoteAccount after rfl hupsert
  obtain ⟨rfl, hid, _⟩ := upsertRemoteAccount_ok hupsert
  rw [hid]
  exact Clear.shrinks ⟨h, hunblocked⟩ (.of_rows (fun _ hrow => hrow) fun row hrow => ⟨row, hrow, rfl⟩)

theorem excludes_sendFollow {db : Db} (h : Excludes db) {accountNanoid target : String}
    (hunblocked : ∀ account actor, findAccount db outside.now accountNanoid = .ok account →
      resolveRemoteActorIdentifier server outside target = .ok actor →
      blocksBetween db (.Local account.id) (.Remote (remoteAccountIdOf db outside actor)) = false) :
    Triple (· = db) (sendFollow server outside accountNanoid target) (fun _ => Excludes) Excludes := by
  refine .bind (Q := fun account s => s = db ∧ findAccount db outside.now accountNanoid = .ok account)
    (.read (fun _ s hs hread => ⟨hs, hs ▸ hread⟩) fun s hs => hs ▸ h) fun account => .assume fun hfind => ?_
  refine .bind (Q := fun _ => (· = db)) (.lift (fun _ _ _ hs => hs) fun s hs => hs ▸ h) fun _ => ?_
  refine .bind (Q := fun actor s => s = db ∧
      resolveRemoteActorIdentifier server outside target = .ok actor)
    (.lift (fun _ s hactor hs => ⟨hs, hactor⟩) fun s hs => hs ▸ h) fun actor => .assume fun hactor => ?_
  refine .bind (clear_upsertRemoteAccount outside actor (fun id => (.Local account.id, .Remote id)) h
    (hunblocked account actor hfind hactor)) fun remoteAccount => ?_
  refine .bind (.read (fun _ _ hs _ => hs) fun _ hs => hs.1) fun existing => ?_
  refine .bind (Q := fun follow => Clear follow.source follow.destination)
    (.lift (fun follow s hnew hs => ?_) fun _ hs => hs.1) fun follow => ?_
  · simp only [reject] at hnew
    split_ifs at hnew
    obtain ⟨hsource, hdestination⟩ := Follow.new_ok hnew
    rw [hsource, hdestination]
    exact hs
  refine .bind (Q := fun _ => Excludes) (.exec (fun s after hs hcreate => ?_) fun _ hs => hs.1)
    fun _ => ?_
  · obtain rfl := FollowRepository.insert_inserted (Insertion.orReject_ok hcreate)
    exact hs.1.insertFollow hs.2
  -- A failed delivery deletes the follow again.
  dsimp only
  split
  · exact .bind (keeps (moves_delete _)) fun _ => keeps (.lift _)
  · exact .bind (keeps (moves_storeDelivered _ _ _)) fun _ => keeps (.pure _)

theorem excludes_handleFollowActivity {db : Db} (h : Excludes db) {dto : InboxActivityDto}
    (hunblocked : ∀ actor, resolveRemoteActor server outside dto.activity.actor = .ok actor →
      blocksBetween db (.Remote (remoteAccountIdOf db outside actor)) (.Local dto.accountId) = false) :
    Triple (· = db) (handleFollowActivity server outside dto) (fun _ => Excludes) Excludes := by
  refine .bind (Q := fun _ => (· = db)) (.lift (fun _ _ _ hs => hs) fun s hs => hs ▸ h) fun _ => ?_
  refine .bind (Q := fun _ => (· = db)) (.lift (fun _ _ _ hs => hs) fun s hs => hs ▸ h) fun _ => ?_
  refine .bind (Q := fun actor s => s = db ∧
      resolveRemoteActor server outside dto.activity.actor = .ok actor)
    (.lift (fun _ s hactor hs => ⟨hs, hactor⟩) fun s hs => hs ▸ h) fun actor => .assume fun hactor => ?_
  refine .bind (clear_upsertRemoteAccount outside actor (fun id => (.Remote id, .Local dto.accountId)) h
    (hunblocked actor hactor)) fun remoteAccount => ?_
  refine .bind (Q := fun follow => Clear follow.source follow.destination)
    (.lift (fun follow s hnew hs => ?_) fun _ hs => hs.1) fun follow => ?_
  · obtain ⟨hsource, hdestination⟩ := Follow.new_ok hnew
    rw [hsource, hdestination]
    exact hs
  refine .bind (Q := fun _ => Excludes) (.atomically (fun s outboxId after hs hfollow => ?_)
    fun _ hs => hs.1) fun _ => keeps (moves_deliverStored _ _ _)
  simp only [followTransaction, Fallible.bind_eq_ok] at hfollow
  obtain ⟨⟨inserted, middle⟩, hinsert, hfollow⟩ := hfollow
  rcases Insertion.orAbsent_ok hinsert with ⟨rfl, hinserted⟩ | ⟨rfl, rfl⟩
  · obtain rfl := FollowRepository.insert_inserted hinserted
    rw [if_pos rfl] at hfollow
    rw [storeDelivery_tables hfollow]
    exact (hs.1.insertFollow hs.2).shrinks (.of_drops (.of_same rfl rfl rfl))
  · cases hfollow
    exact hs.1

/-! ### Runs -/

/-- A request of a local account, or an activity that arrives in an inbox. -/
inductive Action where
  | blockAccount (outside : Outside) (accountNanoid target : String)
  | unblockAccount (outside : Outside) (accountNanoid target : String)
  | sendFollow (outside : Outside) (accountNanoid target : String)
  | sendUndoFollow (outside : Outside) (accountNanoid target : String)
  | inbox (outside : Outside) (dto : InboxActivityDto)

/-- The database afterwards, whether the operation succeeded or failed. -/
def step (db : Db) : Action → Db
  | .blockAccount outside accountNanoid target =>
      (blockAccount server outside accountNanoid target db).2
  | .unblockAccount outside accountNanoid target =>
      (unblockAccount server outside accountNanoid target db).2
  | .sendFollow outside accountNanoid target => (sendFollow server outside accountNanoid target db).2
  | .sendUndoFollow outside accountNanoid target =>
      (sendUndoFollow server outside accountNanoid target db).2
  | .inbox outside dto => (handleInboxActivity server outside dto db).2

/-- The ends of the follow that is asked for. -/
def followEnds (db : Db) : Action → Option (TargetId × TargetId)
  | .sendFollow outside accountNanoid target => do
      let account ← (findAccount db outside.now accountNanoid).toOption
      let actor ← (resolveRemoteActorIdentifier server outside target).toOption
      some (.Local account.id, .Remote (remoteAccountIdOf db outside actor))
  | .inbox outside dto =>
      if dto.activity.type_ = "Follow" then do
        let actor ← (resolveRemoteActor server outside dto.activity.actor).toOption
        some (.Remote (remoteAccountIdOf db outside actor), .Local dto.accountId)
      else none
  | _ => none

/-- No follow is asked for between two parties with a block. -/
def Unblocked (db : Db) (action : Action) : Prop :=
  ∀ ends ∈ followEnds server db action, blocksBetween db ends.1 ends.2 = false

instance (db : Db) (action : Action) : Decidable (Unblocked server db action) :=
  inferInstanceAs (Decidable (∀ _ ∈ _, _))

theorem excludes_inbox {db : Db} (h : Excludes db) {dto : InboxActivityDto}
    (hunblocked : Unblocked server db (.inbox outside dto)) :
    Excludes (handleInboxActivity server outside dto db).2 := by
  unfold handleInboxActivity
  split_ifs with hfollow
  · refine (excludes_handleFollowActivity server outside h fun actor hactor => ?_).run rfl
    refine hunblocked (.Remote (remoteAccountIdOf db outside actor), .Local dto.accountId) ?_
    simp [followEnds, hfollow, hactor, Except.toOption]
  · exact h.shrinks (moves_handleAcceptActivity server outside dto db)
  · exact (keeps_handleBlockActivity server outside dto).run h
  · exact h.shrinks (.of_drops (moves_handleUndoFollow server dto db))
  · exact h.shrinks (.of_drops (moves_handleUndoBlockActivity server dto db))
  · exact h

theorem excludes_step {db : Db} (h : Excludes db) {action : Action}
    (hunblocked : Unblocked server db action) : Excludes (step server db action) := by
  cases action with
  | blockAccount outside accountNanoid target =>
      exact (keeps_blockAccount server outside accountNanoid target).run h
  | unblockAccount outside accountNanoid target =>
      exact h.shrinks (.of_drops (moves_unblockAccount server outside accountNanoid target db))
  | sendFollow outside accountNanoid target =>
      refine (excludes_sendFollow server outside h fun account actor hfind hactor => ?_).run rfl
      refine hunblocked (.Local account.id, .Remote (remoteAccountIdOf db outside actor)) ?_
      simp [followEnds, hfind, hactor, Except.toOption]
  | sendUndoFollow outside accountNanoid target =>
      exact h.shrinks (.of_drops (moves_sendUndoFollow server outside accountNanoid target db))
  | inbox outside dto => exact excludes_inbox server outside h hunblocked

/-- In every run from tables without blocks in which nobody asks to follow across a block, no follow is
ever between two parties with a block. -/
theorem blocks_exclude_follows (db : Db) (hblocks : db.blocks = .empty) (actions : List Action)
    (hunblocked : Runs.Along (step server) (Unblocked server) db actions) :
    Excludes (Runs.run (step server) db actions) := by
  refine hunblocked.invariant (fun s action h hstep => excludes_step server h hstep) ?_
  intro x y hbetween
  rw [blocksBetween, hblocks] at hbetween
  cases hbetween

/-! ### A local and a remote account -/

def bobUrl : String := "https://remote.example/users/bob"

def aliceUrl : String := "https://local.example/ap/accounts/alice-nanoid"

/-- A URL of the origin without a fragment. -/
def parseHttps (origin host text : String) : Option Url :=
  (stripStart origin text).bind fun rest =>
    if rest.toList.head? ∈ [none, some '/', some '?'] then
      let path := ((splitOnce '?' rest).map Prod.fst).getD rest
      some { scheme := "https", host := some host, port := none, portOrKnownDefault := some 443
             path := if path = "" then "/" else path, query := (splitOnce '?' rest).map Prod.snd }
    else none

/-- The URL library on handles and on the URLs of the two servers. -/
def parseUrl (text : String) : Option Url :=
  match stripStart "acct:" text with
  | some path =>
      some { scheme := "acct", host := none, port := none, portOrKnownDefault := none, path
             query := none }
  | none => (parseHttps "https://local.example" "local.example" text).or
      (parseHttps "https://remote.example" "remote.example" text)

def localServer : Server where
  publicBaseUrl := "https://local.example"
  parseUrl := parseUrl
  isAlphanumeric := Char.isAlphanum

/-- Bob's actor document. -/
def bob : Actor where
  id := bobUrl
  preferredUsername := "bob"
  inbox := bobUrl ++ "/inbox"
  publicKeyPem := "pem"

/-- The caller is permitted, the remote server answers, and ids are generated from the given one. -/
def answering (now : OffsetDateTime) (id : Int) : Outside where
  now := now
  permission := .ok true
  fetchActor _ := .ok bob
  fetchWebFinger _ := reject .NotFound "no such resource"
  deliver _ _ := .ok ()
  remoteAccountId := id
  relationId := id + 1
  activityId := id + 2
  outboxId := id

def alice : Account where
  id := 7
  name := "alice"
  isBot := false
  status := .Active
  deletedAt := none
  version := 1
  nanoid := "alice-nanoid"
  createdAt := 0

/-- Alice has an account and nothing else is stored. -/
def aliceDb : Db :=
  { Db.empty with accounts := Table.empty.put (.ofAccount .microseconds alice) }

def aliceBlocks (now : OffsetDateTime) : Action :=
  .blockAccount (answering now (10 * now)) "alice-nanoid" bobUrl

def aliceFollows (now : OffsetDateTime) : Action :=
  .sendFollow (answering now (10 * now)) "alice-nanoid" bobUrl

def bobFollows (now : OffsetDateTime) : Action :=
  .inbox (answering now (10 * now))
    { accountId := 7, accountNanoid := "alice-nanoid"
      activity :=
        { context := none, id := bobUrl ++ "#follow", type_ := "Follow", actor := bobUrl
          object := some (.string aliceUrl)
          target := none, to_ := none, cc := none } }

/-- Both follow each other before the block, which removes the two follows. -/
theorem blocks_exclude_follows_aliceBlocks :
    let db := Runs.run (step localServer) aliceDb [bobFollows 1, aliceFollows 2, aliceBlocks 3]
    blocksBetween db (.Local 7) (.Remote 10) = true ∧ Excludes db :=
  ⟨by decide +kernel, blocks_exclude_follows localServer aliceDb rfl
    [bobFollows 1, aliceFollows 2, aliceBlocks 3] (by decide +kernel)⟩

/-- After the block, the blocked account follows and is accepted at once, and the blocking account can
follow too. -/
theorem follows_cross_blocks :
    aliceDb.blocks = .empty ∧ aliceDb.follows = .empty ∧
      ¬Excludes (Runs.run (step localServer) aliceDb [aliceBlocks 1, bobFollows 2]) ∧
      ¬Excludes (Runs.run (step localServer) aliceDb [aliceBlocks 1, aliceFollows 2]) := by
  refine ⟨rfl, rfl, ?_, ?_⟩
  · intro h
    have hnone := h (.Local 7) (.Remote 10) (by decide +kernel)
    exact absurd hnone (by decide +kernel)
  · intro h
    have hnone := h (.Local 7) (.Remote 10) (by decide +kernel)
    exact absurd hnone (by decide +kernel)

end Exclusion

end Emumet

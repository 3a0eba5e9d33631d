import Emumet.ServiceFollowFaults
import Emumet.ServiceRelationLists

/-! What an Undo embeds. The activity that is undone is not read back from the outbox but built again from
the id of the relation, the nanoid of the account and the URL of the remote account. None of these changes
while the relation is stored: an account has the nanoid of its one `Created` event, an upsert finds a
remote account by its URL, and a relation keeps its ends. -/

namespace Emumet

namespace SentUndo

open Relations Session

/-! ### The nanoid of an account -/

/-- A `Created` event gives the account this nanoid. -/
def Named (events : List (SeqEvent AccountEvent)) (id : AccountId) (nanoid : Nanoid) : Prop :=
  ∃ event ∈ events, event.id = id ∧
    ∃ name isBot authAccountId, event.envelope.event = .Created name isBot nanoid authAccountId

theorem Named.mono {events later : List (SeqEvent AccountEvent)} {id : AccountId} {nanoid : Nanoid}
    (h : Named events id nanoid) (hsub : events ⊆ later) : Named later id nanoid := by
  obtain ⟨event, hevent, hnamed⟩ := h
  exact ⟨event, hsub hevent, hnamed⟩

/-- An account is named once, and its row holds that nanoid. -/
structure NamedOnce (db : Db) : Prop where
  once : ∀ {id nanoid other}, Named db.accountEvents id nanoid → Named db.accountEvents id other →
    nanoid = other
  rows : ∀ row ∈ db.accounts.rows, Named db.accountEvents row.id row.nanoid

theorem NamedOnce.congr {db after : Db} (h : NamedOnce db)
    (hevents : after.accountEvents = db.accountEvents) (haccounts : after.accounts = db.accounts) :
    NamedOnce after := by
  constructor
  · rw [hevents]
    exact h.once
  · rw [hevents, haccounts]
    exact h.rows

theorem NamedOnce.putRow {db : Db} {row : AccountRow} (h : NamedOnce db)
    (hrow : Named db.accountEvents row.id row.nanoid) :
    NamedOnce { db with accounts := db.accounts.put row } := by
  refine ⟨h.once, fun other hother => ?_⟩
  rcases Table.mem_put.mp hother with rfl | ⟨hold, _⟩
  · exact hrow
  · exact h.rows other hold

/-- A command that names an account expects it to have no events. -/
def Opens (command : CommandEnvelope AccountEvent) : Prop :=
  command.event.isCreated = true → command.prevVersion = some .Nothing

theorem NamedOnce.save {db after : Db} {command : CommandEnvelope AccountEvent} {stamp : Stamp}
    {envelope : EventEnvelope AccountEvent} (h : NamedOnce db) (hopens : Opens command)
    (hsave : AccountRepository.save db command stamp = .ok (envelope, after)) : NamedOnce after := by
  obtain ⟨hguard, rfl, rfl⟩ := AccountRepository.save_ok hsave
  -- the new event names an account only if no event does yet
  have hnew : ∀ {id nanoid},
      Named (⟨stamp.seq, ⟨command.id, command.event, stamp.version⟩⟩ :: db.accountEvents) id nanoid →
      Named db.accountEvents id nanoid ∨ (command.id = id ∧
        (∃ name isBot auth, command.event = .Created name isBot nanoid auth) ∧
        ∀ other, ¬Named db.accountEvents id other) := by
    rintro id nanoid ⟨event, hevent, hid, name, isBot, auth, hcreated⟩
    rcases List.mem_cons.mp hevent with rfl | hold
    · have hcommand : command.event = .Created name isBot nanoid auth := hcreated
      have hid' : command.id = id := hid
      rw [hopens (by rw [hcommand]; rfl), EventStore.guardHolds, Bool.not_eq_true',
        List.any_eq_false] at hguard
      refine .inr ⟨hid', ⟨name, isBot, auth, hcommand⟩, ?_⟩
      rintro other ⟨event, hevent, hsame, _⟩
      exact hguard event hevent (by simp [hsame, hid'])
    · exact .inl ⟨event, hold, hid, name, isBot, auth, hcreated⟩
  refine ⟨fun {id nanoid other} hnamed hother => ?_, fun row hrow => ?_⟩
  · rcases hnew hnamed with hold | ⟨_, ⟨_, _, _, hcommand⟩, hnone⟩
    · rcases hnew hother with hold' | ⟨_, _, hnone⟩
      · exact h.once hold hold'
      · exact absurd hold (hnone _)
    · rcases hnew hother with hold' | ⟨_, ⟨_, _, _, hcommand'⟩, _⟩
      · exact absurd hold' (hnone _)
      · rw [hcommand] at hcommand'
        cases hcommand'
        rfl
  · exact (h.rows row hrow).mono (List.subset_cons_self _ _)

/-- A step takes the nanoid from the account it applies to or from a `Created` event. -/
theorem apply_named {now : OffsetDateTime} {entity : Option Account} {account : Account}
    {event : EventEnvelope AccountEvent} (h : Account.apply now entity event = .ok (some account)) :
    (∃ old ∈ entity, old.id = account.id ∧ old.nanoid = account.nanoid) ∨
      (event.id = account.id ∧
        ∃ name isBot auth, event.event = .Created name isBot account.nanoid auth) := by
  obtain ⟨id, payload, version⟩ := event
  cases entity with
  | none =>
      have hcreated := Account.apply_none h
      cases payload <;> cases hcreated
      simp only [Account.apply, fromTimestampMs_extractTimestampMs] at h
      cases h
      exact .inr ⟨rfl, _, _, _, rfl⟩
  | some old =>
      refine .inl ⟨old, rfl, (Account.apply_id h).symm, ?_⟩
      cases payload <;> simp only [Account.apply, reject] at h
      all_goals first
        | (split_ifs at h <;> first | (cases h; done) | (cases h; rfl))
        | (cases h; done)
        | (cases h; rfl)

theorem foldEvents_named {now : OffsetDateTime} {events : List (EventEnvelope AccountEvent)}
    {entity : Option Account} {account : Account}
    (h : foldEvents (Account.apply now) entity events = .ok (some account)) :
    (∃ old ∈ entity, old.id = account.id ∧ old.nanoid = account.nanoid) ∨
      ∃ event ∈ events, event.id = account.id ∧
        ∃ name isBot auth, event.event = .Created name isBot account.nanoid auth := by
  induction events generalizing entity with
  | nil =>
      cases h
      exact .inl ⟨account, rfl, rfl, rfl⟩
  | cons event events ih =>
      rw [foldEvents, List.foldlM_cons, Fallible.bind_eq_ok] at h
      obtain ⟨next, hnext, hrest⟩ := h
      rcases ih hrest with ⟨old, hold, hid, hnanoid⟩ | ⟨other, hother, hnamed⟩
      · cases hold
        rcases apply_named hnext with ⟨older, holder, hid', hnanoid'⟩ | ⟨hid', hcreated⟩
        · exact .inl ⟨older, holder, hid'.trans hid, hnanoid'.trans hnanoid⟩
        · exact .inr ⟨event, List.mem_cons_self, hid'.trans hid, hnanoid ▸ hcreated⟩
      · exact .inr ⟨other, List.mem_cons_of_mem _ hother, hnamed⟩

/-! ### What an operation carries over -/

/-- Names, URLs and ends stay as they are. What is new has an id that was drawn: every relation, and every
activity in the outbox. -/
structure Carries (server : Server) (drawn : List Int) (before after : Db) : Prop where
  urls : KeepsUrls before after
  events : before.accountEvents ⊆ after.accountEvents
  names : NamedOnce before → NamedOnce after
  blocks : ∀ row ∈ after.blocks.rows, row ∈ before.blocks.rows ∨ row.id ∈ drawn
  follows : ∀ row ∈ after.follows.rows,
    (∃ old ∈ before.follows.rows, old.id = row.id ∧ ∀ x y, old.relates x y = row.relates x y) ∨
      row.id ∈ drawn
  outbox : ∀ row ∈ after.outboxActivities.rows,
    (∃ old ∈ before.outboxActivities.rows, old.activityId = row.activityId) ∨
      ∃ id ∈ drawn, row.activityId = activityUrl server.publicBaseUrl id

section Statements

variable {server : Server} {drawn : List Int} {before after : Db}

instance : IsPreorder Db (Carries server drawn) where
  refl db := ⟨.refl db, fun _ h => h, id, fun _ h => .inl h, fun row h => .inl ⟨row, h, rfl, fun _ _ => rfl⟩,
    fun row h => .inl ⟨row, h, rfl⟩⟩
  trans before mid after h h' := by
    refine ⟨h.urls.trans h'.urls, fun _ hevent => h'.events (h.events hevent), fun hnames => h'.names (h.names hnames),
      fun row hrow => ?_, fun row hrow => ?_, fun row hrow => ?_⟩
    · rcases h'.blocks row hrow with hmid | hdrawn
      · exact h.blocks row hmid
      · exact .inr hdrawn
    · rcases h'.follows row hrow with ⟨old, hold, hid, hends⟩ | hdrawn
      · rcases h.follows old hold with ⟨older, holder, hid', hends'⟩ | hdrawn
        · exact .inl ⟨older, holder, hid'.trans hid, fun x y => (hends' x y).trans (hends x y)⟩
        · exact .inr (hid ▸ hdrawn)
      · exact .inr hdrawn
    · rcases h'.outbox row hrow with ⟨old, hold, hactivity⟩ | hdrawn
      · rcases h.outbox old hold with ⟨older, holder, hactivity'⟩ | ⟨id, hid, hactivity'⟩
        · exact .inl ⟨older, holder, hactivity'.trans hactivity⟩
        · exact .inr ⟨id, hid, hactivity.symm.trans hactivity'⟩
      · exact .inr hdrawn

/-- A write to the tables of accounts. -/
theorem Carries.of_accounts (hevents : before.accountEvents ⊆ after.accountEvents)
    (hnames : NamedOnce before → NamedOnce after) (hblocks : after.blocks = before.blocks)
    (hfollows : after.follows = before.follows) (hremotes : after.remoteAccounts = before.remoteAccounts)
    (houtbox : after.outboxActivities = before.outboxActivities) : Carries server drawn before after := by
  refine ⟨fun remote hremote => ⟨remote, hremotes ▸ hremote, rfl, rfl⟩, hevents, hnames,
    fun row hrow => .inl (hblocks ▸ hrow), fun row hrow => .inl ⟨row, hfollows ▸ hrow, rfl, fun _ _ => rfl⟩,
    fun row hrow => .inl ⟨row, houtbox ▸ hrow, rfl⟩⟩

/-- A write to none of the tables. -/
theorem Carries.of_same (hevents : after.accountEvents = before.accountEvents)
    (haccounts : after.accounts = before.accounts) (hblocks : after.blocks = before.blocks)
    (hfollows : after.follows = before.follows) (hremotes : after.remoteAccounts = before.remoteAccounts)
    (houtbox : after.outboxActivities = before.outboxActivities) : Carries server drawn before after :=
  .of_accounts (hevents ▸ List.Subset.refl _) (fun h => h.congr hevents haccounts) hblocks hfollows hremotes
    houtbox

theorem Carries.then_same {mid : Db} (h : Carries server drawn before mid)
    (hevents : after.accountEvents = mid.accountEvents) (haccounts : after.accounts = mid.accounts)
    (hblocks : after.blocks = mid.blocks) (hfollows : after.follows = mid.follows)
    (hremotes : after.remoteAccounts = mid.remoteAccounts)
    (houtbox : after.outboxActivities = mid.outboxActivities) : Carries server drawn before after :=
  trans_of (Carries server drawn) h (.of_same hevents haccounts hblocks hfollows hremotes houtbox)

theorem Carries.of_blocks {blocks : Table BlockRow.id}
    (h : ∀ row ∈ blocks.rows, row ∈ before.blocks.rows ∨ row.id ∈ drawn) :
    Carries server drawn before { before with blocks } :=
  { refl_of (Carries server drawn) before with
    names := fun hnames => hnames.congr rfl rfl
    blocks := h }

theorem Carries.of_follows {follows : Table FollowRow.id}
    (h : ∀ row ∈ follows.rows, (∃ old ∈ before.follows.rows, old.id = row.id ∧
      ∀ x y, old.relates x y = row.relates x y) ∨ row.id ∈ drawn) :
    Carries server drawn before { before with follows } :=
  { refl_of (Carries server drawn) before with
    names := fun hnames => hnames.congr rfl rfl
    follows := h }

/-- Follows are only taken away. -/
theorem Carries.fewerFollows {follows : Table FollowRow.id}
    (h : ∀ row ∈ follows.rows, row ∈ before.follows.rows) :
    Carries server drawn before { before with follows } :=
  .of_follows fun row hrow => .inl ⟨row, h row hrow, rfl, fun _ _ => rfl⟩

theorem Carries.putOutbox {entry : OutboxActivity}
    (h : (∃ old ∈ before.outboxActivities.rows, old.activityId = entry.activityId) ∨
      ∃ id ∈ drawn, entry.activityId = activityUrl server.publicBaseUrl id) :
    Carries server drawn before
      { before with outboxActivities := before.outboxActivities.put entry } :=
  { refl_of (Carries server drawn) before with
    names := fun hnames => hnames.congr rfl rfl
    outbox := fun row hrow => by
      rcases Table.mem_put.mp hrow with rfl | ⟨hold, _⟩
      · exact h
      · exact .inl ⟨row, hold, rfl⟩ }

theorem Carries.insertFollow {follow : Follow} (h : follow.id ∈ drawn)
    (hinsert : FollowRepository.insert before follow = .inserted after) :
    Carries server drawn before after := by
  obtain rfl := FollowRepository.insert_inserted hinsert
  refine .of_follows fun row hrow => ?_
  rcases Table.mem_put.mp hrow with rfl | ⟨hold, _⟩
  · exact .inr h
  · exact .inl ⟨row, hold, rfl, fun _ _ => rfl⟩

theorem Carries.insertBlock {block : Block} (h : block.id ∈ drawn)
    (hinsert : BlockRepository.insert before block = .inserted after) :
    Carries server drawn before after := by
  obtain rfl := BlockRepository.insert_inserted hinsert
  refine .of_blocks fun row hrow => ?_
  rcases Table.mem_put.mp hrow with rfl | ⟨hold, _⟩
  · exact .inr h
  · exact .inl hold

theorem Carries.removeFollowsBetween {a b : FollowTargetId}
    (h : removeFollowsBetween a b before = .ok after) : Carries server drawn before after := by
  obtain ⟨htables, hrows⟩ := removeFollowsBetween_ok h
  rw [htables]
  exact .fewerFollows fun row hrow => ((hrows row).mp hrow).1

/-- The activities of a delivery have ids that were drawn. -/
def Drawn (server : Server) (drawn : List Int) (activity : Activity) : Prop :=
  ∃ id ∈ drawn, activity.id = activityUrl server.publicBaseUrl id

theorem Carries.storeDelivery {outside : Outside} {accountId : AccountId} {delivery : Option Delivery}
    {outboxId : Option OutboxActivityId} (hdrawn : ∀ sent ∈ delivery, Drawn server drawn sent.1)
    (h : storeDelivery outside accountId delivery before = .ok (outboxId, after)) :
    Carries server drawn before after := by
  rcases storeDelivery_ok h with ⟨_, _, rfl⟩ | ⟨activity, inboxUrl, rfl, _, _, rfl⟩
  · exact refl_of (Carries server drawn) _
  · exact .putOutbox (.inr (hdrawn _ rfl))

end Statements

/-! ### Requests of local accounts -/

/-- The ids a call draws for a relation and for an activity. -/
def ids (outside : Outside) : List Int := [outside.relationId, outside.activityId]

section Requests

variable (server : Server) (outside : Outside) {drawn : List Int} {db : Db}

theorem carries_upsertRemoteAccount (actor : ResolvedRemoteActor) :
    Moves (Carries server drawn) (atomically (upsertRemoteAccount outside actor)) := by
  refine .atomically fun db remoteAccount after h => ?_
  have hurls := keepsUrls_upsertRemoteAccount h
  obtain ⟨rfl, _⟩ := upsertRemoteAccount_ok h
  exact { refl_of (Carries server drawn) db with urls := hurls, names := fun h => h.congr rfl rfl }

theorem carries_deliverStored (outboxId : Option OutboxActivityId) (delivery : Option Delivery) :
    Moves (Carries server drawn) (deliverStored outside outboxId delivery) :=
  moves_deliverStored_of outside
    (fun _ row _ hrow _ hactivity _ => .putOutbox (.inl ⟨row, hrow, hactivity.symm⟩)) outboxId delivery

theorem carries_storeDelivered {activity : Activity} (accountId : AccountId)
    (hdrawn : Drawn server drawn activity) :
    Moves (Carries server drawn) (storeDelivered outside accountId activity) := by
  refine .exec fun db after h => ?_
  split at h
  · next hcreate =>
      cases h
      obtain ⟨_, _, rfl⟩ := outboxCreate_ok hcreate
      exact .putOutbox (.inr hdrawn)
  · cases h

theorem carries_resolveBlockTarget (target : String) :
    Moves (Carries server drawn) (resolveBlockTarget server outside target) := by
  refine .bind (.read _) fun found => ?_
  cases found with
  | some account => exact .pure _
  | none => exact .bind (.lift _) fun _ => .bind (carries_upsertRemoteAccount _ _ _) fun _ => .pure _

theorem carries_resolveUnfollowTarget (target : String) :
    Moves (Carries server drawn) (resolveUnfollowTarget server outside target) := by
  refine .bind (.read _) fun found => ?_
  cases found with
  | some account => exact .pure _
  | none => exact .bind (.lift _) fun _ => .bind (carries_upsertRemoteAccount _ _ _) fun _ => .pure _

theorem carries_deleteFollow (id : FollowId) :
    Moves (Carries server drawn) (exec fun db => FollowRepository.delete db id) :=
  .exec fun db _ h => by
    rw [FollowRepository.delete_ok h]
    exact .fewerFollows fun _ hrow => (Table.mem_erase.mp hrow).1

/-- What moves along the relation keeps what was carried over so far. -/
theorem carried {α : Type} {op : Session Db Report α} (h : Moves (Carries server drawn) op) :
    Triple (Carries server drawn db) op (fun _ => Carries server drawn db) (Carries server drawn db) :=
  h.triple fun _ _ hs hmoved => trans_of (Carries server drawn) hs hmoved

theorem carries_blockTransaction {accountId : AccountId} {block : Block} {delivery : Option Delivery}
    {outboxId : Option OutboxActivityId} {after : Db} (hblock : block.id ∈ drawn)
    (hdrawn : ∀ sent ∈ delivery, Drawn server drawn sent.1)
    (h : blockTransaction outside accountId block delivery db = .ok (outboxId, after)) :
    Carries server drawn db after := by
  simp only [blockTransaction, Fallible.bind_eq_ok, reject] at h
  obtain ⟨existing, _, h⟩ := h
  split_ifs at h
  simp only [Fallible.bind_eq_ok] at h
  obtain ⟨created, hcreate, removed, hremove, hstore⟩ := h
  have hcreated : Carries server drawn db created := .insertBlock hblock (Insertion.orReject_ok hcreate)
  have hremoved : Carries server drawn created removed := .removeFollowsBetween hremove
  have hstored : Carries server drawn removed after := .storeDelivery hdrawn hstore
  exact trans_of (Carries server drawn) hcreated (trans_of (Carries server drawn) hremoved hstored)

theorem drawn_blockDelivery {blockId : BlockId} (h : blockId ∈ drawn) (actorUrl : String)
    (resolved : BlockTarget) :
    ∀ sent ∈ resolved.blockDelivery server blockId actorUrl, Drawn server drawn sent.1 := by
  cases resolved with
  | Local account => exact fun sent hsent => nomatch hsent
  | Remote remoteAccount =>
      rintro sent ⟨⟩
      exact ⟨blockId, h, rfl⟩

theorem carries_blockAccount (accountNanoid target : String) :
    Moves (Carries server (ids outside)) (blockAccount server outside accountNanoid target) := by
  intro db
  refine Triple.run (P := Carries server (ids outside) db) ?_ (refl_of (Carries server (ids outside)) db)
  refine .bind (carried _ (.read _)) fun account => .bind (carried _ (.lift _)) fun _ =>
    .bind (carried _ (carries_resolveBlockTarget _ _ _)) fun resolved => ?_
  refine .bind (Q := fun block s => Carries server (ids outside) db s ∧ block.id = outside.relationId)
    (.lift (fun block s hnew hs => ⟨hs, ?_⟩) fun _ hs => hs) fun block => .assume fun hid => ?_
  · simp only [reject] at hnew
    split_ifs at hnew
    exact Block.new_id hnew
  have hdrawn : block.id ∈ ids outside := by simp [ids, hid]
  refine .bind (Q := fun _ => Carries server (ids outside) db)
    (.atomically (fun s outboxId after hs hblock => ?_) fun _ hs => hs) fun _ =>
    .bind (carried _ (carries_deliverStored _ _ _ _)) fun _ => carried _ (.pure _)
  exact trans_of (Carries server (ids outside)) hs
    (carries_blockTransaction server outside hdrawn (drawn_blockDelivery server hdrawn _ _) hblock)

theorem drawn_undoDelivery (h : outside.activityId ∈ drawn) (blockId : BlockId) (actorUrl : String)
    (resolved : BlockTarget) :
    ∀ sent ∈ resolved.undoDelivery server outside blockId actorUrl, Drawn server drawn sent.1 := by
  cases resolved with
  | Local account => exact fun sent hsent => nomatch hsent
  | Remote remoteAccount =>
      rintro sent ⟨⟩
      exact ⟨outside.activityId, h, rfl⟩

/-- The transaction deletes a block of the account and stores its Undo. -/
theorem unblockTransaction_ok {account : Account} {resolved : BlockTarget} {after : Db}
    {outboxId : Option OutboxActivityId} {delivery : Option Delivery}
    (h : unblockTransaction server outside account resolved db = .ok ((outboxId, delivery), after)) :
    ∃ blocks, ∃ block ∈ blocks, BlockRepository.findBlocks db (.Local account.id) = .ok blocks ∧
      block.destination = resolved.id ∧
      delivery = resolved.undoDelivery server outside block.id
        (localActorUrl server.publicBaseUrl account.nanoid) ∧
      storeDelivery outside account.id delivery { db with blocks := db.blocks.erase block.id } =
        .ok (outboxId, after) := by
  simp only [unblockTransaction, Fallible.bind_eq_ok] at h
  obtain ⟨blocks, hblocks, h⟩ := h
  split at h
  · cases h
  · next block hfound =>
      simp only [Fallible.bind_eq_ok, BlockRepository.delete, reject] at h
      obtain ⟨deleted, hdelete, stored, hstore, hresult⟩ := h
      split_ifs at hdelete
      cases hdelete
      cases hresult
      exact ⟨blocks, block, List.mem_of_find?_eq_some hfound, hblocks,
        by simpa using List.find?_some hfound, rfl, hstore⟩

theorem carries_unblockAccount (accountNanoid target : String) :
    Moves (Carries server (ids outside)) (unblockAccount server outside accountNanoid target) := by
  refine .bind (.bind (.read _) fun account => .bind (.lift _) fun _ =>
    .bind (carries_resolveBlockTarget _ _ _) fun resolved => .pure _) fun begun =>
    .bind (.atomically fun db result after h => ?_) fun _ => carries_deliverStored _ _ _ _
  obtain ⟨blocks, block, _, _, _, hdelivery, hstore⟩ := unblockTransaction_ok server outside h
  have hdrawn : ∀ sent ∈ result.2, Drawn server (ids outside) sent.1 := by
    rw [hdelivery]
    exact drawn_undoDelivery server outside (by simp [ids]) _ _ _
  have hdeleted : Carries server (ids outside) db { db with blocks := db.blocks.erase block.id } :=
    .of_blocks fun row hrow => .inl (Table.mem_erase.mp hrow).1
  exact trans_of (Carries server (ids outside)) hdeleted (.storeDelivery hdrawn hstore)

theorem carries_sendFollow (accountNanoid target : String) :
    Moves (Carries server (ids outside)) (sendFollow server outside accountNanoid target) := by
  intro db
  refine Triple.run (P := Carries server (ids outside) db) ?_ (refl_of (Carries server (ids outside)) db)
  refine .bind (carried _ (.read _)) fun account => .bind (carried _ (.lift _)) fun _ =>
    .bind (carried _ (.lift _)) fun actor =>
    .bind (carried _ (carries_upsertRemoteAccount _ _ _)) fun remote =>
    .bind (carried _ (.read _)) fun existing => ?_
  refine .bind (Q := fun follow s => Carries server (ids outside) db s ∧ follow.id = outside.relationId)
    (.lift (fun follow s hnew hs => ⟨hs, ?_⟩) fun _ hs => hs) fun follow => .assume fun hid => ?_
  · simp only [reject] at hnew
    split_ifs at hnew
    exact Follow.new_id hnew
  have hdrawn : follow.id ∈ ids outside := by simp [ids, hid]
  refine .bind (carried _ (.exec fun s after hcreate => ?_)) fun _ => ?_
  · exact .insertFollow hdrawn (Insertion.orReject_ok hcreate)
  dsimp only
  split
  · exact .bind (carried _ (carries_deleteFollow _ _)) fun _ => carried _ (.lift _)
  · exact .bind (carried _ (carries_storeDelivered _ _ _ ⟨follow.id, hdrawn, rfl⟩)) fun _ =>
      carried _ (.pure _)

theorem carries_sendUndoFollow (accountNanoid target : String) :
    Moves (Carries server (ids outside)) (sendUndoFollow server outside accountNanoid target) := by
  refine .bind (.bind (.read _) fun account => .bind (.lift _) fun _ =>
    .bind (carries_resolveUnfollowTarget _ _ _) fun resolved => .bind (.read _) fun follow => .pure _)
    fun begun => ?_
  obtain ⟨account, resolved, follow⟩ := begun
  cases resolved with
  | Local _ => exact carries_deleteFollow _ _
  | Remote remoteAccount =>
      exact .bind (.lift _) fun _ => .bind (carries_deleteFollow _ _) fun _ =>
        carries_storeDelivered _ _ _ ⟨outside.activityId, by simp [ids], rfl⟩

theorem carries_muteAccount (accountNanoid target : String) :
    Moves (Carries server drawn) (muteAccount server outside accountNanoid target) := by
  have hinsert : ∀ mute, Moves (Carries server drawn)
      (Session.atomically fun db => MuteRepository.insertIfAbsent db mute) := by
    refine fun mute => .atomically fun db inserted after h => ?_
    rcases Insertion.orAbsent_ok h with ⟨_, hinserted⟩ | ⟨_, hsame⟩
    · obtain ⟨_, _, _, rfl⟩ := insertRelation_inserted hinserted
      exact .of_same rfl rfl rfl rfl rfl rfl
    · rw [hsame]
      exact refl_of (Carries server drawn) db
  exact .bind (.read _) fun _ => .bind (.lift _) fun _ =>
    .bind (.bind (carries_resolveBlockTarget _ _ _) fun _ => .pure _) fun _ => .bind (.lift _) fun _ =>
    .bind (hinsert _) fun _ => .pure _

theorem carries_unmuteAccount (accountNanoid target : String) :
    Moves (Carries server drawn) (unmuteAccount server outside accountNanoid target) := by
  refine .bind (.read _) fun account => .bind (.lift _) fun _ =>
    .bind (.bind (carries_resolveBlockTarget _ _ _) fun _ => .pure _) fun resolved => .exec fun db after h => ?_
  cases h
  exact .of_same rfl rfl rfl rfl rfl rfl

end Requests

/-! ### Inbox activities -/

section Inbox

variable (server : Server) (outside : Outside) {drawn : List Int}

theorem carries_handleFollowActivity (dto : InboxActivityDto) :
    Moves (Carries server (ids outside)) (handleFollowActivity server outside dto) := by
  intro db
  refine Triple.run (P := Carries server (ids outside) db) ?_ (refl_of (Carries server (ids outside)) db)
  refine .bind (carried _ (.lift _)) fun _ => .bind (carried _ (.lift _)) fun _ =>
    .bind (carried _ (.lift _)) fun actor =>
    .bind (carried _ (carries_upsertRemoteAccount _ _ _)) fun remote => ?_
  refine .bind (Q := fun follow s => Carries server (ids outside) db s ∧ follow.id = outside.relationId)
    (.lift (fun follow s hnew hs => ⟨hs, Follow.new_id hnew⟩) fun _ hs => hs)
    fun follow => .assume fun hid => ?_
  have hdrawn : follow.id ∈ ids outside := by simp [ids, hid]
  refine .bind (carried _ (.atomically fun s outboxId after hfollow => ?_)) fun _ =>
    carried _ (carries_deliverStored _ _ _ _)
  simp only [followTransaction, Fallible.bind_eq_ok] at hfollow
  obtain ⟨⟨inserted, middle⟩, hinsert, hfollow⟩ := hfollow
  rcases Insertion.orAbsent_ok hinsert with ⟨rfl, hinserted⟩ | ⟨rfl, rfl⟩
  · rw [if_pos rfl] at hfollow
    refine trans_of (Carries server (ids outside)) (.insertFollow hdrawn hinserted)
      (.storeDelivery ?_ hfollow)
    rintro sent ⟨⟩
    exact ⟨follow.id, hdrawn, rfl⟩
  · cases hfollow
    exact refl_of (Carries server (ids outside)) _

theorem carries_handleBlockActivity (dto : InboxActivityDto) :
    Moves (Carries server (ids outside)) (handleBlockActivity server outside dto) := by
  intro db
  refine Triple.run (P := Carries server (ids outside) db) ?_ (refl_of (Carries server (ids outside)) db)
  refine .bind (carried _ (.lift _)) fun _ => .bind (carried _ (.lift _)) fun _ =>
    .bind (carried _ (.lift _)) fun actor =>
    .bind (carried _ (carries_upsertRemoteAccount _ _ _)) fun remote => ?_
  refine .bind (Q := fun block s => Carries server (ids outside) db s ∧ block.id = outside.relationId)
    (.lift (fun block s hnew hs => ⟨hs, Block.new_id hnew⟩) fun _ hs => hs)
    fun block => .assume fun hid => carried _ (.exec fun s after hblock => ?_)
  have hdrawn : block.id ∈ ids outside := by simp [ids, hid]
  simp only [inboundBlockTransaction, Fallible.bind_eq_ok] at hblock
  obtain ⟨⟨inserted, middle⟩, hinsert, hblock⟩ := hblock
  rcases Insertion.orAbsent_ok hinsert with ⟨rfl, hinserted⟩ | ⟨rfl, rfl⟩
  · exact trans_of (Carries server (ids outside)) (.insertBlock hdrawn hinserted)
      (.removeFollowsBetween hblock)
  · cases hblock
    exact refl_of (Carries server (ids outside)) _

theorem carries_handleAcceptActivity (dto : InboxActivityDto) :
    Moves (Carries server drawn) (handleAcceptActivity server outside dto) := by
  refine .bind (.lift _) fun accepted => ?_
  cases accepted with
  | none => exact .pure _
  | some remoteActorUrl =>
      refine .bind (.read _) fun remote => .exec fun db after h => ?_
      cases h
      refine .of_follows fun row hrow => ?_
      obtain ⟨old, hold, rfl⟩ := List.mem_map.mp hrow
      refine .inl ⟨old, hold, (FollowRepository.approve_id _ _ _ old).symm, fun x y => ?_⟩
      unfold FollowRepository.approve
      split_ifs <;> rfl

theorem carries_handleInboxActivity (dto : InboxActivityDto) :
    Moves (Carries server (ids outside)) (handleInboxActivity server outside dto) := by
  unfold handleInboxActivity
  split_ifs
  · exact carries_handleFollowActivity server outside dto
  · exact carries_handleAcceptActivity server outside dto
  · exact carries_handleBlockActivity server outside dto
  · exact moves_undoRelation server (fun db _ _ => .fewerFollows fun _ hrow =>
      (Table.mem_deleteWhere.mp hrow).1) dto
  · exact moves_undoRelation server (fun db _ _ => .of_blocks fun _ hrow =>
      .inl (Table.mem_deleteWhere.mp hrow).1) dto
  · exact .pure _

end Inbox

/-! ### Accounts -/

section Accounts

variable {server : Server} {drawn : List Int} {tz : Timestamptz} {call : Call} {before after : Db}

theorem Carries.saveAccount {command : CommandEnvelope AccountEvent} {stamp : Stamp}
    {envelope : EventEnvelope AccountEvent} (hopens : Opens command)
    (h : AccountRepository.save before command stamp = .ok (envelope, after)) :
    Carries server drawn before after := by
  have hnames : NamedOnce before → NamedOnce after := fun hnames => hnames.save hopens h
  obtain ⟨_, _, rfl⟩ := AccountRepository.save_ok h
  exact .of_accounts (List.subset_cons_self _ _) hnames rfl rfl rfl rfl

theorem Carries.updateRow {account : Account}
    (h : AccountReadModel.update tz before account = .ok after) : Carries server drawn before after := by
  simp only [AccountReadModel.update, uniqueViolation, reject] at h
  split at h
  · cases h
  · next stored hstored =>
      split_ifs at h
      cases h
      refine .of_accounts (List.Subset.refl _) (fun hnames => hnames.putRow ?_) rfl rfl rfl rfl
      obtain ⟨hrow, hid⟩ := Table.get_eq_some_iff.mp hstored
      have hnamed := hnames.rows stored hrow
      rw [hid] at hnamed
      simpa using hnamed

theorem Carries.linkAuthAccount {accountId : AccountId} {authId : AuthAccountId}
    (h : AccountReadModel.linkAuthAccount before accountId authId = .ok after) :
    Carries server drawn before after := by
  simp only [AccountReadModel.linkAuthAccount, foreignKeyViolation, reject] at h
  split_ifs at h
  · cases h
    exact refl_of (Carries server drawn) _
  · cases h
    exact .of_same rfl rfl rfl rfl rfl rfl

theorem Carries.saveProfile {command : CommandEnvelope ProfileEvent} {stamp : Stamp}
    {envelope : EventEnvelope ProfileEvent}
    (h : ProfileRepository.save before command stamp = .ok (envelope, after)) :
    Carries server drawn before after := by
  simp only [ProfileRepository.save, Fallible.bind_eq_ok] at h
  obtain ⟨row, _, hresult⟩ := h
  cases hresult
  exact .of_same rfl rfl rfl rfl rfl rfl

theorem Carries.createProfile {profile : Profile}
    (h : ProfileReadModel.create before profile = .ok after) : Carries server drawn before after := by
  simp only [ProfileReadModel.create, uniqueViolation, foreignKeyViolation, reject] at h
  split_ifs at h
  cases h
  exact .of_same rfl rfl rfl rfl rfl rfl

theorem Carries.updateProfile {id : ProfileId} {displayName summary : FieldAction String}
    {icon banner : FieldAction ImageId}
    (h : updateProfile call id displayName summary icon banner before = .ok after) :
    Carries server drawn before after := by
  unfold Emumet.updateProfile at h
  split_ifs at h
  · cases h
    exact refl_of (Carries server drawn) _
  · simp only [Fallible.bind_eq_ok, ProfileReadModel.update, foreignKeyViolation, reject] at h
    obtain ⟨⟨envelope, saved⟩, hsave, rehydrated, _, hupdate⟩ := h
    have hsaved : Carries server drawn before saved := .saveProfile hsave
    split at hupdate
    · cases hupdate
    · split_ifs at hupdate
      cases hupdate
      exact hsaved.then_same rfl rfl rfl rfl rfl rfl

theorem Carries.saveMetadata {command : CommandEnvelope MetadataEvent} {stamp : Stamp}
    {envelope : EventEnvelope MetadataEvent}
    (h : MetadataRepository.save before command stamp = .ok (envelope, after)) :
    Carries server drawn before after := by
  simp only [MetadataRepository.save, Fallible.bind_eq_ok] at h
  obtain ⟨row, _, hresult⟩ := h
  cases hresult
  exact .of_same rfl rfl rfl rfl rfl rfl

theorem Carries.applyFieldUpdate {accountId : AccountId} {field : FieldStamp} {operation : FieldUpdate}
    (h : applyFieldUpdate accountId field before operation = .ok after) :
    Carries server drawn before after := by
  cases operation with
  | Update metadataId label content =>
      simp only [Emumet.applyFieldUpdate, Fallible.bind_eq_ok, MetadataReadModel.update, reject] at h
      obtain ⟨loaded, _, ⟨envelope, saved⟩, hsave, reloaded, _, hupdate⟩ := h
      split at hupdate
      · cases hupdate
      · cases hupdate
        exact (Carries.saveMetadata hsave).then_same rfl rfl rfl rfl rfl rfl
  | Delete metadataId =>
      simp only [Emumet.applyFieldUpdate, Fallible.bind_eq_ok, MetadataReadModel.delete, reject] at h
      obtain ⟨loaded, _, ⟨envelope, saved⟩, hsave, hdelete⟩ := h
      split_ifs at hdelete
      cases hdelete
      exact (Carries.saveMetadata hsave).then_same rfl rfl rfl rfl rfl rfl
  | Create label content =>
      simp only [Emumet.applyFieldUpdate, Fallible.bind_eq_ok, MetadataReadModel.create, uniqueViolation,
        foreignKeyViolation, reject] at h
      obtain ⟨⟨envelope, saved⟩, hsave, applied, _, metadata, _, hcreate⟩ := h
      split_ifs at hcreate
      cases hcreate
      exact (Carries.saveMetadata hsave).then_same rfl rfl rfl rfl rfl rfl

theorem Carries.updateFields {accountId : AccountId} {existing : List Metadata}
    {submitted : Option (List AccountFieldDto)}
    (h : updateFields call accountId existing submitted before = .ok after) :
    Carries server drawn before after := by
  cases submitted with
  | none =>
      cases h
      exact refl_of (Carries server drawn) _
  | some fields =>
      exact Fallible.foldlM_invariant (P := Carries server drawn before)
        (fun _ _ _ _ hbefore hstep =>
          trans_of (Carries server drawn) hbefore (.applyFieldUpdate hstep))
        (refl_of (Carries server drawn) before) h

theorem Carries.updateIsBot {accountId : AccountId} {action : FieldAction Bool}
    (h : updateIsBot tz call accountId action before = .ok after) : Carries server drawn before after := by
  simp only [Emumet.updateIsBot, Fallible.bind_eq_ok] at h
  obtain ⟨loaded, _, h⟩ := h
  split_ifs at h
  · cases h
    exact refl_of (Carries server drawn) _
  · simp only [Fallible.bind_eq_ok] at h
    obtain ⟨⟨envelope, saved⟩, hsave, applied, _, hupdate⟩ := h
    have hsaved : Carries server drawn before saved := .saveAccount (fun hcreated => by cases hcreated) hsave
    split at hupdate
    · exact trans_of (Carries server drawn) hsaved (.updateRow hupdate)
    · cases hupdate

theorem carries_updateAccountDetail (dto : UpdateAccountDto) :
    Moves (Carries server drawn) (updateAccountDetail tz call dto) := by
  refine .bind (.lift _) fun _ => .bind (.read _) fun projection => .bind (.lift _) fun _ =>
    .bind (.lift _) fun _ => .bind (.atomically fun db result after h => ?_) fun _ => .pure _
  simp only [updateDetailTransaction, Fallible.bind_eq_ok] at h
  obtain ⟨afterBot, hbot, h⟩ := h
  split at h
  · cases h
  · simp only [Fallible.bind_eq_ok] at h
    obtain ⟨icon, _, banner, _, afterProfile, hprofile, afterFields, hfields, detail, _, hresult⟩ := h
    cases hresult
    have hedited : Carries server drawn afterBot after :=
      trans_of (Carries server drawn) (.updateProfile hprofile) (.updateFields hfields)
    exact trans_of (Carries server drawn) (.updateIsBot hbot) hedited

theorem carries_createAccount (authAccountId : AuthAccountId) (dto : CreateAccountDto) :
    Moves (Carries server drawn) (createAccount tz call authAccountId dto) := by
  refine .bind (.atomically fun db account after h => ?_) fun _ => .bind (.lift _) fun _ => .pure _
  simp only [createTransaction, Fallible.bind_eq_ok] at h
  obtain ⟨⟨created, saved⟩, hsave, applied, happlied, account, hconstructed, afterCreate, hcreate,
    afterLink, hlink, ⟨createdProfile, savedProfile⟩, hsaveProfile, appliedProfile, _, profile, _,
    afterProfile, hprofile, _, _, hresult⟩ := h
  cases hresult
  have hsaved : Carries server drawn db saved := .saveAccount (fun _ => rfl) hsave
  -- the row gets the nanoid of the event that has just been saved
  have hrow : Carries server drawn saved afterCreate := by
    simp only [AccountReadModel.create, uniqueViolation, reject] at hcreate
    split_ifs at hcreate
    cases hcreate
    refine .of_accounts (List.Subset.refl _) (fun hnames => hnames.putRow ?_) rfl rfl rfl rfl
    obtain ⟨_, hcreated, rfl⟩ := AccountRepository.save_ok hsave
    cases applied with
    | none => cases hconstructed
    | some applied =>
        cases hconstructed
        rcases apply_named happlied with ⟨_, hnone, _⟩ | ⟨hid, hnamed⟩
        · cases hnone
        · refine ⟨_, List.mem_cons_self, ?_, ?_⟩
          · rw [AccountRow.ofAccount_id]
            exact hid
          · simpa using hnamed
  have hprofiles : Carries server drawn afterLink after :=
    trans_of (Carries server drawn) (.saveProfile hsaveProfile) (.createProfile hprofile)
  exact trans_of (Carries server drawn) hsaved (trans_of (Carries server drawn) hrow
    (trans_of (Carries server drawn) (.linkAuthAccount hlink) hprofiles))

theorem carries_commandTransaction {id : AccountId} {check : Account → Result Unit}
    {command : EventVersion → CommandEnvelope AccountEvent}
    (hcommand : ∀ version, (command version).event.isCreated = false) :
    Moves (Carries server drawn) (exec (commandTransaction call id check command)) := by
  refine .exec fun db after h => ?_
  simp only [commandTransaction, Fallible.bind_eq_ok] at h
  obtain ⟨loaded, _, _, _, ⟨envelope, saved⟩, hsave, hresult⟩ := h
  cases hresult
  refine .saveAccount (fun hcreated => ?_) hsave
  rw [hcommand] at hcreated
  cases hcreated

theorem carries_moderate {accountNanoid : String} {precondition : Result Unit}
    {check : Account → Result Unit} {command : AccountId → EventVersion → CommandEnvelope AccountEvent}
    (hcommand : ∀ id version, (command id version).event.isCreated = false) :
    Moves (Carries server drawn) (moderate call accountNanoid precondition check command) :=
  .bind (.read _) fun _ => .bind (.lift _) fun _ => .bind (.lift _) fun _ =>
    carries_commandTransaction (hcommand _)

theorem carries_deactivateAccount (accountNanoid : String) :
    Moves (Carries server drawn) (deactivateAccount call accountNanoid) :=
  .bind (.read _) fun _ => .bind (.lift _) fun _ =>
    .bind (carries_commandTransaction fun _ => rfl) fun _ => .lift _

theorem carries_reactivateAccount (authAccountId : AuthAccountId) (accountNanoid : String) :
    Moves (Carries server drawn) (reactivateAccount call authAccountId accountNanoid) :=
  .bind (.read _) fun _ => .bind (.read _) fun _ =>
    .bind (carries_commandTransaction fun _ => rfl) fun _ => .lift _

end Accounts

/-! ### Projections -/

section Projections

variable {server : Server} {drawn : List Int} {tz : Timestamptz} {env : PollEnv} {before after : Db}

theorem Carries.upsertRow {account : Account}
    (hnamed : NamedOnce before → Named before.accountEvents account.id account.nanoid)
    (h : AccountProjectionWriter.upsert tz before account = .ok after) :
    Carries server drawn before after := by
  simp only [AccountProjectionWriter.upsert, uniqueViolation, reject] at h
  split_ifs at h
  · cases h
    refine .of_accounts (List.Subset.refl _) (fun hnames => hnames.putRow ?_) rfl rfl rfl rfl
    simpa using hnamed hnames
  · cases h
    exact refl_of (Carries server drawn) _

theorem Carries.deleteFollows {follows : List Follow}
    (h : AccountProjector.deleteFollows before follows = .ok after) :
    Carries server drawn before after := by
  obtain ⟨htables, hrows⟩ := FollowRepository.deletes_ok h
  rw [htables]
  exact .fewerFollows fun row hrow => ((hrows row).mp hrow).1

theorem Carries.cascade {accountId : AccountId}
    (h : AccountProjector.cascade before accountId = .ok after) : Carries server drawn before after := by
  simp only [AccountProjector.cascade, Fallible.bind_eq_ok] at h
  obtain ⟨afterProfile, hprofile, afterMetadatas, hmetadatas, _, _, afterFollowings, hfollowings, _, _,
    hfollowers⟩ := h
  have hdependents : Carries server drawn before afterMetadatas := by
    rw [(AccountProjector.deleteMetadatas_ok hmetadatas).1, (AccountProjector.deleteProfile_ok hprofile).1]
    exact .of_same rfl rfl rfl rfl rfl rfl
  exact trans_of (Carries server drawn) hdependents
    (trans_of (Carries server drawn) (.deleteFollows hfollowings) (.deleteFollows hfollowers))

theorem Carries.writeAccount {account : Account} {created : Option AuthAccountId} {accountId : AccountId}
    (hnamed : NamedOnce before → Named before.accountEvents account.id account.nanoid)
    (h : AccountProjector.write tz before account created accountId = .ok after) :
    Carries server drawn before after := by
  simp only [AccountProjector.write, Fallible.bind_eq_ok] at h
  obtain ⟨upserted, hupsert, hrest⟩ := h
  have hupserted : Carries server drawn before upserted := .upsertRow hnamed hupsert
  split_ifs at hrest
  · exact trans_of (Carries server drawn) hupserted (.cascade hrest)
  · cases created with
    | none =>
        cases hrest
        exact hupserted
    | some authId => exact trans_of (Carries server drawn) hupserted (.linkAuthAccount hrest)

/-- The account that is folded has the nanoid of its row or of an event of the batch. -/
theorem Carries.projectAccount {id : AccountId} {events : List (SeqEvent AccountEvent)}
    {owner : Option (AccountId × AuthAccountId)} (hevents : events ⊆ before.accountEvents)
    (h : AccountProjector.project tz env before id events = .written after owner) :
    Carries server drawn before after := by
  rcases AccountProjector.project_cases tz env before id events with
    ⟨_, heq⟩ | ⟨account, hentity, _, ⟨result, hwrite, heq⟩ | heq⟩
  · cases heq.symm.trans h
  · cases heq.symm.trans h
    refine .writeAccount (fun hnames => ?_) hwrite
    rcases foldEvents_named hentity with ⟨old, hold, hid, hnanoid⟩ | ⟨envelope, hmem, hid, hcreated⟩
    · obtain ⟨row, hrow, rfl⟩ := Option.map_eq_some_iff.mp hold
      have hstored := (Table.get_eq_some_iff.mp (Option.filter_eq_some_iff.mp hrow).1).1
      rw [← hid, ← hnanoid]
      exact hnames.rows row hstored
    · obtain ⟨event, hevent, rfl⟩ := List.mem_map.mp hmem
      exact ⟨event, hevents (List.mem_filter.mp hevent).1, hid, hcreated⟩
  · cases heq.symm.trans h

theorem Carries.project {kind : Aggregate} {id : Int} {events : List (SeqEvent kind.Event)}
    {owner : Option (AccountId × AuthAccountId)} (hevents : events ⊆ before.events kind)
    (h : kind.project tz env before id events = .written after owner) :
    Carries server drawn before after := by
  cases kind with
  | account => exact .projectAccount hevents h
  | profile =>
      obtain ⟨entity, _, _, hwrite⟩ := ProfileProjector.project_written h
      cases entity with
      | none =>
          cases hwrite
          exact .of_same rfl rfl rfl rfl rfl rfl
      | some profile =>
          simp only [ProfileProjector.write, ProfileProjectionWriter.upsert, uniqueViolation,
            foreignKeyViolation, reject] at hwrite
          split_ifs at hwrite <;> cases hwrite <;> exact .of_same rfl rfl rfl rfl rfl rfl
  | metadata =>
      obtain ⟨entity, hwrite⟩ := MetadataProjector.project_written h
      cases entity with
      | none =>
          cases hwrite
          exact .of_same rfl rfl rfl rfl rfl rfl
      | some metadata =>
          simp only [MetadataProjector.write, MetadataProjectionWriter.upsert, uniqueViolation,
            foreignKeyViolation, reject] at hwrite
          split_ifs at hwrite <;> cases hwrite <;> exact .of_same rfl rfl rfl rfl rfl rfl

theorem carries_projectBatch (kind : Aggregate) (db : Db) :
    Carries server drawn db (kind.projectBatch tz env db).progress.db := by
  by_cases hempty : db.batch kind = []
  · rw [Aggregate.projectBatch_of_nil hempty]
    exact refl_of (Carries server drawn) db
  · rw [Aggregate.projectBatch_of_ne_nil hempty]
    -- every group is a part of the batch, and the logs stay as they are
    let R : Db → Db → Prop := fun a b => db.SameLogs a → db.SameLogs b ∧ Carries server drawn a b
    have hprogress : R db (kind.progress tz env db).db := by
      refine Projector.foldl_related (R := R) (fun a h => ⟨h, refl_of (Carries server drawn) a⟩) ?_ ?_ _
        ⟨db, [], []⟩
      · intro a b c hab hbc hlogs
        obtain ⟨hlogs', hcarries⟩ := hab hlogs
        obtain ⟨hlogs'', hcarries'⟩ := hbc hlogs'
        exact ⟨hlogs'', trans_of (Carries server drawn) hcarries hcarries'⟩
      · intro a id b owner h hlogs
        refine ⟨hlogs.trans (Aggregate.sameLogs_project h), .project ?_ h⟩
        intro event hevent
        rw [hlogs.events kind]
        exact (Tailing.mem_of_mem_window SeqEvent.seq (Projector.mem_groupOf.mp hevent).1).1
    exact (hprogress (.refl db)).2.then_same rfl rfl rfl rfl rfl rfl

end Projections

/-! ### What is sent -/

/-- The relations whose activities are undone. -/
inductive Relation where
  | block
  | follow

namespace Relation

/-- The activity that tells a remote account about the relation. -/
def activity : Relation → String → Int → String → String → Activity
  | .block => blockActivity
  | .follow => followActivity

/-- The relation with the id, if it is stored, is from the account to the remote account. -/
def Ends (db : Db) (id : Int) (accountId : AccountId) (remoteId : RemoteAccountId) : Relation → Prop
  | .block => ∀ row ∈ db.blocks.rows, row.id = id → row.relates (.Local accountId) (.Remote remoteId) = true
  | .follow => ∀ row ∈ db.follows.rows, row.id = id →
      row.relates (.Local accountId) (.Remote remoteId) = true

end Relation

/-- The text is the activity of the relation as it would be built again. -/
def Wrote (server : Server) (relation : Relation) (id : Int) (db : Db) (text : String) : Prop :=
  ∃ accountId nanoid, ∃ remote ∈ db.remoteAccounts.rows, Named db.accountEvents accountId nanoid ∧
    relation.Ends db id accountId remote.id ∧
    text = (relation.activity server.publicBaseUrl id (localActorUrl server.publicBaseUrl nanoid)
      remote.url).render

/-- The text stays the one that would be built again, whatever calls with other ids do. -/
theorem Wrote.carries {server : Server} {relation : Relation} {id : Int} {before after : Db} {text : String}
    {drawn : List Int} (h : Wrote server relation id before text)
    (hcarries : Carries server drawn before after) (hid : id ∉ drawn) :
    Wrote server relation id after text := by
  obtain ⟨accountId, nanoid, remote, hremote, hnamed, hends, htext⟩ := h
  obtain ⟨kept, hkept, hkeptId, hurl⟩ := hcarries.urls remote hremote
  refine ⟨accountId, nanoid, kept, hkept, hnamed.mono hcarries.events, ?_, hurl ▸ htext⟩
  rw [hkeptId]
  cases relation with
  | block =>
      intro row hrow hrowId
      rcases hcarries.blocks row hrow with hold | hdrawn
      · exact hends row hold hrowId
      · exact absurd (hrowId ▸ hdrawn) hid
  | follow =>
      intro row hrow hrowId
      rcases hcarries.follows row hrow with ⟨old, hold, holdId, hsame⟩ | hdrawn
      · rw [← hsame]
        exact hends old hold (holdId.trans hrowId)
      · exact absurd (hrowId ▸ hdrawn) hid

/-- Every entry of the outbox that is new is such a text. -/
def Posts (server : Server) (relation : Relation) (id : Int) (db after : Db) : Prop :=
  ∀ row ∈ after.outboxActivities.rows, (∃ old ∈ db.outboxActivities.rows, old.id = row.id) ∨
    Wrote server relation id after row.objectJson

section Sending

variable (server : Server) (outside : Outside) {relation : Relation} {id : Int} {db s after : Db}

theorem Posts.of_same (h : s.outboxActivities = db.outboxActivities) : Posts server relation id db s :=
  fun row hrow => .inl ⟨row, h ▸ hrow, rfl⟩

theorem Posts.put (h : s.outboxActivities = db.outboxActivities) {entry : OutboxActivity}
    (hentry : Wrote server relation id s entry.objectJson) :
    Posts server relation id db { s with outboxActivities := s.outboxActivities.put entry } := by
  intro row hrow
  rcases Table.mem_put.mp hrow with rfl | ⟨hold, _⟩
  · exact .inr hentry
  · exact .inl ⟨row, h ▸ hold, rfl⟩

theorem posts_deliverStored (outboxId : Option OutboxActivityId) (delivery : Option Delivery) :
    Triple (Posts server relation id db) (deliverStored outside outboxId delivery)
      (fun _ => Posts server relation id db) (Posts server relation id db) := by
  let R : Db → Db → Prop := fun a b => Posts server relation id db a → Posts server relation id db b
  have : IsPreorder Db R := { refl := fun _ h => h, trans := fun _ _ _ h h' hposts => h' (h hposts) }
  have hmoves : Moves R (deliverStored outside outboxId delivery) := by
    refine moves_deliverStored_of outside (fun s row marked hrow hid _ hobject hposts => ?_) _ _
    intro other hother
    rcases Table.mem_put.mp hother with rfl | ⟨hold, _⟩
    · rw [hid, hobject]
      exact hposts row hrow
    · exact hposts other hold
  exact hmoves.triple fun _ _ hs hmoved => hmoved hs

/-- The account a request is made for has its name. -/
theorem named_of_findAccount {now : OffsetDateTime} {accountNanoid : String} {account : Account}
    (hnames : NamedOnce db) (h : findAccount db now accountNanoid = .ok account) :
    Named db.accountEvents account.id account.nanoid := by
  unfold findAccount at h
  split at h
  · next found hfound =>
      cases h
      obtain ⟨row, hrow, rfl⟩ := Option.map_eq_some_iff.mp hfound
      exact hnames.rows row (List.mem_of_find?_eq_some hrow)
  · cases h

/-- The outbox is as before and the events are still there. -/
def Quiet (db s : Db) : Prop :=
  s.outboxActivities = db.outboxActivities ∧ s.accountEvents = db.accountEvents ∧ s.accounts = db.accounts

theorem quiet_upsertRemoteAccount (actor : ResolvedRemoteActor) :
    Triple (Quiet db) (atomically (upsertRemoteAccount outside actor))
      (fun remote s => Quiet db s ∧ remote ∈ s.remoteAccounts.rows) (Quiet db) := by
  refine .atomically (fun s remote after hs h => ?_) fun _ hs => hs
  obtain ⟨rfl, _⟩ := upsertRemoteAccount_ok h
  exact ⟨hs, Table.mem_put.mpr (.inl rfl)⟩

/-- A remote target is stored. -/
def Stored (s : Db) : BlockTarget → Prop
  | .Local _ => True
  | .Remote remote => remote ∈ s.remoteAccounts.rows

theorem quiet_resolveBlockTarget (target : String) :
    Triple (Quiet db) (resolveBlockTarget server outside target)
      (fun resolved s => Quiet db s ∧ Stored s resolved) (Quiet db) := by
  refine .bind (Q := fun _ => Quiet db) (.read (fun _ _ hs _ => hs) fun _ hs => hs) fun found => ?_
  cases found with
  | some account => exact .pure fun _ hs => ⟨hs, trivial⟩
  | none =>
      exact .bind (Q := fun _ => Quiet db) (.lift (fun _ _ _ hs => hs) fun _ hs => hs) fun actor =>
        .bind (quiet_upsertRemoteAccount outside actor) fun remote => .pure fun _ hs => hs

theorem posts_blockTransaction {account : Account} {block : Block} {resolved : BlockTarget}
    {outboxId : Option OutboxActivityId} (hquiet : Quiet db s)
    (hnamed : Named db.accountEvents account.id account.nanoid) (hstored : Stored s resolved)
    (hsource : block.source = .Local account.id) (hdestination : block.destination = resolved.id)
    (h : blockTransaction outside account.id block (resolved.blockDelivery server block.id
      (localActorUrl server.publicBaseUrl account.nanoid)) s = .ok (outboxId, after)) :
    Posts server .block block.id db after := by
  simp only [blockTransaction, Fallible.bind_eq_ok, reject] at h
  obtain ⟨existing, _, h⟩ := h
  split_ifs at h
  simp only [Fallible.bind_eq_ok] at h
  obtain ⟨created, hcreate, removed, hremove, hstore⟩ := h
  obtain rfl := BlockRepository.insert_inserted (Insertion.orReject_ok hcreate)
  obtain ⟨hremoved, _⟩ := removeFollowsBetween_ok hremove
  have houtbox : removed.outboxActivities = db.outboxActivities := by
    rw [hremoved]
    exact hquiet.1
  rcases storeDelivery_ok hstore with ⟨_, _, rfl⟩ | ⟨activity, inboxUrl, hdelivery, _, _, rfl⟩
  · exact .of_same server houtbox
  · cases resolved with
    | Local _ => cases hdelivery
    | Remote remote =>
        cases hdelivery
        refine .put server houtbox ⟨account.id, account.nanoid, remote, ?_, ?_, ?_, rfl⟩
        · rw [hremoved]
          exact hstored
        · rw [hremoved]
          exact hquiet.2.1 ▸ hnamed
        · rw [hremoved]
          intro row hrow hid
          rcases Table.mem_put.mp hrow with rfl | ⟨_, hother⟩
          · exact relates_ofBlock.mpr ⟨hsource, hdestination⟩
          · exact absurd hid hother

theorem posts_blockAccount (hnames : NamedOnce db) (accountNanoid target : String) :
    Posts server .block outside.relationId db (blockAccount server outside accountNanoid target db).2 := by
  have hquiet : ∀ s, Quiet db s → Posts server .block outside.relationId db s :=
    fun s hs => .of_same server hs.1
  refine Triple.run (P := Quiet db) ?_ ⟨rfl, rfl, rfl⟩
  refine .bind (Q := fun account s => Quiet db s ∧ Named db.accountEvents account.id account.nanoid)
    (.read (fun account s hs hfound => ⟨hs, ?_⟩) hquiet) fun account => .assume fun hnamed => ?_
  · rw [← hs.2.1]
    exact named_of_findAccount (hnames.congr hs.2.1 hs.2.2) hfound
  refine .bind (Q := fun _ => Quiet db) (.lift (fun _ _ _ hs => hs) hquiet) fun _ => ?_
  refine .bind ((quiet_resolveBlockTarget server outside target).mono_error hquiet) fun resolved => ?_
  refine .bind (Q := fun block s => (Quiet db s ∧ Stored s resolved) ∧ block.id = outside.relationId ∧
      block.source = .Local account.id ∧ block.destination = resolved.id)
    (.lift (fun block s hnew hs => ⟨hs, ?_⟩) fun s hs => hquiet s hs.1)
    fun block => .assume fun ⟨hid, hsource, hdestination⟩ => ?_
  · simp only [reject] at hnew
    split_ifs at hnew
    exact ⟨Block.new_id hnew, Block.new_ok hnew⟩
  refine .bind (Q := fun _ => Posts server .block outside.relationId db)
    (.atomically (fun s outboxId after hs h => ?_) fun s hs => hquiet s hs.1) fun _ =>
    .bind (posts_deliverStored _ _ _ _) fun _ => .pure fun _ hs => hs
  rw [← hid]
  exact posts_blockTransaction server outside hs.1 hnamed hs.2 hsource hdestination h

theorem posts_storeDelivered {account : Account} {remote : RemoteAccount} {followId : FollowId}
    (hnamed : Named db.accountEvents account.id account.nanoid) :
    Triple (fun s => Quiet db s ∧ remote ∈ s.remoteAccounts.rows ∧
        Relation.follow.Ends s followId account.id remote.id)
      (storeDelivered outside account.id (followActivity server.publicBaseUrl followId
        (localActorUrl server.publicBaseUrl account.nanoid) remote.url))
      (fun _ => Posts server .follow followId db) (Posts server .follow followId db) := by
  refine .exec (fun s after hs h => ?_) fun s hs => .of_same server hs.1.1
  obtain ⟨hquiet, hremote, hends⟩ := hs
  split at h
  · next hcreate =>
      cases h
      obtain ⟨_, _, rfl⟩ := outboxCreate_ok hcreate
      refine .put server hquiet.1 ⟨account.id, account.nanoid, remote, hremote, ?_, hends, rfl⟩
      rw [hquiet.2.1]
      exact hnamed
  · cases h

theorem posts_sendFollow (hnames : NamedOnce db) (accountNanoid target : String) :
    Posts server .follow outside.relationId db (sendFollow server outside accountNanoid target db).2 := by
  have hquiet : ∀ s, Quiet db s → Posts server .follow outside.relationId db s :=
    fun s hs => .of_same server hs.1
  refine Triple.run (P := Quiet db) ?_ ⟨rfl, rfl, rfl⟩
  refine .bind (Q := fun account s => Quiet db s ∧ Named db.accountEvents account.id account.nanoid)
    (.read (fun account s hs hfound => ⟨hs, ?_⟩) hquiet) fun account => .assume fun hnamed => ?_
  · rw [← hs.2.1]
    exact named_of_findAccount (hnames.congr hs.2.1 hs.2.2) hfound
  refine .bind (Q := fun _ => Quiet db) (.lift (fun _ _ _ hs => hs) hquiet) fun _ =>
    .bind (Q := fun _ => Quiet db) (.lift (fun _ _ _ hs => hs) hquiet) fun actor => ?_
  refine .bind ((quiet_upsertRemoteAccount outside actor).mono_error hquiet) fun remote => ?_
  refine .bind (Q := fun _ s => Quiet db s ∧ remote ∈ s.remoteAccounts.rows)
    (.read (fun _ _ hs _ => hs) fun s hs => hquiet s hs.1) fun existing => ?_
  refine .bind (Q := fun follow s => (Quiet db s ∧ remote ∈ s.remoteAccounts.rows) ∧
      follow.id = outside.relationId ∧ follow.source = .Local account.id ∧
      follow.destination = .Remote remote.id)
    (.lift (fun follow s hnew hs => ⟨hs, ?_⟩) fun s hs => hquiet s hs.1)
    fun follow => .assume fun ⟨hid, hends⟩ => ?_
  · simp only [reject] at hnew
    split_ifs at hnew
    exact ⟨Follow.new_id hnew, Follow.new_ok hnew⟩
  refine .bind (Q := fun _ s => Quiet db s ∧ remote ∈ s.remoteAccounts.rows ∧
      Relation.follow.Ends s follow.id account.id remote.id)
    (.exec (fun s after hs hcreate => ?_) fun s hs => hquiet s hs.1) fun _ => ?_
  · obtain rfl := FollowRepository.insert_inserted (Insertion.orReject_ok hcreate)
    refine ⟨hs.1, hs.2, fun row hrow hrowId => ?_⟩
    rcases Table.mem_put.mp hrow with rfl | ⟨_, hother⟩
    · exact relates_ofFollow.mpr hends
    · exact absurd hrowId hother
  rw [← hid] at hquiet ⊢
  dsimp only
  split
  · refine .bind (Q := fun _ => Quiet db) (.exec (fun s after hs hdelete => ?_) fun s hs => hquiet s hs.1)
      fun _ => .lift (fun _ s _ hs => hquiet s hs) hquiet
    rw [FollowRepository.delete_ok hdelete]
    exact hs.1
  · exact .bind (posts_storeDelivered server outside hnamed) fun _ => .pure fun _ hs => hs

end Sending

/-! ### Runs -/

/-- A request, an activity that is posted to an inbox, or a poll of a projector. -/
inductive Action where
  | createAccount (call : Call) (authAccountId : AuthAccountId) (dto : CreateAccountDto)
  | updateAccountDetail (call : Call) (dto : UpdateAccountDto)
  | deactivateAccount (call : Call) (accountNanoid : String)
  | reactivateAccount (call : Call) (authAccountId : AuthAccountId) (accountNanoid : String)
  | suspendAccount (call : Call) (accountNanoid reason : String) (expiresAt : Option OffsetDateTime)
  | unsuspendAccount (call : Call) (accountNanoid : String)
  | banAccount (call : Call) (accountNanoid reason : String)
  | unbanAccount (call : Call) (accountNanoid : String)
  | projectBatch (kind : Aggregate) (env : PollEnv)
  | sendFollow (outside : Outside) (accountNanoid target : String)
  | sendUndoFollow (outside : Outside) (accountNanoid target : String)
  | blockAccount (outside : Outside) (accountNanoid target : String)
  | unblockAccount (outside : Outside) (accountNanoid target : String)
  | muteAccount (outside : Outside) (accountNanoid target : String)
  | unmuteAccount (outside : Outside) (accountNanoid target : String)
  | inbox (outside : Outside) (accountNanoid : String) (activity : Activity)

/-- The database afterwards, whether the operation succeeded or failed. -/
def step (tz : Timestamptz) (server : Server) (db : Db) : Action → Db
  | .createAccount call authAccountId dto => (createAccount tz call authAccountId dto db).2
  | .updateAccountDetail call dto => (updateAccountDetail tz call dto db).2
  | .deactivateAccount call accountNanoid => (deactivateAccount call accountNanoid db).2
  | .reactivateAccount call authAccountId accountNanoid =>
      (reactivateAccount call authAccountId accountNanoid db).2
  | .suspendAccount call accountNanoid reason expiresAt =>
      (suspendAccount call accountNanoid reason expiresAt db).2
  | .unsuspendAccount call accountNanoid => (unsuspendAccount call accountNanoid db).2
  | .banAccount call accountNanoid reason => (banAccount call accountNanoid reason db).2
  | .unbanAccount call accountNanoid => (unbanAccount call accountNanoid db).2
  | .projectBatch kind env => (kind.projectBatch tz env db).progress.db
  | .sendFollow outside accountNanoid target => (sendFollow server outside accountNanoid target db).2
  | .sendUndoFollow outside accountNanoid target =>
      (sendUndoFollow server outside accountNanoid target db).2
  | .blockAccount outside accountNanoid target => (blockAccount server outside accountNanoid target db).2
  | .unblockAccount outside accountNanoid target =>
      (unblockAccount server outside accountNanoid target db).2
  | .muteAccount outside accountNanoid target => (muteAccount server outside accountNanoid target db).2
  | .unmuteAccount outside accountNanoid target =>
      (unmuteAccount server outside accountNanoid target db).2
  | .inbox outside accountNanoid activity =>
      match AccountReadModel.findByNanoid db outside.now accountNanoid with
      | some account =>
          (handleInboxActivity server outside ⟨account.id, accountNanoid, activity⟩ db).2
      | none => db

/-- The ids an action draws for relations and activities that may be sent. -/
def Action.drawn : Action → List Int
  | .sendFollow outside .. | .sendUndoFollow outside .. | .blockAccount outside ..
  | .unblockAccount outside .. | .inbox outside .. => ids outside
  | _ => []

theorem carries_step (tz : Timestamptz) (server : Server) (db : Db) (action : Action) :
    Carries server action.drawn db (step tz server db action) := by
  cases action with
  | createAccount call authAccountId dto => exact carries_createAccount authAccountId dto db
  | updateAccountDetail call dto => exact carries_updateAccountDetail dto db
  | deactivateAccount call accountNanoid => exact carries_deactivateAccount accountNanoid db
  | reactivateAccount call authAccountId accountNanoid =>
      exact carries_reactivateAccount authAccountId accountNanoid db
  | suspendAccount call accountNanoid reason expiresAt =>
      exact Moves.bind (R := Carries server []) (.lift _) (fun _ => carries_moderate fun _ _ => rfl) db
  | unsuspendAccount call accountNanoid => exact carries_moderate (fun _ _ => rfl) db
  | banAccount call accountNanoid reason =>
      exact Moves.bind (R := Carries server []) (.lift _) (fun _ => carries_moderate fun _ _ => rfl) db
  | unbanAccount call accountNanoid => exact carries_moderate (fun _ _ => rfl) db
  | projectBatch kind env => exact carries_projectBatch kind db
  | sendFollow outside accountNanoid target => exact carries_sendFollow server outside _ _ db
  | sendUndoFollow outside accountNanoid target => exact carries_sendUndoFollow server outside _ _ db
  | blockAccount outside accountNanoid target => exact carries_blockAccount server outside _ _ db
  | unblockAccount outside accountNanoid target => exact carries_unblockAccount server outside _ _ db
  | muteAccount outside accountNanoid target => exact carries_muteAccount server outside _ _ db
  | unmuteAccount outside accountNanoid target => exact carries_unmuteAccount server outside _ _ db
  | inbox outside accountNanoid activity =>
      cases hfound : AccountReadModel.findByNanoid db outside.now accountNanoid with
      | none =>
          simp only [step, hfound]
          exact refl_of (Carries server _) db
      | some account =>
          simp only [step, hfound]
          exact carries_handleInboxActivity server outside _ db

/-- Empty tables, apart from the auth accounts that can own an account and the images. -/
def start (authAccounts : List AuthAccountId) (images : Table Image.id) : Db :=
  { Db.empty with authAccounts, images }

variable {tz : Timestamptz} {server : Server}

theorem namedOnce_run (authAccounts : List AuthAccountId) (images : Table Image.id) (actions : List Action) :
    NamedOnce (Runs.run (step tz server) (start authAccounts images) actions) := by
  refine Runs.run_invariant (fun db action h => (carries_step tz server db action).names h) ?_ actions
  refine ⟨fun {id nanoid other} hnamed => ?_, fun row hrow => nomatch hrow⟩
  obtain ⟨event, hevent, _⟩ := hnamed
  cases hevent

theorem Wrote.run {relation : Relation} {id : Int} {text : String} {db : Db} {actions : List Action}
    (h : Wrote server relation id db text) (hid : ∀ action ∈ actions, id ∉ action.drawn) :
    Wrote server relation id (Runs.run (step tz server) db actions) text := by
  induction actions generalizing db with
  | nil => exact h
  | cons action rest ih =>
      obtain ⟨hfirst, hrest⟩ := List.forall_mem_cons.mp hid
      exact ih (h.carries (carries_step tz server db action) hfirst) hrest

/-- Every activity in the outbox has an id that was drawn in the run. -/
theorem drawn_of_mem_outbox (authAccounts : List AuthAccountId) (images : Table Image.id)
    {actions : List Action} {row : OutboxActivity}
    (hrow : row ∈ (Runs.run (step tz server) (start authAccounts images) actions).outboxActivities.rows) :
    ∃ id ∈ actions.flatMap Action.drawn, row.activityId = activityUrl server.publicBaseUrl id := by
  induction actions using List.reverseRecOn generalizing row with
  | nil => cases hrow
  | append_singleton actions action ih =>
      rw [Runs.run_append] at hrow
      rcases (carries_step tz server _ action).outbox row hrow with ⟨old, hold, hsame⟩ | ⟨id, hid, hactivity⟩
      · obtain ⟨id, hid, hactivity⟩ := ih hold
        refine ⟨id, ?_, hsame ▸ hactivity⟩
        rw [List.flatMap_append]
        exact List.mem_append_left _ hid
      · refine ⟨id, ?_, hactivity⟩
        rw [List.flatMap_append]
        exact List.mem_append_right _ (by simpa using hid)

/-! ### What is undone -/

section Undoing

variable (server : Server) (outside : Outside)

/-- The call stores or delivers this Undo for a remote target. The id is the one of the block that its
transaction deletes, or of the follow that it looked up. -/
def Emits (relation : Relation) (id : Int) (undo : Activity) (db : Db) : Action → Prop
  | .unblockAccount outside accountNanoid target => relation = .block ∧
      ∃ account remote mid outboxId inboxUrl after,
        beginUnblock server outside accountNanoid target db = (.ok (account, .Remote remote), mid) ∧
        unblockTransaction server outside account (.Remote remote) mid =
          .ok ((outboxId, some (undo, inboxUrl)), after) ∧
        (∃ row ∈ mid.blocks.rows, row.id = id) ∧ ∀ row ∈ after.blocks.rows, row.id ≠ id
  | .sendUndoFollow outside accountNanoid target => relation = .follow ∧
      ∃ account remote follow mid,
        beginUndoFollow server outside accountNanoid target db = (.ok (account, .Remote remote, follow), mid) ∧
        follow.id = id ∧ undo = outboundUndo server outside account remote follow
  | _ => False

/-- The relation is stored between the two. -/
def Relation.Has (db : Db) (id : Int) (accountId : AccountId) (remoteId : RemoteAccountId) : Relation → Prop
  | .block => ∃ row ∈ db.blocks.rows, row.id = id ∧ row.relates (.Local accountId) (.Remote remoteId) = true
  | .follow => ∃ row ∈ db.follows.rows, row.id = id ∧
      row.relates (.Local accountId) (.Remote remoteId) = true

theorem Relation.Ends.eq {relation : Relation} {db : Db} {id : Int} {accountId other : AccountId}
    {remoteId otherRemote : RemoteAccountId} (h : relation.Ends db id accountId remoteId)
    (hhas : relation.Has db id other otherRemote) : accountId = other ∧ remoteId = otherRemote := by
  cases relation with
  | block =>
      obtain ⟨row, hrow, hid, hrelates⟩ := hhas
      obtain ⟨hlocal, hremote⟩ := block_ends_of_relates (h row hrow hid) hrelates
      cases hlocal
      cases hremote
      exact ⟨rfl, rfl⟩
  | follow =>
      obtain ⟨row, hrow, hid, hrelates⟩ := hhas
      obtain ⟨hlocal, hremote⟩ := ends_of_relates (h row hrow hid) hrelates
      cases hlocal
      cases hremote
      exact ⟨rfl, rfl⟩

/-- What an Undo is built from, in the database once the target is resolved. -/
structure Rebuilt (relation : Relation) (id : Int) (undo : Activity) (db mid : Db) : Prop where
  carries : Carries server [] db mid
  built : ∃ accountId nanoid, ∃ remote ∈ mid.remoteAccounts.rows, Named db.accountEvents accountId nanoid ∧
    relation.Has mid id accountId remote.id ∧
    undo.object = some (relation.activity server.publicBaseUrl id
      (localActorUrl server.publicBaseUrl nanoid) remote.url).toJson

theorem quiet_resolveUnfollowTarget {db : Db} (target : String) :
    Triple (Quiet db) (resolveUnfollowTarget server outside target)
      (fun resolved s => Quiet db s ∧ Stored s resolved) (Quiet db) := by
  refine .bind (Q := fun _ => Quiet db) (.read (fun _ _ hs _ => hs) fun _ hs => hs) fun found => ?_
  cases found with
  | some account => exact .pure fun _ hs => ⟨hs, trivial⟩
  | none =>
      exact .bind (Q := fun _ => Quiet db) (.lift (fun _ _ _ hs => hs) fun _ hs => hs) fun actor =>
        .bind (quiet_upsertRemoteAccount outside actor) fun remote => .pure fun _ hs => hs

/-- The remote account a target resolves to is stored. -/
theorem remote_mem_of_resolved {op : Session Db Report BlockTarget} {db mid : Db} {remote : RemoteAccount}
    (hop : Triple (Quiet db) op (fun resolved s => Quiet db s ∧ Stored s resolved) (Quiet db))
    (h : op db = (.ok (.Remote remote), mid)) : remote ∈ mid.remoteAccounts.rows := by
  have hresolved := hop db ⟨rfl, rfl, rfl⟩
  rw [h] at hresolved
  exact hresolved.2

theorem rebuilt_unblock {db mid after : Db} {id : Int} {undo : Activity} {accountNanoid target : String}
    {account : Account} {remote : RemoteAccount} {outboxId : Option OutboxActivityId}
    {inboxUrl : Option String} (hnames : NamedOnce db)
    (hbegin : beginUnblock server outside accountNanoid target db = (.ok (account, .Remote remote), mid))
    (htransaction : unblockTransaction server outside account (.Remote remote) mid =
      .ok ((outboxId, some (undo, inboxUrl)), after))
    (hstored : ∃ row ∈ mid.blocks.rows, row.id = id) (hdeleted : ∀ row ∈ after.blocks.rows, row.id ≠ id) :
    Rebuilt server .block id undo db mid ∧ undo.id = activityUrl server.publicBaseUrl outside.activityId := by
  obtain ⟨hfound, _, hresolve⟩ := (beginUnblock_eq_ok server outside).mp hbegin
  obtain ⟨blocks, block, hblock, hblocks, hdestination, hdelivery, hstore⟩ :=
    unblockTransaction_ok server outside htransaction
  cases hdelivery
  -- the block that is gone is the one that was found
  have hid : block.id = id := by
    obtain ⟨row, hrow, hrowId⟩ := hstored
    by_contra hother
    refine hdeleted row ?_ hrowId
    rw [storeDelivery_tables hstore]
    exact Table.mem_erase.mpr ⟨hrow, fun heq => hother (heq.symm.trans hrowId)⟩
  obtain ⟨row, hselected, hread⟩ := Fallible.exists_of_mem_results hblocks hblock
  obtain ⟨hrow, hblocker⟩ := List.mem_filter.mp hselected
  obtain ⟨read, hread', hreadId, hrelates⟩ := RelationLists.toBlock_of_hasBlocker hblocker
  cases hread.symm.trans hread'
  rw [hdestination] at hrelates
  refine ⟨⟨?_, account.id, account.nanoid, remote, ?_, named_of_findAccount hnames hfound,
    ⟨row, hrow, hreadId.symm.trans hid, hrelates⟩, by rw [← hid]; rfl⟩, rfl⟩
  · have hmoved : Carries server [] db (resolveBlockTarget server outside target db).2 :=
      carries_resolveBlockTarget server outside target db
    rwa [hresolve] at hmoved
  · exact remote_mem_of_resolved (quiet_resolveBlockTarget server outside target) hresolve

theorem rebuilt_undoFollow {db mid : Db} {accountNanoid target : String} {account : Account}
    {remote : RemoteAccount} {follow : Follow} (hnames : NamedOnce db)
    (hbegin : beginUndoFollow server outside accountNanoid target db =
      (.ok (account, .Remote remote, follow), mid)) :
    Rebuilt server .follow follow.id (outboundUndo server outside account remote follow) db mid := by
  obtain ⟨hfound, _, hresolve, hfollow⟩ := (beginUndoFollow_eq_ok server outside).mp hbegin
  obtain ⟨row, hrow, hid, hrelates, _⟩ := FollowFaults.findApprovedFollow_ok hfollow
  refine ⟨?_, account.id, account.nanoid, remote, ?_, named_of_findAccount hnames hfound,
    ⟨row, hrow, hid, hrelates⟩, rfl⟩
  · have hmoved : Carries server [] db (resolveUnfollowTarget server outside target db).2 :=
      carries_resolveUnfollowTarget server outside target db
    rwa [hresolve] at hmoved
  · exact remote_mem_of_resolved (quiet_resolveUnfollowTarget server outside target) hresolve

/-- The id of an Undo is drawn by the call that emits it. -/
theorem Emits.rebuilt {relation : Relation} {id : Int} {undo : Activity} {db : Db} {action : Action}
    (hnames : NamedOnce db) (h : Emits server relation id undo db action) :
    (∃ mid, Rebuilt server relation id undo db mid) ∧
      ∃ drawn ∈ action.drawn, undo.id = activityUrl server.publicBaseUrl drawn := by
  cases action with
  | unblockAccount outside accountNanoid target =>
      obtain ⟨rfl, account, remote, mid, outboxId, inboxUrl, after, hbegin, htransaction, hstored,
        hdeleted⟩ := h
      obtain ⟨hrebuilt, hundo⟩ := rebuilt_unblock server outside hnames hbegin htransaction hstored hdeleted
      exact ⟨⟨mid, hrebuilt⟩, outside.activityId, by simp [Action.drawn, ids], hundo⟩
  | sendUndoFollow outside accountNanoid target =>
      obtain ⟨rfl, account, remote, follow, mid, hbegin, rfl, rfl⟩ := h
      exact ⟨⟨mid, rebuilt_undoFollow server outside hnames hbegin⟩, outside.activityId,
        by simp [Action.drawn, ids], rfl⟩
  | _ => exact h.elim

end Undoing

/-! ### The embedded object -/

/-- The text is an object with the same members as the value. -/
def SameJson (text : String) (value : Json) : Prop :=
  ∃ fields members, text = (Json.object fields).render ∧ value = .object members ∧
    ∀ name, fields.lookup name = members.lookup name

theorem lookup_member (name other : String) (value : Option Json) :
    (Activity.member other value).lookup name = if name = other then value else none := by
  cases value with
  | none => simp [Activity.member]
  | some value =>
      by_cases h : name = other
      · simp [Activity.member, h]
      · simp [Activity.member, List.lookup_cons, h, beq_eq_false_iff_ne.mpr h]

theorem lookup_singleton (name other : String) (value : Json) :
    [(other, value)].lookup name = if name = other then some value else none :=
  lookup_member name other (some value)

/-- An activity is stored as text in the order of its declaration and embedded with sorted members. -/
theorem sameJson_render (activity : Activity) : SameJson activity.render activity.toJson := by
  refine ⟨_, _, rfl, rfl, fun name => ?_⟩
  have htriple : ∀ id type_ actor : Json, [("id", id), ("type", type_), ("actor", actor)].lookup name =
      ((if name = "id" then some id else none).or (if name = "type" then some type_ else none)).or
        (if name = "actor" then some actor else none) := by
    intro id type_ actor
    rw [← lookup_singleton, ← lookup_singleton, ← lookup_singleton, ← List.lookup_append,
      ← List.lookup_append]
    rfl
  simp only [List.lookup_append, lookup_member, lookup_singleton, htriple]
  by_cases hknown : name ∈ ["@context", "id", "type", "actor", "object", "target", "to", "cc"]
  · simp only [List.mem_cons, List.not_mem_nil, or_false] at hknown
    rcases hknown with rfl | rfl | rfl | rfl | rfl | rfl | rfl | rfl <;> simp
  · simp only [List.mem_cons, List.not_mem_nil, or_false, not_or] at hknown
    simp only [hknown, if_false]
    rfl

/-- The activity that was sent is built again as it was. -/
theorem Rebuilt.sameJson {server : Server} {relation : Relation} {id : Int} {undo : Activity} {db mid : Db}
    {text : String} (h : Rebuilt server relation id undo db mid) (hnames : NamedOnce db)
    (hwrote : Wrote server relation id db text) : ∃ object ∈ undo.object, SameJson text object := by
  obtain ⟨accountId, nanoid, remote, hremote, hnamed, hhas, hobject⟩ := h.built
  obtain ⟨sentId, sentNanoid, sentRemote, hsentRemote, hsentNamed, hends, rfl⟩ :=
    hwrote.carries h.carries List.not_mem_nil
  obtain ⟨rfl, hremoteId⟩ := hends.eq hhas
  obtain rfl := mid.remoteAccounts.eq_of_key_eq hsentRemote hremote hremoteId
  have hnanoid : sentNanoid = nanoid :=
    (h.carries.names hnames).once hsentNamed (hnamed.mono h.carries.events)
  subst hnanoid
  exact ⟨_, hobject, sameJson_render _⟩

/-! ### The result -/

/-- The call asks for the relation with the id. -/
def Requests (relation : Relation) (id : Int) : Action → Prop
  | .blockAccount outside .. => relation = .block ∧ outside.relationId = id
  | .sendFollow outside .. => relation = .follow ∧ outside.relationId = id
  | _ => False

/-- The call stores the outbox row for the relation with the id. -/
structure Sends (tz : Timestamptz) (server : Server) (relation : Relation) (id : Int)
    (row : OutboxActivity) (db : Db) (action : Action) : Prop where
  requests : Requests relation id action
  stored : row ∈ (step tz server db action).outboxActivities.rows
  new : ∀ old ∈ db.outboxActivities.rows, old.id ≠ row.id

theorem Sends.wrote {relation : Relation} {id : Int} {row : OutboxActivity} {db : Db} {action : Action}
    (h : Sends tz server relation id row db action) (hnames : NamedOnce db) :
    Wrote server relation id (step tz server db action) row.objectJson ∧ id ∈ action.drawn := by
  obtain ⟨hrequests, hstored, hnew⟩ := h
  cases action with
  | blockAccount outside accountNanoid target =>
      obtain ⟨rfl, rfl⟩ := hrequests
      refine ⟨?_, by simp [Action.drawn, ids]⟩
      rcases posts_blockAccount server outside hnames accountNanoid target row hstored with
        ⟨old, hold, hid⟩ | hwrote
      · exact absurd hid (hnew old hold)
      · exact hwrote
  | sendFollow outside accountNanoid target =>
      obtain ⟨rfl, rfl⟩ := hrequests
      refine ⟨?_, by simp [Action.drawn, ids]⟩
      rcases posts_sendFollow server outside hnames accountNanoid target row hstored with
        ⟨old, hold, hid⟩ | hwrote
      · exact absurd hid (hnew old hold)
      · exact hwrote
  | _ => exact hrequests.elim

theorem activityUrl_injective (publicBaseUrl : String) : Function.Injective (activityUrl publicBaseUrl) :=
  fun _ _ h => Int.repr_injective ((String.append_right_inj _).mp h)

/-- An Undo that is emitted after a run from empty tables embeds the activity that was stored in the
outbox when the relation was asked for, if it was, and no activity in the outbox has its id. -/
theorem undo_embeds_what_was_sent (tz : Timestamptz) (server : Server)
    (authAccounts : List AuthAccountId) (images : Table Image.id) (actions : List Action)
    (undoing : Action) (relation : Relation) (id : Int) (undo : Activity)
    (hdrawn : ((actions ++ [undoing]).flatMap Action.drawn).Nodup)
    (hemits : Emits server relation id undo
      (Runs.run (step tz server) (start authAccounts images) actions) undoing) :
    (∀ front sending back row, actions = front ++ sending :: back →
      Sends tz server relation id row (Runs.run (step tz server) (start authAccounts images) front)
        sending →
      ∃ object ∈ undo.object, SameJson row.objectJson object) ∧
    ∀ earlier, earlier <+: actions → ∀ row ∈
      (Runs.run (step tz server) (start authAccounts images) earlier).outboxActivities.rows,
      row.activityId ≠ undo.id := by
  have hnames : NamedOnce (Runs.run (step tz server) (start authAccounts images) actions) :=
    namedOnce_run authAccounts images actions
  obtain ⟨⟨mid, hrebuilt⟩, undoId, hundoId, hundo⟩ := hemits.rebuilt server hnames
  rw [List.flatMap_append, List.nodup_append'] at hdrawn
  obtain ⟨hnodup, _, hdisjoint⟩ := hdrawn
  refine ⟨?_, ?_⟩
  · rintro front sending back row rfl hsends
    obtain ⟨hwrote, hid⟩ := hsends.wrote (namedOnce_run authAccounts images front)
    refine hrebuilt.sameJson hnames ?_
    rw [Runs.run_append, Runs.run_cons]
    refine hwrote.run fun action haction hdrawn => ?_
    -- the id was drawn by the call that sent the activity
    rw [List.flatMap_append, List.flatMap_cons, List.nodup_append', List.nodup_append'] at hnodup
    exact hnodup.2.1.2.2 hid (List.mem_flatMap.mpr ⟨action, haction, hdrawn⟩)
  · rintro earlier ⟨rest, rfl⟩ row hrow hsame
    obtain ⟨drawn, hdrawn, hactivity⟩ := drawn_of_mem_outbox authAccounts images hrow
    have heq : drawn = undoId :=
      activityUrl_injective server.publicBaseUrl (hactivity.symm.trans (hsame.trans hundo))
    refine hdisjoint (a := drawn) ?_ (by simpa [heq] using hundoId)
    rw [List.flatMap_append]
    exact List.mem_append_left _ hdrawn

open Exclusion (answering bobUrl localServer)
open Streams (permitted)

def createAlice : Action := .createAccount (permitted 1 (.ok ())) 3 ⟨"alice", false⟩

def blockBob : Action := .blockAccount (answering 2 10) "alice-nanoid" bobUrl

def unblockBob : Action := .unblockAccount (answering 3 20) "alice-nanoid" bobUrl

/-- An unblock that reaches its end with a remote target emits an Undo of the block it has deleted. -/
theorem exists_emits_unblock {server : Server} {outside : Outside} {accountNanoid target : String} {db : Db}
    {id : Int} (h : (match beginUnblock server outside accountNanoid target db with
      | (.ok (account, .Remote remote), mid) =>
          match unblockTransaction server outside account (.Remote remote) mid with
          | .ok ((_, some _), after) => mid.blocks.contains id && !after.blocks.contains id
          | _ => false
      | _ => false) = true) :
    ∃ undo, Emits server .block id undo db (.unblockAccount outside accountNanoid target) := by
  split at h
  · next account remote mid hbegin =>
      split at h
      · next outboxId delivery after htransaction =>
          obtain ⟨undo, inboxUrl⟩ := delivery
          rw [Bool.and_eq_true, Bool.not_eq_true', Table.contains, Table.contains,
            Option.isSome_eq_false_iff, Option.isNone_iff_eq_none] at h
          obtain ⟨row, hrow⟩ := Option.isSome_iff_exists.mp h.1
          exact ⟨undo, rfl, account, remote, mid, outboxId, inboxUrl, after, hbegin, htransaction,
            ⟨row, Table.get_eq_some_iff.mp hrow⟩, Table.get_eq_none_iff.mp h.2⟩
      · cases h
  · cases h

/-- Alice blocks Bob and unblocks them again. -/
theorem undo_embeds_what_was_sent_unblockBob :
    ∃ undo row, Emits localServer .block 11 undo
        (Runs.run (step .microseconds localServer) (start [3] .empty) [createAlice, blockBob]) unblockBob ∧
      Sends .microseconds localServer .block 11 row
        (Runs.run (step .microseconds localServer) (start [3] .empty) [createAlice]) blockBob ∧
      (∃ object ∈ undo.object, SameJson row.objectJson object) ∧ row.activityId ≠ undo.id := by
  obtain ⟨undo, hemits⟩ : ∃ undo, Emits localServer .block 11 undo
      (Runs.run (step .microseconds localServer) (start [3] .empty) [createAlice, blockBob]) unblockBob :=
    exists_emits_unblock (by decide +kernel)
  have hsent : (Runs.run (step .microseconds localServer) (start [3] .empty)
      [createAlice, blockBob]).outboxActivities.rows.isEmpty = false := by decide +kernel
  obtain ⟨row, hrow⟩ := List.exists_mem_of_ne_nil _ (List.isEmpty_eq_false_iff.mp hsent)
  have hempty : (Runs.run (step .microseconds localServer) (start [3] .empty)
      [createAlice]).outboxActivities.rows = [] := by
    rw [← List.isEmpty_iff]
    decide +kernel
  have hsends : Sends .microseconds localServer .block 11 row
      (Runs.run (step .microseconds localServer) (start [3] .empty) [createAlice]) blockBob :=
    ⟨⟨rfl, rfl⟩, hrow, by rw [hempty]; exact fun _ hold => nomatch hold⟩
  obtain ⟨hobject, hfresh⟩ := undo_embeds_what_was_sent .microseconds localServer [3] .empty
    [createAlice, blockBob] unblockBob .block 11 undo (by decide) hemits
  exact ⟨undo, row, hemits, hsends, hobject [createAlice] blockBob [] row rfl hsends,
    hfresh _ (List.prefix_refl _) row hrow⟩

end SentUndo

end Emumet

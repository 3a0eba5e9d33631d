import Emumet.ServiceExclusion

/-! Undoing a follow or a block. The activity that creates the relation stores the remote account under
the id of the actor document, which has to agree with the actor of the activity up to slashes at the
end; the activity that undoes it looks the remote account up by the actor as it is written. -/

namespace Emumet

namespace Undo

open Relations Session

/-! ### What stays in place -/

/-- Only the outbox differs. -/
def OnlyOutbox (before after : Db) : Prop :=
  after = { before with outboxActivities := after.outboxActivities }

instance : IsPreorder Db OnlyOutbox where
  refl _ := rfl
  trans _ _ _ hab hbc := by
    rw [OnlyOutbox] at hab hbc ⊢
    rw [hbc, hab]

theorem onlyOutbox_deliverStored (outside : Outside) (outboxId : Option OutboxActivityId)
    (delivery : Option Delivery) : Moves OnlyOutbox (deliverStored outside outboxId delivery) :=
  moves_deliverStored_of outside (fun _ _ _ _ _ _ _ => rfl) outboxId delivery

/-! ### The activities that create a relation -/

variable {server : Server} {outside later : Outside} {dto original undo : InboxActivityDto}
  {db mid : Db} {doc : Actor} {remote found : RemoteAccount}

/-- The URL of a resolved actor is the id of its document. -/
theorem url_of_resolveRemoteActor {actorUrl : String} {actor : ResolvedRemoteActor}
    (h : resolveRemoteActor server outside actorUrl = .ok actor)
    (hdoc : outside.fetchActor actorUrl = .ok doc) : actor.url = doc.id := by
  obtain ⟨document, _, hfetched, _, _, rfl⟩ := resolveRemoteActor_ok h
  rw [Except.ok.inj (hdoc.symm.trans hfetched)]

/-- The remote account of the document is the only one under its id. -/
def Known (doc : Actor) (mid : Db) : Prop :=
  ∀ remote ∈ mid.remoteAccounts.rows, ∀ other ∈ mid.remoteAccounts.rows,
    remote.url = doc.id → other.url = doc.id → other = remote

theorem known_of_upsert {actor : ResolvedRemoteActor} {after : Db} {remoteAccount : RemoteAccount}
    (h : upsertRemoteAccount outside actor db = .ok (remoteAccount, after))
    (hurl : actor.url = doc.id) : Known doc after := by
  intro remote hremote other hother hremoteUrl hotherUrl
  refine after.remoteAccounts.eq_of_key_eq hother hremote ?_
  rw [← hurl, upsertRemoteAccount_url h hremote] at hremoteUrl
  rw [← hurl, upsertRemoteAccount_url h hother] at hotherUrl
  exact hotherUrl.trans hremoteUrl.symm

/-- The activity names the local actor. -/
def NamesLocalActor (server : Server) (dto : InboxActivityDto) (activity : Activity) : Prop :=
  ∃ url, activity.objectId = some url ∧ ensureLocalActorMatches server dto.accountNanoid url = .ok ()

theorem insertIfAbsent_follow {follow : Follow} {inserted : Bool} {after : Db}
    (hfresh : db.follows.get follow.id = none)
    (h : FollowRepository.insertIfAbsent db follow = .ok (inserted, after)) :
    after = { db with follows := after.follows } ∧
      ∃ row ∈ after.follows.rows, row.relates follow.source follow.destination = true := by
  obtain ⟨stored, rfl, hrow⟩ :=
    insertRelation_orAbsent h hfresh (relates_ofFollow.mpr ⟨rfl, rfl⟩) rfl
  exact ⟨rfl, hrow⟩

theorem insertIfAbsent_block {block : Block} {inserted : Bool} {after : Db}
    (hfresh : db.blocks.get block.id = none)
    (h : BlockRepository.insertIfAbsent db block = .ok (inserted, after)) :
    after = { db with blocks := after.blocks } ∧
      ∃ row ∈ after.blocks.rows, row.relates block.source block.destination = true := by
  obtain ⟨stored, rfl, hrow⟩ := insertRelation_orAbsent h hfresh (relates_ofBlock.mpr ⟨rfl, rfl⟩) rfl
  exact ⟨rfl, hrow⟩

theorem followTransaction_ok {accountId : AccountId} {follow : Follow} {accept : Delivery}
    {outboxId : Option OutboxActivityId} {after : Db} (hfresh : db.follows.get follow.id = none)
    (h : followTransaction outside accountId follow accept db = .ok (outboxId, after)) :
    after.remoteAccounts = db.remoteAccounts ∧
      ∃ row ∈ after.follows.rows, row.relates follow.source follow.destination = true := by
  simp only [followTransaction, Fallible.bind_eq_ok] at h
  obtain ⟨⟨inserted, stored⟩, hinsert, hrest⟩ := h
  obtain ⟨htables, hrow⟩ := insertIfAbsent_follow hfresh hinsert
  have hkept : after.follows = stored.follows ∧ after.remoteAccounts = stored.remoteAccounts := by
    cases inserted with
    | true =>
        rw [if_pos rfl] at hrest
        have hdelivery := storeDelivery_tables hrest
        exact ⟨by rw [hdelivery], by rw [hdelivery]⟩
    | false =>
        cases hrest
        exact ⟨rfl, rfl⟩
  refine ⟨?_, ?_⟩
  · rw [hkept.2, htables]
  · rw [hkept.1]
    exact hrow

theorem inboundBlockTransaction_ok {block : Block} {after : Db}
    (hfresh : db.blocks.get block.id = none) (h : inboundBlockTransaction block db = .ok after) :
    after.remoteAccounts = db.remoteAccounts ∧
      ∃ row ∈ after.blocks.rows, row.relates block.source block.destination = true := by
  simp only [inboundBlockTransaction, Fallible.bind_eq_ok] at h
  obtain ⟨⟨inserted, stored⟩, hinsert, hrest⟩ := h
  obtain ⟨htables, hrow⟩ := insertIfAbsent_block hfresh hinsert
  have hkept : after.blocks = stored.blocks ∧ after.remoteAccounts = stored.remoteAccounts := by
    cases inserted with
    | true =>
        rw [if_pos rfl] at hrest
        have hfollows := (removeFollowsBetween_ok hrest).1
        exact ⟨by rw [hfollows], by rw [hfollows]⟩
    | false =>
        cases hrest
        exact ⟨rfl, rfl⟩
  refine ⟨?_, ?_⟩
  · rw [hkept.2, htables]
  · rw [hkept.1]
    exact hrow

/-- What an accepted activity leaves: a row that relates the account of the actor document to the local
account. -/
structure Leaves {ρ : Type} (server : Server) (dto : InboxActivityDto) (doc : Actor) (mid : Db)
    (rows : List ρ) (relates : ρ → TargetId → TargetId → Bool) : Prop where
  names : NamesLocalActor server dto dto.activity
  known : Known doc mid
  related : ∀ remote ∈ mid.remoteAccounts.rows, remote.url = doc.id →
    ∃ row ∈ rows, relates row (.Remote remote.id) (.Local dto.accountId) = true

/-- The row of the stored account is the one of the document. -/
theorem leaves_of_upsert {ρ : Type} {rows : List ρ} {relates : ρ → TargetId → TargetId → Bool}
    {url missing : String} {actor : ResolvedRemoteActor} {remoteAccount : RemoteAccount} {upserted : Db}
    (hurl : required dto.activity.objectId missing = .ok url)
    (hmatches : ensureLocalActorMatches server dto.accountNanoid url = .ok ())
    (hdoc : outside.fetchActor dto.activity.actor = .ok doc)
    (hactor : resolveRemoteActor server outside dto.activity.actor = .ok actor)
    (hupsert : upsertRemoteAccount outside actor db = .ok (remoteAccount, upserted))
    (hmid : mid.remoteAccounts = upserted.remoteAccounts)
    (hrow : ∃ row ∈ rows, relates row (.Remote remoteAccount.id) (.Local dto.accountId) = true) :
    Leaves server dto doc mid rows relates := by
  have hactorUrl := url_of_resolveRemoteActor hactor hdoc
  refine ⟨⟨url, required_ok hurl, hmatches⟩, ?_, fun remote hremote hremoteUrl => ?_⟩
  · rw [Known, hmid]
    exact known_of_upsert hupsert hactorUrl
  · rw [hmid] at hremote
    rw [← hactorUrl, upsertRemoteAccount_url hupsert hremote] at hremoteUrl
    rw [hremoteUrl]
    exact hrow

theorem handleFollowActivity_ok (hfresh : db.follows.get outside.relationId = none)
    (hdoc : outside.fetchActor dto.activity.actor = .ok doc)
    (h : handleFollowActivity server outside dto db = (.ok (), mid)) :
    Leaves server dto doc mid mid.follows.rows FollowRow.relates := by
  simp only [handleFollowActivity, bind_eq_ok, lift_eq_ok, atomically_eq_ok] at h
  obtain ⟨url, _, ⟨hurl, rfl⟩, ⟨⟩, _, ⟨hmatches, rfl⟩, actor, _, ⟨hactor, rfl⟩, remoteAccount, upserted,
    hupsert, follow, _, ⟨hfollow, rfl⟩, outboxId, stored, hstore, hdeliver⟩ := h
  have hdelivered : OnlyOutbox stored mid := by
    have hmoves := onlyOutbox_deliverStored outside outboxId
      (some (acceptActivity server.publicBaseUrl follow.id
        (localActorUrl server.publicBaseUrl dto.accountNanoid) dto.activity, remoteAccount.inboxUrl)) stored
    rwa [hdeliver] at hmoves
  obtain ⟨hsource, hdestination⟩ := Follow.new_ok hfollow
  have hnew : upserted.follows.get follow.id = none := by
    rw [Follow.new_id hfollow, (upsertRemoteAccount_ok hupsert).1]
    exact hfresh
  obtain ⟨hremotes, hrow⟩ := followTransaction_ok hnew hstore
  rw [hsource, hdestination] at hrow
  rw [hdelivered]
  exact leaves_of_upsert hurl hmatches hdoc hactor hupsert hremotes hrow

theorem handleBlockActivity_ok (hfresh : db.blocks.get outside.relationId = none)
    (hdoc : outside.fetchActor dto.activity.actor = .ok doc)
    (h : handleBlockActivity server outside dto db = (.ok (), mid)) :
    Leaves server dto doc mid mid.blocks.rows BlockRow.relates := by
  simp only [handleBlockActivity, bind_eq_ok, lift_eq_ok, atomically_eq_ok, exec_eq_ok] at h
  obtain ⟨url, _, ⟨hurl, rfl⟩, ⟨⟩, _, ⟨hmatches, rfl⟩, actor, _, ⟨hactor, rfl⟩, remoteAccount, upserted,
    hupsert, block, _, ⟨hblock, rfl⟩, hstore⟩ := h
  obtain ⟨hsource, hdestination⟩ := Block.new_ok hblock
  have hnew : upserted.blocks.get block.id = none := by
    rw [Block.new_id hblock, (upsertRemoteAccount_ok hupsert).1]
    exact hfresh
  obtain ⟨hremotes, hrow⟩ := inboundBlockTransaction_ok hnew hstore
  rw [hsource, hdestination] at hrow
  exact leaves_of_upsert hurl hmatches hdoc hactor hupsert hremotes hrow

/-! ### The activities that undo it -/

/-- An Undo by the same actor, for the same local account and about the same object. -/
structure Undoes (type_ : String) (original undo : InboxActivityDto) : Prop where
  accountId : undo.accountId = original.accountId
  accountNanoid : undo.accountNanoid = original.accountNanoid
  actor : undo.activity.actor = original.activity.actor
  isUndo : undo.activity.type_ = "Undo"
  object : ∃ inner, undo.activity.objectOfType type_ = some inner ∧
    inner.objectId = original.activity.objectId

theorem Undoes.dispatch_follow (h : Undoes "Follow" original undo) :
    handleInboxActivity server later undo = handleUndoFollow server undo := by
  obtain ⟨inner, hinner, _⟩ := h.object
  have hisFollow : (undo.activity.objectOfType "Follow").isSome = true := by rw [hinner]; rfl
  simp [handleInboxActivity, h.isUndo, hisFollow]

theorem Undoes.dispatch_block (h : Undoes "Block" original undo) :
    handleInboxActivity server later undo = handleUndoBlockActivity server undo := by
  obtain ⟨inner, hinner, _⟩ := h.object
  have hisBlock : (undo.activity.objectOfType "Block").isSome = true := by rw [hinner]; rfl
  have hnotFollow : undo.activity.objectOfType "Follow" = none := by
    rw [Activity.objectOfType, Option.filter_eq_some_iff] at hinner
    rw [Activity.objectOfType, hinner.1, Option.filter_some, if_neg]
    have htype : inner.type_ = "Block" := by simpa using hinner.2
    simp [htype]
  simp [handleInboxActivity, h.isUndo, hisBlock, hnotFollow]

theorem read_findByUrl (mid : Db) (url : String) :
    (read (fun db => .ok (RemoteAccountRepository.findByUrl db url)) :
      Session Db Report (Option RemoteAccount)) mid =
        (.ok (RemoteAccountRepository.findByUrl mid url), mid) := rfl

section Deletes

variable {ρ : Type} {type_ notActivity notActor : String}
  {deleteIfExists : Db → TargetId → TargetId → Bool × Db}
  {rows : Db → List ρ} {relates : ρ → TargetId → TargetId → Bool}

/-- The checks pass as they did for the activity that is undone. -/
theorem Undoes.undoRelation_eq (h : Undoes type_ original undo)
    (hnames : NamesLocalActor server original original.activity) :
    undoRelation type_ notActivity notActor deleteIfExists server undo mid =
      ((RemoteAccountRepository.findByUrl mid original.activity.actor).elim (pure ()) fun remote =>
        exec fun db => .ok (deleteIfExists db (.Remote remote.id) (.Local original.accountId)).2 :
        Session Db Report Unit) mid := by
  obtain ⟨inner, hinner, hobject⟩ := h.object
  obtain ⟨url, hurl, hmatches⟩ := hnames
  rw [← hobject] at hurl
  rw [← h.accountNanoid] at hmatches
  rw [undoRelation, hinner, h.actor, h.accountId]
  change (lift (required inner.objectId _) >>= _ : Session Db Report Unit) mid = _
  rw [hurl]
  change (lift (ensureLocalActorMatches server undo.accountNanoid url) >>= _ :
    Session Db Report Unit) mid = _
  rw [hmatches]
  rw [bind_of_ok (lift_eq_ok.mpr ⟨rfl, rfl⟩), bind_of_ok (read_findByUrl mid _)]
  cases RemoteAccountRepository.findByUrl mid original.activity.actor with
  | none => rfl
  | some remote => rfl

/-- What an Undo deletes. -/
theorem Undoes.mem_rows (h : Undoes type_ original undo)
    (hnames : NamesLocalActor server original original.activity)
    (hdelete : ∀ db x y row, row ∈ rows (deleteIfExists db x y).2 ↔
      row ∈ rows db ∧ relates row x y = false) (row : ρ) :
    row ∈ rows (undoRelation type_ notActivity notActor deleteIfExists server undo mid).2 ↔
      row ∈ rows mid ∧
        ∀ remote, RemoteAccountRepository.findByUrl mid original.activity.actor = some remote →
          relates row (.Remote remote.id) (.Local original.accountId) = false := by
  rw [h.undoRelation_eq hnames]
  cases hfind : RemoteAccountRepository.findByUrl mid original.activity.actor with
  | none => exact ⟨fun hrow => ⟨hrow, fun remote hremote => by cases hremote⟩, And.left⟩
  | some remote =>
      refine (hdelete mid _ _ row).trans (and_congr_right fun _ => ⟨?_, fun hall => hall remote rfl⟩)
      rintro hkept other ⟨⟩
      exact hkept

end Deletes

/-- The lookup by the actor as it is written finds the account of the document exactly when that is the
document's id. -/
theorem findByUrl_iff (hknown : Known doc mid) (hremote : remote ∈ mid.remoteAccounts.rows)
    (hurl : remote.url = doc.id) (actorUrl : String) :
    RemoteAccountRepository.findByUrl mid actorUrl = some remote ↔ doc.id = actorUrl := by
  constructor
  · intro hfind
    have hmatch : remote.url = actorUrl := by simpa using List.find?_some hfind
    exact hurl.symm.trans hmatch
  · rintro rfl
    cases hfind : RemoteAccountRepository.findByUrl mid doc.id with
    | none => simpa [hurl] using List.find?_eq_none.mp hfind remote hremote
    | some found =>
        have hfoundUrl : found.url = doc.id := by simpa using List.find?_some hfind
        rw [hknown remote hremote found (List.mem_of_find?_eq_some hfind) hurl hfoundUrl]

/-- The account that is looked up is the one of the document, or has another id. -/
theorem eq_of_id (hremote : remote ∈ mid.remoteAccounts.rows) {actorUrl : String}
    (hfind : RemoteAccountRepository.findByUrl mid actorUrl = some found) (hid : found.id = remote.id) :
    found = remote :=
  mid.remoteAccounts.eq_of_key_eq (List.mem_of_find?_eq_some hfind) hremote hid

/-- The relation is gone exactly when the actor of the Undo is found under the document's id. -/
theorem Undoes.reverts_iff {ρ : Type} {type_ notActivity notActor : String}
    {deleteIfExists : Db → TargetId → TargetId → Bool × Db} {relates : ρ → TargetId → TargetId → Bool}
    (rows : Db → List ρ) (h : Undoes type_ original undo)
    (hleaves : Leaves server original doc mid (rows mid) relates)
    (hdelete : ∀ db x y row, row ∈ rows (deleteIfExists db x y).2 ↔
      row ∈ rows db ∧ relates row x y = false)
    (hends : ∀ {row x y x' y'}, relates row x y = true → relates row x' y' = true → x = x' ∧ y = y')
    (hremote : remote ∈ mid.remoteAccounts.rows) (hurl : remote.url = doc.id) :
    (∀ row ∈ rows (undoRelation type_ notActivity notActor deleteIfExists server undo mid).2,
      relates row (.Remote remote.id) (.Local original.accountId) = false) ↔
        doc.id = original.activity.actor := by
  obtain ⟨row, hrow, hrelates⟩ := hleaves.related remote hremote hurl
  rw [← findByUrl_iff hleaves.known hremote hurl]
  constructor
  · intro hgone
    by_contra hnot
    have hkept : row ∈
        rows (undoRelation type_ notActivity notActor deleteIfExists server undo mid).2 := by
      refine (h.mem_rows hleaves.names hdelete row).mpr ⟨hrow, fun found hfound => ?_⟩
      by_contra hrelated
      obtain ⟨hsource, _⟩ := hends hrelates (by simpa using hrelated)
      rw [eq_of_id hremote hfound (TargetId.Remote.inj hsource).symm] at hfound
      exact hnot hfound
    rw [hgone row hkept] at hrelates
    cases hrelates
  · intro hfound other hother
    exact ((h.mem_rows hleaves.names hdelete other).mp hother).2 remote hfound

/-- After an accepted Follow or Block, an Undo by the same actor about the same object takes the relation
away exactly when the actor is written as the actor document's id is. -/
theorem undo_reverts_iff (server : Server) (outside later : Outside)
    (original undo : InboxActivityDto) (db mid : Db) (doc : Actor) (remote : RemoteAccount)
    (hdoc : outside.fetchActor original.activity.actor = .ok doc)
    (haccepted : handleInboxActivity server outside original db = (.ok (), mid))
    (hremote : remote ∈ mid.remoteAccounts.rows) (hurl : remote.url = doc.id) :
    let after := (handleInboxActivity server later undo mid).2
    (original.activity.type_ = "Follow" → db.follows.get outside.relationId = none →
      Undoes "Follow" original undo →
        ((∀ row ∈ after.follows.rows,
          row.relates (.Remote remote.id) (.Local original.accountId) = false) ↔
            doc.id = original.activity.actor)) ∧
      (original.activity.type_ = "Block" → db.blocks.get outside.relationId = none →
        Undoes "Block" original undo →
          ((∀ row ∈ after.blocks.rows,
            row.relates (.Remote remote.id) (.Local original.accountId) = false) ↔
              doc.id = original.activity.actor)) := by
  intro after
  constructor
  · intro htype hfresh hundoes
    have hhandled : handleFollowActivity server outside original db = (.ok (), mid) := by
      simpa [handleInboxActivity, htype] using haccepted
    have hleaves := handleFollowActivity_ok hfresh hdoc hhandled
    simp only [after, hundoes.dispatch_follow]
    exact hundoes.reverts_iff (·.follows.rows) hleaves FollowRepository.mem_deleteIfExists ends_of_relates
      hremote hurl
  · intro htype hfresh hundoes
    have hhandled : handleBlockActivity server outside original db = (.ok (), mid) := by
      simpa [handleInboxActivity, htype] using haccepted
    have hleaves := handleBlockActivity_ok hfresh hdoc hhandled
    simp only [after, hundoes.dispatch_block]
    exact hundoes.reverts_iff (·.blocks.rows) hleaves BlockRepository.mem_deleteIfExists
      block_ends_of_relates hremote hurl

/-! ### An actor written with a slash at the end -/

open Exclusion

/-- An activity of the given type to the inbox of Alice. -/
def toAlice (type_ actor : String) (object : Json) : InboxActivityDto where
  accountId := 7
  accountNanoid := "alice-nanoid"
  activity :=
    { context := none, id := actor ++ "#" ++ type_, type_ := type_, actor := actor
      object := some object, target := none, to_ := none, cc := none }

def aliceObject : Json := .string aliceUrl

def undoToAlice (type_ actor : String) : InboxActivityDto :=
  toAlice "Undo" actor (toAlice type_ actor aliceObject).activity.toJson

theorem undoes_toAlice (actor : String) :
    Undoes "Follow" (toAlice "Follow" actor aliceObject) (undoToAlice "Follow" actor) ∧
      Undoes "Block" (toAlice "Block" actor aliceObject) (undoToAlice "Block" actor) :=
  ⟨⟨rfl, rfl, rfl, rfl, _, rfl, rfl⟩, ⟨rfl, rfl, rfl, rfl, _, rfl, rfl⟩⟩

/-- Alice's server after an accepted activity of the given type. -/
def accepted (type_ actor : String) : Db :=
  (handleInboxActivity localServer (answering 1 10) (toAlice type_ actor aliceObject) aliceDb).2

theorem accepted_bob {type_ actor : String}
    (h : (handleInboxActivity localServer (answering 1 10) (toAlice type_ actor aliceObject)
      aliceDb).1 = .ok ()) :
    handleInboxActivity localServer (answering 1 10) (toAlice type_ actor aliceObject) aliceDb =
      (.ok (), accepted type_ actor) :=
  Prod.ext h rfl

def bobAccount : RemoteAccount where
  id := 10
  acct := "bob@remote.example"
  url := bobUrl
  iconId := none
  inboxUrl := some (bobUrl ++ "/inbox")
  publicKeyPem := some "pem"

theorem undo_reverts_bob :
    (accepted "Follow" bobUrl).follows.rows.length = 1 ∧
      ∀ row ∈ (handleInboxActivity localServer (answering 2 20) (undoToAlice "Follow" bobUrl)
        (accepted "Follow" bobUrl)).2.follows.rows, row.relates (.Remote 10) (.Local 7) = false :=
  ⟨by decide +kernel,
    ((undo_reverts_iff localServer (answering 1 10) (answering 2 20)
      (toAlice "Follow" bobUrl aliceObject) (undoToAlice "Follow" bobUrl) aliceDb
      (accepted "Follow" bobUrl) bob bobAccount rfl (accepted_bob (by decide +kernel))
      (by decide +kernel) rfl).1 rfl rfl (undoes_toAlice bobUrl).1).mpr rfl⟩

/-- With a slash at the end of the actor, a follow and a block are accepted and outlive their Undo. -/
theorem undo_misses_slash :
    let actor := bobUrl ++ "/"
    (handleInboxActivity localServer (answering 1 10) (toAlice "Follow" actor aliceObject)
        aliceDb).1 = .ok () ∧
      (handleInboxActivity localServer (answering 2 20) (undoToAlice "Follow" actor)
        (accepted "Follow" actor)).1 = .ok () ∧
      (∃ row ∈ (handleInboxActivity localServer (answering 2 20) (undoToAlice "Follow" actor)
        (accepted "Follow" actor)).2.follows.rows, row.relates (.Remote 10) (.Local 7) = true) ∧
      (handleInboxActivity localServer (answering 1 10) (toAlice "Block" actor aliceObject)
        aliceDb).1 = .ok () ∧
      (handleInboxActivity localServer (answering 2 20) (undoToAlice "Block" actor)
        (accepted "Block" actor)).1 = .ok () ∧
      ∃ row ∈ (handleInboxActivity localServer (answering 2 20) (undoToAlice "Block" actor)
        (accepted "Block" actor)).2.blocks.rows, row.relates (.Remote 10) (.Local 7) = true := by
  decide +kernel

end Undo

end Emumet

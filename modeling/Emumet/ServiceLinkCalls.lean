import Emumet.ServiceExchange
import Emumet.ServiceLinks

/-! The relation use cases under names: what each of them has done when it sends its message, and what it
does with the answer. -/

namespace Emumet

namespace Links

open Relations Session Exchange Names

variable {listed : String → String → Prop} {server : Server} {outside : Outside} {db after : Db}
  {account : Account} {actor : ResolvedRemoteActor}

/-- The actor takes no handle that is listed with another URL. -/
def Fits (listed : String → String → Prop) (actor : ResolvedRemoteActor) : Prop :=
  ∀ url, listed actor.acct url → actor.url = url

/-! ### Before anything is changed -/

theorem kept_lift {α : Type} (x : Result α) : Triple (Becomes listed id db) (lift x)
    (fun a s => Becomes listed id db s ∧ x = .ok a) (Becomes listed id db) :=
  .lift (fun _ _ hx hs => ⟨hs, hx⟩) fun _ hs => hs

theorem kept_read {α : Type} (query : Db → Result α) : Triple (Becomes listed id db) (read query)
    (fun _ => Becomes listed id db) (Becomes listed id db) :=
  .read (fun _ _ hs _ => hs) fun _ hs => hs

theorem kept_upsert (hfits : Fits listed actor) :
    Triple (Becomes listed id db) (atomically (upsertRemoteAccount outside actor))
      (fun _ => Becomes listed id db) (Becomes listed id db) :=
  .atomically (fun _ _ _ hs hok => hs.trans (becomes_upsert hs.sound hfits hok)) fun _ hs => hs

theorem kept_resolveBlockTarget {name : String}
    (hfits : ∀ actor, resolveRemoteActorIdentifier server outside name = .ok actor → Fits listed actor) :
    Triple (Becomes listed id db) (resolveBlockTarget server outside name)
      (fun _ => Becomes listed id db) (Becomes listed id db) := by
  refine .bind (kept_read _) fun found => ?_
  cases found with
  | some account => exact .pure fun _ hs => hs
  | none =>
      exact .bind (kept_lift _) fun actor => .assume fun hactor =>
        .bind (kept_upsert (hfits actor hactor)) fun _ => .pure fun _ hs => hs

theorem kept_resolveUnfollowTarget {name : String}
    (hfits : ∀ actor, resolveRemoteActorIdentifier server outside name = .ok actor → Fits listed actor) :
    Triple (Becomes listed id db) (resolveUnfollowTarget server outside name)
      (fun _ => Becomes listed id db) (Becomes listed id db) := by
  refine .bind (kept_read _) fun found => ?_
  cases found with
  | some account => exact .pure fun _ hs => hs
  | none =>
      exact .bind (kept_lift _) fun actor => .assume fun hactor =>
        .bind (kept_upsert (hfits actor hactor)) fun _ => .pure fun _ hs => hs

/-- Running from a sound database up to a failure that changes nothing. -/
theorem Triple.from_sound {α : Type} {op : Session Db Report α} (hsound : Sound listed db)
    (h : Triple (Becomes listed id db) op (fun _ _ => True) (Becomes listed id db)) :
    Triple (· = db) op (fun _ _ => True) (Becomes listed id db) :=
  fun s hs => h s (by rw [hs]; exact .refl hsound)

/-! ### The outbox -/

theorem onlyOutbox_storeDelivered (accountId : AccountId) (activity : Activity) :
    Moves Undo.OnlyOutbox (storeDelivered outside accountId activity) := by
  refine .exec fun db after h => ?_
  split at h
  · next hcreate =>
      cases h
      obtain ⟨_, _, rfl⟩ := outboxCreate_ok hcreate
      rfl
  · cases h

theorem recordOutcome_ok (outside : Outside) (outboxId : OutboxActivityId)
    (answer : Option (Result Unit)) (mid : Db) :
    ∃ last, recordOutcome outside outboxId answer mid = (.ok (), last) ∧ Undo.OnlyOutbox mid last := by
  rcases answer with _ | (report | ⟨⟨⟩⟩)
  · exact ⟨mid, rfl, rfl⟩
  · refine ⟨_, rfl, ?_⟩
    unfold OutboxActivityRepository.markDeliveryAttempt
    split <;> rfl
  · refine ⟨_, rfl, ?_⟩
    unfold OutboxActivityRepository.markDelivered
    split <;> rfl

/-- The delivery that is stored is sent, if there is an inbox, and its outcome goes to the outbox. -/
theorem deliverStoredCall_ok {α : Type} {outboxId : Option OutboxActivityId} {delivery : Option Delivery}
    {result : α} {pending : Waiting α} {s s' : Db}
    (h : deliverStoredCall outside outboxId delivery result s = (.ok pending, s')) :
    s' = s ∧
      pending.message = (outboxId.bind fun _ => delivery.bind fun stored => stored.2.map (·, stored.1)) ∧
      ∀ answer mid, ∃ last, pending.resume answer mid = (.ok result, last) ∧ Undo.OnlyOutbox mid last := by
  rcases outboxId with _ | outboxId
  · obtain ⟨rfl, rfl⟩ := pure_eq_ok.mp h
    exact ⟨rfl, rfl, fun _ mid => ⟨mid, rfl, rfl⟩⟩
  rcases delivery with _ | ⟨activity, _ | inboxUrl⟩
  · obtain ⟨rfl, rfl⟩ := pure_eq_ok.mp h
    exact ⟨rfl, rfl, fun _ mid => ⟨mid, rfl, rfl⟩⟩
  · obtain ⟨rfl, rfl⟩ := pure_eq_ok.mp h
    exact ⟨rfl, rfl, fun _ mid => ⟨mid, rfl, rfl⟩⟩
  · obtain ⟨rfl, rfl⟩ := pure_eq_ok.mp h
    refine ⟨rfl, rfl, fun answer mid => ?_⟩
    obtain ⟨last, hrecord, honly⟩ := recordOutcome_ok outside outboxId answer mid
    exact ⟨last, bind_of_ok hrecord, honly⟩

theorem deliverStoredCall_never_fails {α : Type} (outboxId : Option OutboxActivityId)
    (delivery : Option Delivery) (result : α) (P E : Db → Prop) :
    Triple P (deliverStoredCall outside outboxId delivery result) (fun _ _ => True) E := by
  unfold deliverStoredCall
  split <;> exact .pure fun _ _ => trivial

/-! ### Following -/

/-- A Follow is under way: it is stored as pending and addressed to the inbox of its actor. An answer
that is no acceptance takes it back. -/
structure FollowSent (listed : String → String → Prop) (server : Server) (outside : Outside)
    (account : Account) (actor : ResolvedRemoteActor) (db : Db)
    (pending : Waiting SendFollowResultDto) (after : Db) : Prop where
  becomes : Becomes listed (View.setFollow (.here account.id) (.there actor.url)
    (some (outside.relationId, false))) db after
  new : (view db).follows (.here account.id, .there actor.url) = none
  stored : ∃ x, target after (.there actor.url) = some x
  fresh : ∀ id, id ≠ outside.relationId → db.follows.get id = none → after.follows.get id = none
  message : pending.message = actor.inboxUrl.map (·, followActivity server.publicBaseUrl
    outside.relationId (localActorUrl server.publicBaseUrl account.nanoid) actor.url)
  accepted : ∀ mid, Sound listed mid → Becomes listed id mid (pending.resume (some (.ok ())) mid).2
  refused : ∀ answer, answer ≠ some (.ok ()) → ∀ mid approved, Sound listed mid →
    (view mid).follows (.here account.id, .there actor.url) = some (outside.relationId, approved) →
      Becomes listed (View.setFollow (.here account.id) (.there actor.url) none) mid
        (pending.resume answer mid).2

theorem resumeFollow_accepted {remote : RemoteAccount} {follow : Follow} {activity : Activity} {mid : Db}
    (hsound : Sound listed mid) : Becomes listed id mid
      (resumeFollow outside account remote follow activity (some (.ok ())) mid).2 :=
  becomes_outbox hsound (Moves.bind (onlyOutbox_storeDelivered _ _) (fun _ => .pure _) mid)

theorem resumeFollow_refused {remote : RemoteAccount} {follow : Follow} {activity : Activity} {mid : Db}
    {p q : Party} {approved : Bool} {answer : Option (Result Unit)} (hanswer : answer ≠ some (.ok ()))
    (hsound : Sound listed mid) (hstored : (view mid).follows (p, q) = some (follow.id, approved)) :
    Becomes listed (View.setFollow p q none) mid
      (resumeFollow outside account remote follow activity answer mid).2 := by
  obtain ⟨last, hdelete, hbecomes⟩ := becomes_deleteFollow hsound hstored
  have hexec : exec (fun db => FollowRepository.delete db follow.id) mid = (.ok (), last) :=
    exec_eq_ok.mpr hdelete
  obtain ⟨e, he⟩ : ∃ e, answerOf answer = .error e := by
    rcases answer with _ | (e | ⟨⟨⟩⟩)
    · exact ⟨_, rfl⟩
    · exact ⟨e, rfl⟩
    · exact absurd rfl hanswer
  rw [resumeFollow, he]
  change Becomes listed _ mid ((exec (fun db => FollowRepository.delete db follow.id) >>= fun _ =>
    lift (reject .Rejected "Follow delivery failed, rolled back follow record")) mid).2
  rw [bind_of_ok hexec]
  exact hbecomes

theorem sendFollowCall_spec (accountNanoid : String) {name : String} (hsound : Sound listed db)
    (hfits : ∀ actor, resolveRemoteActorIdentifier server outside name = .ok actor → Fits listed actor) :
    Triple (· = db) (sendFollowCall server outside accountNanoid name)
      (fun pending after => ∃ account actor, findAccount db outside.now accountNanoid = .ok account ∧
        resolveRemoteActorIdentifier server outside name = .ok actor ∧
        FollowSent listed server outside account actor db pending after) (Becomes listed id db) := by
  refine .of_ok ?_ (Triple.from_sound hsound ?_)
  · rintro _ pending after rfl hrun
    simp only [sendFollowCall, bind_eq_ok, read_eq_ok, lift_eq_ok, atomically_eq_ok, exec_eq_ok,
      pure_eq_ok] at hrun
    obtain ⟨account, _, ⟨haccount, rfl⟩, _, _, ⟨_, rfl⟩, actor, _, ⟨hactor, rfl⟩, remote, mid, hupsert,
      existing, _, ⟨_, rfl⟩, follow, _, ⟨hfollow, rfl⟩, _, _, hcreate, rfl, rfl⟩ := hrun
    have hupserted := becomes_upsert hsound (hfits actor hactor) hupsert
    obtain ⟨_, hurl, hinbox, _⟩ := upsertRemoteAccount_columns hupsert
    have htarget : target mid (.there actor.url) = some (.Remote remote.id) := by
      rw [target_upsert hupsert, if_pos rfl]
    split_ifs at hfollow
    · cases hfollow
    obtain ⟨hsource, hdestination⟩ := Follow.new_ok hfollow
    have hid := Follow.new_id hfollow
    have hpending : follow.approvedAt = none := by
      simp only [Follow.new, reject] at hfollow
      split_ifs at hfollow
      cases hfollow
      rfl
    have hinsert := Insertion.orReject_ok hcreate
    obtain ⟨hinserted, hnone⟩ := becomes_insertFollow (p := .here account.id) (q := .there actor.url)
      hupserted.sound (by rw [hsource]; rfl) (by rw [hdestination]; exact htarget) hinsert
    rw [hid, hpending] at hinserted
    rw [hupserted.view] at hnone
    refine ⟨account, actor, haccount, hactor, hupserted.trans hinserted, hnone,
      ⟨_, hinserted.known _ _ htarget⟩, fun id hother hfree => ?_, ?_, fun mid hmid => ?_,
      fun answer hanswer mid approved hmid hstored => ?_⟩
    · rw [FollowRepository.insert_inserted hinsert, Table.get_put_of_ne _ _ (by
        change id ≠ follow.id
        rwa [hid]), (upsertRemoteAccount_ok hupsert).1]
      exact hfree
    · rw [hinbox, hid, hurl]
    · exact resumeFollow_accepted hmid
    · exact resumeFollow_refused hanswer hmid (by rw [hid]; exact hstored)
  · exact .bind (kept_read _) fun account => .bind (kept_lift _) fun _ => .assume fun _ =>
      .bind (kept_lift _) fun actor => .assume fun hactor => .bind (kept_upsert (hfits actor hactor))
      fun remote => .bind (kept_read _) fun existing => .bind (kept_lift _) fun follow => .assume fun _ =>
      .bind (Q := fun _ _ => True) (.exec (fun _ _ _ _ => trivial) fun _ hs => hs)
      fun _ => .pure fun _ _ => trivial

/-! ### Unfollowing -/

/-- A target that was resolved: a local account, or an actor whose row is stored. -/
theorem resolveUnfollowTarget_ok {name : String} {resolved : BlockTarget} (hsound : Sound listed db)
    (hfits : ∀ actor, resolveRemoteActorIdentifier server outside name = .ok actor → Fits listed actor)
    (h : resolveUnfollowTarget server outside name db = (.ok resolved, after)) :
    Becomes listed id db after ∧
      ((∃ account, resolved = .Local account) ∨
        ∃ actor remote, resolveRemoteActorIdentifier server outside name = .ok actor ∧
          resolved = .Remote remote ∧ upsertRemoteAccount outside actor db = .ok (remote, after)) := by
  simp only [resolveUnfollowTarget, bind_eq_ok, read_eq_ok] at h
  obtain ⟨found, _, ⟨_, rfl⟩, h⟩ := h
  cases found with
  | some account =>
      obtain ⟨rfl, rfl⟩ := pure_eq_ok.mp h
      exact ⟨.refl hsound, .inl ⟨account, rfl⟩⟩
  | none =>
      simp only [bind_eq_ok, lift_eq_ok, atomically_eq_ok, pure_eq_ok] at h
      obtain ⟨actor, _, ⟨hactor, rfl⟩, remote, _, hupsert, rfl, rfl⟩ := h
      exact ⟨becomes_upsert hsound (hfits actor hactor) hupsert,
        .inr ⟨actor, remote, hactor, rfl, hupsert⟩⟩

theorem resolveBlockTarget_ok {name : String} {resolved : BlockTarget} (hsound : Sound listed db)
    (hfits : ∀ actor, resolveRemoteActorIdentifier server outside name = .ok actor → Fits listed actor)
    (h : resolveBlockTarget server outside name db = (.ok resolved, after)) :
    Becomes listed id db after ∧
      ((∃ account, resolved = .Local account ∧ after = db) ∨
        ∃ actor remote, resolveRemoteActorIdentifier server outside name = .ok actor ∧
          resolved = .Remote remote ∧ upsertRemoteAccount outside actor db = .ok (remote, after)) := by
  simp only [resolveBlockTarget, bind_eq_ok, read_eq_ok] at h
  obtain ⟨found, _, ⟨_, rfl⟩, h⟩ := h
  cases found with
  | some account =>
      obtain ⟨rfl, rfl⟩ := pure_eq_ok.mp h
      exact ⟨.refl hsound, .inl ⟨account, rfl, rfl⟩⟩
  | none =>
      simp only [bind_eq_ok, lift_eq_ok, atomically_eq_ok, pure_eq_ok] at h
      obtain ⟨actor, _, ⟨hactor, rfl⟩, remote, _, hupsert, rfl, rfl⟩ := h
      exact ⟨becomes_upsert hsound (hfits actor hactor) hupsert,
        .inr ⟨actor, remote, hactor, rfl, hupsert⟩⟩

/-- A row between two named ends is the follow the view has for them. -/
theorem follow_of_row {p q : Party} {x y : TargetId} {row : FollowRow} (h : Sound listed db)
    (hp : target db p = some x) (hq : target db q = some y) (hrow : row ∈ db.follows.rows)
    (hrelates : row.relates x y = true) :
    (view db).follows (p, q) = some (row.id, row.approvedAt.isSome) := by
  change named (target db) (followRow db) (p, q) = _
  rw [named_eq hp hq, followRow]
  have hfound : (db.follows.between FollowRow.relates x y).isSome = true :=
    List.find?_isSome.mpr ⟨row, hrow, hrelates⟩
  obtain ⟨found, hfound⟩ := Option.isSome_iff_exists.mp hfound
  obtain ⟨hmem, hends⟩ := Table.between_eq_some hfound
  rw [hfound, h.followPairs found hmem row hrow x y hends hrelates]
  rfl

/-- A call that changed the relations of a local account to another one and sends nothing. -/
structure Done {α : Type} (listed : String → String → Prop) (change : View → View) (db : Db)
    (pending : Waiting α) (after : Db) : Prop where
  becomes : Becomes listed change db after
  message : pending.message = none
  resume : ∀ mid, Sound listed mid → Becomes listed id mid (pending.resume none mid).2

/-- An Undo of a follow is under way: the follow is deleted once it is accepted. -/
structure UndoFollowSent (listed : String → String → Prop) (server : Server) (outside : Outside)
    (account : Account) (actor : ResolvedRemoteActor) (followId : FollowId) (db : Db)
    (pending : Waiting Unit) (after : Db) : Prop where
  becomes : Becomes listed id db after
  stored : (view after).follows (.here account.id, .there actor.url) = some (followId, true)
  message : pending.message = actor.inboxUrl.map (·, undoFollowActivity server.publicBaseUrl
    outside.activityId (followActivity server.publicBaseUrl followId
      (localActorUrl server.publicBaseUrl account.nanoid) actor.url) actor.url)
  accepted : ∀ mid approved, Sound listed mid →
    (view mid).follows (.here account.id, .there actor.url) = some (followId, approved) →
      Becomes listed (View.setFollow (.here account.id) (.there actor.url) none) mid
        (pending.resume (some (.ok ())) mid).2
  refused : ∀ answer, answer ≠ some (.ok ()) → ∀ mid, Sound listed mid →
    Becomes listed id mid (pending.resume answer mid).2

theorem resumeUndoFollow_accepted {follow : Follow} {activity : Activity} {mid : Db} {p q : Party}
    {approved : Bool} (hsound : Sound listed mid)
    (hstored : (view mid).follows (p, q) = some (follow.id, approved)) :
    Becomes listed (View.setFollow p q none) mid
      (resumeUndoFollow outside account follow activity (some (.ok ())) mid).2 := by
  obtain ⟨last, hdelete, hbecomes⟩ := becomes_deleteFollow hsound hstored
  have hexec : exec (fun db => FollowRepository.delete db follow.id) mid = (.ok (), last) :=
    exec_eq_ok.mpr hdelete
  change Becomes listed _ mid ((exec (fun db => FollowRepository.delete db follow.id) >>= fun _ =>
    storeDelivered outside account.id activity) mid).2
  rw [bind_of_ok hexec]
  exact hbecomes.trans (becomes_outbox hbecomes.sound (onlyOutbox_storeDelivered _ _ last))

theorem resumeUndoFollow_refused {follow : Follow} {activity : Activity} {mid : Db}
    {answer : Option (Result Unit)} (hanswer : answer ≠ some (.ok ())) :
    (resumeUndoFollow outside account follow activity answer mid).2 = mid := by
  rcases answer with _ | (e | ⟨⟨⟩⟩)
  · rfl
  · rfl
  · exact absurd rfl hanswer

theorem sendUndoFollowCall_spec (accountNanoid : String) {name : String} (hsound : Sound listed db)
    (hfits : ∀ actor, resolveRemoteActorIdentifier server outside name = .ok actor → Fits listed actor) :
    Triple (· = db) (sendUndoFollowCall server outside accountNanoid name)
      (fun pending after => ∃ account, findAccount db outside.now accountNanoid = .ok account ∧
        ((∃ other, Done listed (View.setFollow (.here account.id) (.here other) none) db pending after) ∨
          ∃ actor followId, resolveRemoteActorIdentifier server outside name = .ok actor ∧
            UndoFollowSent listed server outside account actor followId db pending after))
      (Becomes listed id db) := by
  refine .of_ok ?_ (Triple.from_sound hsound ?_)
  · rintro _ pending after rfl hrun
    obtain ⟨⟨account, resolved, follow⟩, mid, hbegin, hrun⟩ := bind_eq_ok.mp hrun
    obtain ⟨haccount, _, hresolve, hfollow⟩ := (beginUndoFollow_eq_ok server outside).mp hbegin
    obtain ⟨hkept, hresolved⟩ := resolveUnfollowTarget_ok hsound hfits hresolve
    obtain ⟨row, hrow, hid, hrelates, happroved⟩ := FollowFaults.findApprovedFollow_ok hfollow
    refine ⟨account, haccount, ?_⟩
    rcases hresolved with ⟨other, rfl⟩ | ⟨actor, remote, hactor, rfl, hupsert⟩
    · have hstored := follow_of_row (p := .here account.id) (q := .here other.id) hkept.sound rfl rfl
        hrow hrelates
      rw [hid] at hstored
      obtain ⟨last, hdelete, hbecomes⟩ := becomes_deleteFollow hkept.sound hstored
      simp only [silent, bind_eq_ok, exec_eq_ok, pure_eq_ok] at hrun
      obtain ⟨_, _, hdelete', rfl, rfl⟩ := hrun
      obtain rfl : last = _ := Except.ok.inj (hdelete.symm.trans hdelete')
      exact .inl ⟨other.id, hkept.trans hbecomes, rfl, fun _ hmid => .refl hmid⟩
    · obtain ⟨rfl, rfl⟩ := pure_eq_ok.mp hrun
      obtain ⟨_, hurl, hinbox, _⟩ := upsertRemoteAccount_columns hupsert
      have htarget : target mid (.there actor.url) = some (.Remote remote.id) := by
        rw [target_upsert hupsert, if_pos rfl]
      have hstored := follow_of_row (p := .here account.id) hkept.sound rfl htarget hrow hrelates
      rw [hid, happroved] at hstored
      refine .inr ⟨actor, follow.id, hactor, hkept, hstored, ?_,
        fun mid approved hmid hstored => resumeUndoFollow_accepted hmid hstored,
        fun answer hanswer mid hmid => ?_⟩
      · rw [hinbox, outboundUndo, outboundFollow, hurl]
      · rw [resumeUndoFollow_refused hanswer]
        exact .refl hmid
  · refine .bind (Q := fun _ => Becomes listed id db) (.bind (kept_read _) fun account =>
      .bind (kept_lift _) fun _ => .assume fun _ => .bind (kept_resolveUnfollowTarget hfits) fun resolved =>
      .bind (kept_read _) fun follow => .pure fun _ hs => hs) fun begun => ?_
    obtain ⟨account, resolved, follow⟩ := begun
    cases resolved with
    | Local other =>
        exact .bind (Q := fun _ _ => True) (.exec (fun _ _ _ _ => trivial) fun _ hs => hs)
          fun _ => .pure fun _ _ => trivial
    | Remote remote => exact .pure fun _ _ => trivial

/-! ### Blocking -/

/-- A Block is stored and under way; its answer only goes to the outbox. -/
structure BlockSent (listed : String → String → Prop) (server : Server) (outside : Outside)
    (account : Account) (actor : ResolvedRemoteActor) (db : Db)
    (pending : Waiting RelationDto) (after : Db) : Prop where
  becomes : Becomes listed (View.block (.here account.id) (.there actor.url) outside.relationId) db after
  new : (view db).blocks (.here account.id, .there actor.url) = none
  freshBlock : ∀ id, id ≠ outside.relationId → db.blocks.get id = none → after.blocks.get id = none
  freshRemote : ∀ id, id ≠ outside.remoteAccountId → db.remoteAccounts.get id = none →
    after.remoteAccounts.get id = none
  message : pending.message = actor.inboxUrl.map (·, blockActivity server.publicBaseUrl
    outside.relationId (localActorUrl server.publicBaseUrl account.nanoid) actor.url)
  resume : ∀ answer mid, Sound listed mid → Becomes listed id mid (pending.resume answer mid).2

/-- The tables of a block: one row more, and remote accounts as they were. -/
theorem blockTransaction_tables {accountId : AccountId} {block : Block} {delivery : Option Delivery}
    {outboxId : Option OutboxActivityId}
    (h : blockTransaction outside accountId block delivery db = .ok (outboxId, after)) :
    after.blocks = db.blocks.put (.ofBlock block) ∧ after.remoteAccounts = db.remoteAccounts := by
  simp only [blockTransaction, Fallible.bind_eq_ok] at h
  obtain ⟨existing, _, h⟩ := h
  split_ifs at h
  · cases h
  · simp only [Fallible.bind_eq_ok] at h
    obtain ⟨inserted, hcreate, removed, hremove, hstore⟩ := h
    rw [storeDelivery_tables hstore, (removeFollowsBetween_ok hremove).1,
      BlockRepository.insert_inserted (Insertion.orReject_ok hcreate)]
    exact ⟨rfl, rfl⟩

theorem upsert_fresh {remote : RemoteAccount} {id : RemoteAccountId}
    (h : upsertRemoteAccount outside actor db = .ok (remote, after)) (hid : id ≠ outside.remoteAccountId)
    (hfree : db.remoteAccounts.get id = none) : after.remoteAccounts.get id = none := by
  obtain ⟨htables, hremote, _⟩ := upsertRemoteAccount_ok h
  rw [htables, Table.get_put_of_ne _ _ ?_]
  · exact hfree
  · rw [hremote, remoteAccountIdOf]
    cases hfound : RemoteAccountRepository.findByUrl db actor.url with
    | none => exact hid
    | some existing =>
        intro hsame
        exact Table.get_eq_none_iff.mp hfree existing (List.mem_of_find?_eq_some hfound) hsame.symm

theorem blockAccountCall_spec (accountNanoid : String) {name : String} (hsound : Sound listed db)
    (hfits : ∀ actor, resolveRemoteActorIdentifier server outside name = .ok actor → Fits listed actor) :
    Triple (· = db) (blockAccountCall server outside accountNanoid name)
      (fun pending after => ∃ account, findAccount db outside.now accountNanoid = .ok account ∧
        ((∃ other, Done listed (View.block (.here account.id) (.here other) outside.relationId) db
            pending after) ∨
          ∃ actor, resolveRemoteActorIdentifier server outside name = .ok actor ∧
            BlockSent listed server outside account actor db pending after))
      (Becomes listed id db) := by
  refine .of_ok ?_ (Triple.from_sound hsound ?_)
  · rintro _ pending after rfl hrun
    simp only [blockAccountCall, bind_eq_ok, read_eq_ok, lift_eq_ok, atomically_eq_ok] at hrun
    obtain ⟨account, _, ⟨haccount, rfl⟩, _, _, ⟨_, rfl⟩, resolved, mid, hresolve, block, _,
      ⟨hblock, rfl⟩, outboxId, _, htransaction, hdeliver⟩ := hrun
    obtain ⟨hkept, hresolved⟩ := resolveBlockTarget_ok hsound hfits hresolve
    obtain ⟨rfl, hmessage, hresume⟩ := deliverStoredCall_ok hdeliver
    split_ifs at hblock
    · cases hblock
    obtain ⟨hsource, hdestination⟩ := Block.new_ok hblock
    have hid := Block.new_id hblock
    have hrecorded : ∀ answer mid, Sound listed mid →
        Becomes listed id mid (pending.resume answer mid).2 := by
      intro answer mid hmid
      obtain ⟨last, hlast, honly⟩ := hresume answer mid
      rw [hlast]
      exact becomes_outbox hmid honly
    refine ⟨account, haccount, ?_⟩
    rcases hresolved with ⟨other, rfl, rfl⟩ | ⟨actor, remote, hactor, rfl, hupsert⟩
    · obtain ⟨hbecomes, _, hstored⟩ := becomes_blockTransaction (p := .here account.id)
        (q := .here other.id) hkept.sound (by rw [hsource]; rfl) (by rw [hdestination]; rfl) htransaction
      rw [hid] at hbecomes
      refine .inl ⟨other.id, hkept.trans hbecomes, ?_, hrecorded none⟩
      rw [hmessage]
      cases outboxId <;> rfl
    · obtain ⟨_, hurl, hinbox, _⟩ := upsertRemoteAccount_columns hupsert
      have htarget : target mid (.there actor.url) = some (.Remote remote.id) := by
        rw [target_upsert hupsert, if_pos rfl]
      obtain ⟨hbecomes, hnone, hstored⟩ := becomes_blockTransaction (p := .here account.id)
        (q := .there actor.url) hkept.sound (by rw [hsource]; rfl)
        (by rw [hdestination]; exact htarget) htransaction
      obtain ⟨hblocks, hremotes⟩ := blockTransaction_tables htransaction
      rw [hid] at hbecomes
      rw [hkept.view] at hnone
      refine .inr ⟨actor, hactor, hkept.trans hbecomes, hnone, fun id hother hfree => ?_,
        fun id hother hfree => ?_, ?_, hrecorded⟩
      · rw [hblocks, Table.get_put_of_ne _ _ (by
          change id ≠ block.id
          rwa [hid]), (upsertRemoteAccount_ok hupsert).1]
        exact hfree
      · rw [hremotes]
        exact upsert_fresh hupsert hother hfree
      · obtain ⟨outbox, rfl⟩ := Option.isSome_iff_exists.mp hstored
        rw [hmessage, ← hinbox, ← hurl, ← hid]
        rfl
  · exact .bind (kept_read _) fun account => .bind (kept_lift _) fun _ => .assume fun _ =>
      .bind (kept_resolveBlockTarget hfits) fun resolved => .bind (kept_lift _) fun block =>
      .assume fun _ => .bind (Q := fun _ _ => True)
        (.atomically (fun _ _ _ _ _ => trivial) fun _ hs => hs)
      fun outboxId => deliverStoredCall_never_fails _ _ _ _ _

/-- The Undo of a Block is under way; the block is gone already. -/
structure UnblockSent (listed : String → String → Prop) (server : Server) (outside : Outside)
    (account : Account) (actor : ResolvedRemoteActor) (blockId : BlockId) (db : Db)
    (pending : Waiting Unit) (after : Db) : Prop where
  becomes : Becomes listed (View.setBlock (.here account.id) (.there actor.url) none) db after
  message : pending.message = actor.inboxUrl.map (·, undoBlockActivity server.publicBaseUrl
    outside.activityId (blockActivity server.publicBaseUrl blockId
      (localActorUrl server.publicBaseUrl account.nanoid) actor.url) actor.url)
  resume : ∀ answer mid, Sound listed mid → Becomes listed id mid (pending.resume answer mid).2

theorem unblockAccountCall_spec (accountNanoid : String) {name : String} (hsound : Sound listed db)
    (hfits : ∀ actor, resolveRemoteActorIdentifier server outside name = .ok actor → Fits listed actor) :
    Triple (· = db) (unblockAccountCall server outside accountNanoid name)
      (fun pending after => ∃ account, findAccount db outside.now accountNanoid = .ok account ∧
        ((∃ other, Done listed (View.setBlock (.here account.id) (.here other) none) db pending after) ∨
          ∃ actor blockId, resolveRemoteActorIdentifier server outside name = .ok actor ∧
            UnblockSent listed server outside account actor blockId db pending after))
      (Becomes listed id db) := by
  refine .of_ok ?_ (Triple.from_sound hsound ?_)
  · rintro _ pending after rfl hrun
    simp only [unblockAccountCall, bind_eq_ok, atomically_eq_ok] at hrun
    obtain ⟨⟨account, resolved⟩, mid, hbegin, ⟨outboxId, delivery⟩, _, htransaction, hdeliver⟩ := hrun
    obtain ⟨haccount, _, hresolve⟩ := (beginUnblock_eq_ok server outside).mp hbegin
    obtain ⟨hkept, hresolved⟩ := resolveBlockTarget_ok hsound hfits hresolve
    obtain ⟨rfl, hmessage, hresume⟩ := deliverStoredCall_ok hdeliver
    have hrecorded : ∀ answer mid, Sound listed mid →
        Becomes listed id mid (pending.resume answer mid).2 := by
      intro answer mid hmid
      obtain ⟨last, hlast, honly⟩ := hresume answer mid
      rw [hlast]
      exact becomes_outbox hmid honly
    refine ⟨account, haccount, ?_⟩
    rcases hresolved with ⟨other, rfl, rfl⟩ | ⟨actor, remote, hactor, rfl, hupsert⟩
    · obtain ⟨hbecomes, _, hdelivery, _⟩ := becomes_unblockTransaction (q := .here other.id) hkept.sound
        rfl htransaction
      refine .inl ⟨other.id, hkept.trans hbecomes, ?_, hrecorded none⟩
      rw [hmessage, hdelivery]
      cases outboxId <;> rfl
    · obtain ⟨_, hurl, hinbox, _⟩ := upsertRemoteAccount_columns hupsert
      have htarget : target mid (.there actor.url) = some (BlockTarget.Remote remote).id := by
        rw [target_upsert hupsert, if_pos rfl]
        rfl
      obtain ⟨hbecomes, blockId, hdelivery, hstored⟩ := becomes_unblockTransaction
        (q := .there actor.url) hkept.sound htarget htransaction
      refine .inr ⟨actor, blockId, hactor, hkept.trans hbecomes, ?_, hrecorded⟩
      rw [hdelivery] at hstored
      obtain ⟨outbox, rfl⟩ := Option.isSome_iff_exists.mp hstored
      rw [hmessage, hdelivery, ← hinbox, ← hurl]
      rfl
  · exact .bind (Q := fun _ => Becomes listed id db) (.bind (kept_read _) fun account =>
      .bind (kept_lift _) fun _ => .assume fun _ => .bind (kept_resolveBlockTarget hfits) fun resolved =>
      .pure fun _ hs => hs) fun begun => .bind (Q := fun _ _ => True)
        (.atomically (fun _ _ _ _ _ => trivial) fun _ hs => hs)
      fun stored => deliverStoredCall_never_fails stored.1 stored.2 _ _ _

end Links

end Emumet

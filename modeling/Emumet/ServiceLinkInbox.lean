import Emumet.ServiceLinkCalls

/-! The handlers of inbox activities under names. -/

namespace Emumet

namespace Links

open Relations Session Exchange Names

variable {listed : String → String → Prop} {server : Server} {outside : Outside} {db after : Db}
  {dto : InboxActivityDto} {actor : ResolvedRemoteActor}

/-! ### Follow -/

/-- An inbound Follow is stored as approved and its Accept is under way. -/
structure FollowReceived (listed : String → String → Prop) (server : Server) (outside : Outside)
    (dto : InboxActivityDto) (actor : ResolvedRemoteActor) (db : Db)
    (pending : Waiting Unit) (after : Db) : Prop where
  becomes : Becomes listed (View.setFollow (.there actor.url) (.here dto.accountId)
    (some (outside.relationId, true))) db after
  message : pending.message = actor.inboxUrl.map (·, acceptActivity server.publicBaseUrl
    outside.relationId (localActorUrl server.publicBaseUrl dto.accountNanoid) dto.activity)
  resume : ∀ answer mid, ∃ last, pending.resume answer mid = (.ok (), last) ∧ Undo.OnlyOutbox mid last

theorem handleFollowCall_spec (hsound : Sound listed db)
    (hfits : ∀ actor, resolveRemoteActor server outside dto.activity.actor = .ok actor →
      Fits listed actor)
    (hfresh : db.follows.get outside.relationId = none) :
    Triple (· = db) (handleFollowCall server outside dto)
      (fun pending after => Undo.NamesLocalActor server dto dto.activity ∧
        ∃ actor, resolveRemoteActor server outside dto.activity.actor = .ok actor ∧
          ((Done listed id db pending after ∧
              (view db).follows (.there actor.url, .here dto.accountId) ≠ none) ∨
            FollowReceived listed server outside dto actor db pending after)) (Becomes listed id db) := by
  refine .of_ok ?_ (Triple.from_sound hsound ?_)
  · rintro _ pending after rfl hrun
    simp only [handleFollowCall, bind_eq_ok, lift_eq_ok, atomically_eq_ok] at hrun
    obtain ⟨url, _, ⟨hurl, rfl⟩, _, _, ⟨hmatches, rfl⟩, actor, _, ⟨hactor, rfl⟩, remote, mid, hupsert,
      follow, _, ⟨hfollow, rfl⟩, outboxId, _, htransaction, hdeliver⟩ := hrun
    have hkept := becomes_upsert hsound (hfits actor hactor) hupsert
    obtain ⟨_, _, hinbox, _⟩ := upsertRemoteAccount_columns hupsert
    obtain ⟨rfl, hmessage, hresume⟩ := deliverStoredCall_ok hdeliver
    obtain ⟨hsource, hdestination⟩ := Follow.new_ok hfollow
    have hid := Follow.new_id hfollow
    have happroved : follow.approvedAt = some outside.now := by
      simp only [Follow.new, reject] at hfollow
      split_ifs at hfollow
      cases hfollow
      rfl
    have htarget : target mid (.there actor.url) = some follow.source := by
      rw [target_upsert hupsert, if_pos rfl, hsource]
    have hfree : mid.follows.get follow.id = none := by
      rw [hid, (upsertRemoteAccount_ok hupsert).1]
      exact hfresh
    refine ⟨⟨url, required_ok hurl, hmatches⟩, actor, hactor, ?_⟩
    rcases becomes_followTransaction (q := .here dto.accountId) hkept.sound htarget
      (by rw [hdestination]; rfl) hfree htransaction with ⟨rfl, rfl, hsome⟩ | ⟨hsome, _, hbecomes⟩
    · rw [hkept.view] at hsome
      refine .inl ⟨⟨hkept, by rw [hmessage]; rfl, fun mid hmid => ?_⟩, hsome⟩
      obtain ⟨last, hlast, honly⟩ := hresume none mid
      rw [hlast]
      exact becomes_outbox hmid honly
    · rw [hid, happroved] at hbecomes
      obtain ⟨outbox, rfl⟩ := Option.isSome_iff_exists.mp hsome
      refine .inr ⟨hkept.trans hbecomes, ?_, hresume⟩
      rw [hmessage, ← hinbox, ← hid]
      rfl
  · exact .bind (kept_lift _) fun _ => .assume fun _ => .bind (kept_lift _) fun _ => .assume fun _ =>
      .bind (kept_lift _) fun actor => .assume fun hactor => .bind (kept_upsert (hfits actor hactor))
      fun remote => .bind (kept_lift _) fun follow => .assume fun _ => .bind (Q := fun _ _ => True)
        (.atomically (fun _ _ _ _ _ => trivial) fun _ hs => hs)
      fun _ => deliverStoredCall_never_fails _ _ _ _ _

/-! ### Accept -/

/-- An Accept fails only when it is malformed or its actor has no row. -/
theorem handleAcceptActivity_spec (hsound : Sound listed db) :
    Triple (· = db) (handleAcceptActivity server outside dto)
      (fun _ after => (acceptedActorUrl server dto = .ok none ∧ after = db) ∨
        ∃ url, acceptedActorUrl server dto = .ok (some url) ∧
          Becomes listed (View.approve (.here dto.accountId) (.there url)) db after)
      (fun after => after = db ∧
        ¬∃ url, acceptedActorUrl server dto = .ok (some url) ∧ target db (.there url) ≠ none) := by
  refine .bind (Q := fun accepted s => s = db ∧ acceptedActorUrl server dto = .ok accepted)
    (.lift_cases (fun _ _ haccepted hs => ⟨hs, haccepted⟩) fun e s herror hs => ⟨hs, ?_⟩)
    fun accepted => .assume fun haccepted => ?_
  · rintro ⟨url, hurl, _⟩
    rw [herror] at hurl
    cases hurl
  cases accepted with
  | none => exact .pure fun _ hs => .inl ⟨haccepted, hs⟩
  | some url =>
      refine .bind (Q := fun remote s => s = db ∧
          RemoteAccountRepository.findByUrl db url = some remote)
        (.read_cases (fun remote s hread hs => ⟨hs, ?_⟩) fun e s hread hs => ⟨hs, ?_⟩)
        fun remote => .assume fun hfound => .exec_ok fun s hs => .inr ⟨url, haccepted, ?_⟩
      · subst hs
        split at hread
        · next hsome =>
            cases hread
            exact hsome
        · cases hread
      · subst hs
        rintro ⟨other, hother, hknown⟩
        rw [haccepted] at hother
        cases hother
        split at hread
        · cases hread
        · next hnone =>
            rw [target, hnone] at hknown
            exact hknown rfl
      · subst hs
        exact becomes_approve outside.now hsound rfl (by rw [target, hfound]; rfl)

/-- The Accept of an actor who has a row approves the follow. -/
theorem handleAcceptActivity_of {url : String} {x : TargetId} (hsound : Sound listed db)
    (haccepted : acceptedActorUrl server dto = .ok (some url)) (hknown : target db (.there url) = some x) :
    ∃ last, handleAcceptActivity server outside dto db = (.ok (), last) ∧
      Becomes listed (View.approve (.here dto.accountId) (.there url)) db last := by
  obtain ⟨last, hrun, hdone⟩ := (handleAcceptActivity_spec hsound).exists_ok
    ⟨url, haccepted, by rw [hknown]; simp⟩
  rcases hdone with ⟨hnone, _⟩ | ⟨url', hurl', hbecomes⟩
  · cases haccepted.symm.trans hnone
  · cases haccepted.symm.trans hurl'
    exact ⟨last, hrun, hbecomes⟩

/-! ### Undo -/

/-- The activity an Undo embeds names the local actor. -/
def UndoesLocally (server : Server) (dto : InboxActivityDto) (type_ : String) : Prop :=
  ∃ inner, dto.activity.objectOfType type_ = some inner ∧ Undo.NamesLocalActor server dto inner

/-- The checks of an Undo: they fail only if it does not name the local actor, and write nothing. -/
theorem undo_checks {type_ malformed untargeted : String} {f : Session Db Report Unit}
    {R : Unit → Db → Prop} {E : Db → Prop} (hfailed : ¬UndoesLocally server dto type_ → E db)
    (hf : UndoesLocally server dto type_ → Triple (· = db) f R E) :
    Triple (· = db) (lift (required (dto.activity.objectOfType type_) malformed) >>= fun inner =>
      lift (required inner.objectId untargeted) >>= fun url =>
      lift (ensureLocalActorMatches server dto.accountNanoid url) >>= fun _ => f) R E := by
  refine .bind (Q := fun inner s => s = db ∧ dto.activity.objectOfType type_ = some inner)
    (.lift_cases (fun inner s hinner hs => ⟨hs, required_ok hinner⟩) fun e s herror hs => ?_)
    fun inner => .assume fun hinner => ?_
  · subst hs
    refine hfailed ?_
    rintro ⟨inner, hinner, _⟩
    rw [hinner] at herror
    cases herror
  refine .bind (Q := fun url s => s = db ∧ inner.objectId = some url)
    (.lift_cases (fun url s hurl hs => ⟨hs, required_ok hurl⟩) fun e s herror hs => ?_)
    fun url => .assume fun hurl => ?_
  · subst hs
    refine hfailed ?_
    rintro ⟨other, hother, url, hurl, _⟩
    cases hinner.symm.trans hother
    rw [hurl] at herror
    cases herror
  refine .bind (Q := fun _ s => s = db ∧
      ensureLocalActorMatches server dto.accountNanoid url = .ok ())
    (.lift_cases (fun _ s hmatches hs => ⟨hs, hmatches⟩) fun e s herror hs => ?_)
    fun _ => .assume fun hmatches => hf ⟨inner, hinner, url, hurl, hmatches⟩
  subst hs
  refine hfailed ?_
  rintro ⟨other, hother, _, hurl', hmatches⟩
  cases hinner.symm.trans hother
  cases hurl.symm.trans hurl'
  rw [herror] at hmatches
  cases hmatches

/-- An actor without a row has no relations. -/
theorem unnamed {url : String} (h : RemoteAccountRepository.findByUrl db url = none) (q : Party) :
    (view db).follows (.there url, q) = none ∧ (view db).blocks (.there url, q) = none := by
  simp [view, named, target, h]

/-- An Undo deletes the relation of its actor to the local account. -/
theorem undoRelation_spec {type_ notActivity notActor : String}
    (deleteIfExists : Db → TargetId → TargetId → Bool × Db) (change : Party → Party → View → View)
    (hdelete : ∀ p q x y, target db p = some x → target db q = some y →
      Becomes listed (change p q) db (deleteIfExists db x y).2)
    (hunnamed : ∀ url q, RemoteAccountRepository.findByUrl db url = none →
      Becomes listed (change (.there url) q) db db) :
    Triple (· = db) (undoRelation type_ notActivity notActor deleteIfExists server dto)
      (fun _ => Becomes listed (change (.there dto.activity.actor) (.here dto.accountId)) db)
      (fun after => after = db ∧ ¬UndoesLocally server dto type_) := by
  refine undo_checks (fun hnot => ⟨rfl, hnot⟩) fun _ => ?_
  refine .bind (Q := fun found s => s = db ∧
      RemoteAccountRepository.findByUrl db dto.activity.actor = found)
    (.read_cases (fun found s hread hs => ⟨hs, ?_⟩) fun _ _ hread => by cases hread)
    fun found => .assume fun hfound => ?_
  · subst hs
    exact Except.ok.inj hread
  cases found with
  | none =>
      refine .pure fun s hs => ?_
      subst hs
      exact hunnamed _ _ hfound
  | some remote =>
      refine .exec_ok fun s hs => ?_
      subst hs
      exact hdelete _ _ _ _ (by rw [target, hfound]; rfl) rfl

theorem handleUndoFollow_spec (hsound : Sound listed db) :
    Triple (· = db) (handleUndoFollow server dto)
      (fun _ => Becomes listed (View.setFollow (.there dto.activity.actor) (.here dto.accountId) none) db)
      (fun after => after = db ∧ ¬UndoesLocally server dto "Follow") := by
  refine undoRelation_spec FollowRepository.deleteIfExists (fun p q => View.setFollow p q none)
    (fun p q x y hp hq => becomes_deleteFollows hsound hp hq)
    fun url q hnone => ⟨hsound, ?_, rfl, fun _ _ hp => hp⟩
  rw [View.setFollow, ← (unnamed hnone q).1, Function.update_eq_self]

theorem handleUndoBlockActivity_spec (hsound : Sound listed db) :
    Triple (· = db) (handleUndoBlockActivity server dto)
      (fun _ => Becomes listed (View.setBlock (.there dto.activity.actor) (.here dto.accountId) none) db)
      (fun after => after = db ∧ ¬UndoesLocally server dto "Block") := by
  refine undoRelation_spec BlockRepository.deleteIfExists (fun p q => View.setBlock p q none)
    (fun p q x y hp hq => becomes_deleteBlocks hsound hp hq)
    fun url q hnone => ⟨hsound, ?_, rfl, fun _ _ hp => hp⟩
  rw [View.setBlock, ← (unnamed hnone q).2, Function.update_eq_self]

/-! ### Block -/

theorem becomes_inboundBlock {p q : Party} {block : Block} (h : Sound listed db)
    (hp : target db p = some block.source) (hq : target db q = some block.destination)
    (hok : inboundBlockTransaction block db = .ok after) :
    after = db ∨ Becomes listed (View.block p q block.id) db after := by
  simp only [inboundBlockTransaction, Fallible.bind_eq_ok] at hok
  obtain ⟨⟨inserted, mid⟩, hinsert, hok⟩ := hok
  rcases Insertion.orAbsent_ok hinsert with ⟨rfl, hinserted⟩ | ⟨rfl, rfl⟩
  · rw [if_pos rfl] at hok
    obtain ⟨hbecomes, _⟩ := becomes_insertBlock h hp hq hinserted
    obtain ⟨severed, hsevered, hbecomes'⟩ := becomes_removeFollowsBetween hbecomes.sound
      (hbecomes.known p _ hp) (hbecomes.known q _ hq)
    cases hsevered.symm.trans hok
    exact .inr (hbecomes.trans hbecomes')
  · cases hok
    exact .inl rfl

theorem handleBlockActivity_spec (hsound : Sound listed db)
    (hfits : ∀ actor, resolveRemoteActor server outside dto.activity.actor = .ok actor →
      Fits listed actor) :
    Triple (· = db) (handleBlockActivity server outside dto)
      (fun _ after => Undo.NamesLocalActor server dto dto.activity ∧
        ∃ actor, resolveRemoteActor server outside dto.activity.actor = .ok actor ∧
          (Becomes listed id db after ∨
            Becomes listed (View.block (.there actor.url) (.here dto.accountId) outside.relationId) db
              after)) (Becomes listed id db) := by
  refine .of_ok ?_ (Triple.from_sound hsound ?_)
  · rintro _ _ after rfl hrun
    simp only [handleBlockActivity, bind_eq_ok, lift_eq_ok, atomically_eq_ok, exec_eq_ok] at hrun
    obtain ⟨url, _, ⟨hurl, rfl⟩, _, _, ⟨hmatches, rfl⟩, actor, _, ⟨hactor, rfl⟩, remote, mid, hupsert,
      block, _, ⟨hblock, rfl⟩, htransaction⟩ := hrun
    have hkept := becomes_upsert hsound (hfits actor hactor) hupsert
    obtain ⟨hsource, hdestination⟩ := Block.new_ok hblock
    have htarget : target mid (.there actor.url) = some block.source := by
      rw [target_upsert hupsert, if_pos rfl, hsource]
    refine ⟨⟨url, required_ok hurl, hmatches⟩, actor, hactor, ?_⟩
    rcases becomes_inboundBlock (q := .here dto.accountId) hkept.sound htarget
      (by rw [hdestination]; rfl) htransaction with rfl | hbecomes
    · exact .inl hkept
    · rw [Block.new_id hblock] at hbecomes
      exact .inr (hkept.trans hbecomes)
  · exact .bind (kept_lift _) fun _ => .assume fun _ => .bind (kept_lift _) fun _ => .assume fun _ =>
      .bind (kept_lift _) fun actor => .assume fun hactor => .bind (kept_upsert (hfits actor hactor))
      fun remote => .bind (kept_lift _) fun block => .assume fun _ =>
      .exec (fun _ _ _ _ => trivial) fun _ hs => hs

/-- The Block of a listed actor who has not blocked the account yet is stored. -/
theorem handleBlockActivity_of (hsound : Sound listed db)
    (hlocal : Undo.NamesLocalActor server dto dto.activity)
    (hactor : resolveRemoteActor server outside dto.activity.actor = .ok actor)
    (hlisted : listed actor.acct actor.url) (hfits : Fits listed actor)
    (hfreshRemote : db.remoteAccounts.get outside.remoteAccountId = none)
    (hfreshBlock : db.blocks.get outside.relationId = none)
    (hnone : (view db).blocks (.there actor.url, .here dto.accountId) = none)
    (haccount : db.accounts.contains dto.accountId = true) :
    ∃ last, handleBlockActivity server outside dto db = (.ok (), last) ∧
      Becomes listed (View.block (.there actor.url) (.here dto.accountId) outside.relationId) db last := by
  obtain ⟨url, hurl, hmatches⟩ := hlocal
  obtain ⟨remote, mid, hupsert⟩ := exists_upsert hsound hlisted hfreshRemote
  have hkept := becomes_upsert hsound hfits hupsert
  have htarget : target mid (.there actor.url) = some (.Remote remote.id) := by
    rw [target_upsert hupsert, if_pos rfl]
  have htables := (upsertRemoteAccount_ok hupsert).1
  have hexists : mid.targetExists (.Remote remote.id) = true ∧
      mid.targetExists (.Local dto.accountId) = true := by
    rw [htables]
    refine ⟨?_, haccount⟩
    change (db.remoteAccounts.put remote).contains remote.id = true
    rw [Table.contains, Table.get_put_self]
    rfl
  obtain ⟨block, hblock, hid, hsource, hdestination⟩ : ∃ block : Block,
      Block.new outside.relationId (.Remote remote.id) (.Local dto.accountId) = .ok block ∧
        block.id = outside.relationId ∧ block.source = .Remote remote.id ∧
        block.destination = .Local dto.accountId :=
    ⟨⟨outside.relationId, .Remote remote.id, .Local dto.accountId, rfl⟩, rfl, rfl, rfl, rfl⟩
  rw [← hsource] at htarget hexists
  rw [← hdestination] at hexists
  obtain ⟨last, htransaction, hbecomes⟩ := exists_inboundBlock (q := .here dto.accountId) hkept.sound
    htarget (by rw [hdestination]; rfl) (by rw [hkept.view]; exact hnone)
    (by rw [htables, hid]; exact hfreshBlock) hexists
  rw [hid] at hbecomes
  refine ⟨last, ?_, hkept.trans hbecomes⟩
  simp only [handleBlockActivity, bind_eq_ok, lift_eq_ok, atomically_eq_ok, exec_eq_ok]
  exact ⟨url, db, ⟨by rw [hurl]; rfl, rfl⟩, (), db, ⟨hmatches, rfl⟩, actor, db, ⟨hactor, rfl⟩, remote,
    mid, hupsert, block, mid, ⟨hblock, rfl⟩, htransaction⟩

end Links

end Emumet

import Emumet.ServiceFederationViews

/-! Deliveries between instances: which of them are ignored by the instance they arrive at, and what the
others change there. -/

namespace Emumet

namespace Federation

open Relations Session Exchange Links

/-! ### Embedded activities -/

/-- An embedded activity that is read back has the actor that was written. -/
theorem actor_of_embedded {activity inner : Activity} (h : Activity.fromJson activity.toJson = some inner) :
    inner.actor = activity.actor := by
  have hread : activity.toJson.get? "actor" = some (.string activity.actor) := by
    cases hcontext : activity.context <;>
      simp [Activity.toJson, Json.get?, Activity.member, List.lookup, hcontext]
  simp only [Activity.toJson, Activity.fromJson, Activity.ofMembers, Option.bind_eq_bind,
    Option.bind_eq_some_iff, Option.pure_def, Option.some.injEq] at h
  obtain ⟨_, _, _, _, _, ⟨value, hvalue, hname⟩, _, _, _, _, rfl⟩ := h
  obtain rfl := Option.some.inj (hread.symm.trans hvalue)
  exact (Option.some.inj hname).symm

theorem objectOfType_undoFollow (base : String) (activityId : Int) (id : FollowId) (actorUrl url : String) :
    (undoFollowActivity base activityId (followActivity base id actorUrl url) url).objectOfType "Follow" =
      some (followActivity base id actorUrl url) := rfl

theorem objectOfType_undoBlock (base : String) (activityId : Int) (id : BlockId) (actorUrl url : String) :
    (undoBlockActivity base activityId (blockActivity base id actorUrl url) url).objectOfType "Block" =
      some (blockActivity base id actorUrl url) := rfl

theorem objectOfType_accept (base base' : String) (id id' : FollowId) (actorUrl url : String) :
    (acceptActivity base' id' url (followActivity base id actorUrl url)).objectOfType "Follow" =
      some (followActivity base id actorUrl url) := rfl

section Calls

variable {server : Server} {outside : Outside} {dto : InboxActivityDto}

theorem handleInboxCall_follow (h : dto.activity.type_ = "Follow") :
    handleInboxCall server outside dto = handleFollowCall server outside dto :=
  if_pos h

theorem handleInboxCall_accept (h : dto.activity.type_ = "Accept") :
    handleInboxCall server outside dto = silent (handleAcceptActivity server outside dto) := by
  rw [handleInboxCall, h, handleInboxActivity, h]
  rfl

theorem handleInboxCall_block (h : dto.activity.type_ = "Block") :
    handleInboxCall server outside dto = silent (handleBlockActivity server outside dto) := by
  rw [handleInboxCall, h, handleInboxActivity, h]
  rfl

theorem handleInboxCall_undoFollow (h : dto.activity.type_ = "Undo")
    (hobject : (dto.activity.objectOfType "Follow").isSome = true) :
    handleInboxCall server outside dto = silent (handleUndoFollow server dto) := by
  rw [handleInboxCall, h, handleInboxActivity, h, hobject]
  rfl

theorem handleInboxCall_undoBlock (h : dto.activity.type_ = "Undo")
    (hfollow : dto.activity.objectOfType "Follow" = none)
    (hblock : (dto.activity.objectOfType "Block").isSome = true) :
    handleInboxCall server outside dto = silent (handleUndoBlockActivity server dto) := by
  rw [handleInboxCall, h, handleInboxActivity, h, hfollow, hblock]
  rfl

theorem acceptedActorUrl_eq {base url : String} {id : FollowId}
    (hobject : dto.activity.objectOfType "Follow" =
      some (followActivity base id (localActorUrl server.publicBaseUrl dto.accountNanoid) url))
    (hactor : dto.activity.actor = url) : acceptedActorUrl server dto = .ok (some url) := by
  simp [acceptedActorUrl, hobject, hactor, required, followActivity, Activity.objectId, bind, Except.bind,
    pure, Except.pure]

end Calls

namespace Network

variable {ι : Type} {net : Network ι} {round : Round ι} {level : Nat} {s s' : ι → Db} {i j : ι}
  {a b holder : Holder} {activity : Activity} {url : String}

/-! ### Deliveries that are ignored -/

/-- A call that writes nothing and sends nothing. -/
def Quiet (call : Session Db Report (Waiting Unit)) : Prop :=
  ∀ db, Triple (· = db) call
    (fun pending after => after = db ∧ pending.message = none ∧ ∀ mid, (pending.resume none mid).2 = mid)
    (· = db)

/-- The activity is ignored, whichever account of an instance gets it. -/
structure Ignored (net : Network ι) (activity : Activity) : Prop where
  quiet : ∀ i, ∀ holder ∈ net.holders i, ∀ outside,
    Quiet (handleInboxCall (net.server i) outside ⟨holder.id, holder.nanoid, activity⟩)

theorem quiet_silent {op : Session Db Report Unit}
    (h : ∀ db, Triple (· = db) op (fun _ after => after = db) (· = db)) : Quiet (silent op) :=
  fun db => .bind (h db) fun _ => .pure fun _ hs => ⟨hs, rfl, fun _ => rfl⟩

theorem ensureLocalActorMatches_foreign (hurl : net.Foreign url) (hholder : holder ∈ net.holders i) :
    ∃ e, ensureLocalActorMatches (net.server i) holder.nanoid url = .error e :=
  ⟨_, if_neg (hurl i holder hholder)⟩

theorem not_undoesLocally {dto : InboxActivityDto} {type_ : String} {inner : Activity}
    (hurl : net.Foreign url) (hholder : holder ∈ net.holders i) (hnanoid : dto.accountNanoid = holder.nanoid)
    (hinner : dto.activity.objectOfType type_ = some inner) (hobject : inner.objectId = some url) :
    ¬UndoesLocally (net.server i) dto type_ := by
  rintro ⟨other, hother, named, hnamed, hmatches⟩
  cases hinner.symm.trans hother
  cases hobject.symm.trans hnamed
  obtain ⟨e, he⟩ := ensureLocalActorMatches_foreign hurl hholder
  rw [hnanoid, he] at hmatches
  cases hmatches

theorem ignored_follow (base : String) (id : FollowId) (actorUrl : String) (hurl : net.Foreign url) :
    net.Ignored (followActivity base id actorUrl url) := by
  refine ⟨fun i holder hholder outside db s hs => ?_⟩
  obtain ⟨e, he⟩ := ensureLocalActorMatches_foreign hurl hholder
  have hcall : handleInboxCall (net.server i) outside
      ⟨holder.id, holder.nanoid, followActivity base id actorUrl url⟩ s = (.error e, s) := by
    refine (bind_of_ok rfl).trans (bind_of_error ?_)
    rw [lift, he]
  rw [hcall]
  exact hs

theorem ignored_block (base : String) (id : BlockId) (actorUrl : String) (hurl : net.Foreign url) :
    net.Ignored (blockActivity base id actorUrl url) := by
  refine ⟨fun i holder hholder outside => ?_⟩
  obtain ⟨e, he⟩ := ensureLocalActorMatches_foreign hurl hholder
  refine quiet_silent fun db s hs => ?_
  have hcall : handleInboxActivity (net.server i) outside
      ⟨holder.id, holder.nanoid, blockActivity base id actorUrl url⟩ s = (.error e, s) := by
    refine (bind_of_ok rfl).trans (bind_of_error ?_)
    rw [lift, he]
  rw [hcall]
  exact hs

theorem ignored_undoFollow (base : String) (activityId : Int) (id : FollowId) (actorUrl : String)
    (hurl : net.Foreign url) :
    net.Ignored (undoFollowActivity base activityId (followActivity base id actorUrl url) url) := by
  refine ⟨fun i holder hholder outside => ?_⟩
  have hnot : ¬UndoesLocally (net.server i) ⟨holder.id, holder.nanoid,
      undoFollowActivity base activityId (followActivity base id actorUrl url) url⟩ "Follow" :=
    not_undoesLocally hurl hholder rfl (objectOfType_undoFollow base activityId id actorUrl url) rfl
  exact quiet_silent fun db => undo_checks (fun _ => rfl) fun hlocal => absurd hlocal hnot

theorem ignored_undoBlock (base : String) (activityId : Int) (id : BlockId) (actorUrl : String)
    (hurl : net.Foreign url) :
    net.Ignored (undoBlockActivity base activityId (blockActivity base id actorUrl url) url) := by
  refine ⟨fun i holder hholder outside => ?_⟩
  have hnot : ¬UndoesLocally (net.server i) ⟨holder.id, holder.nanoid,
      undoBlockActivity base activityId (blockActivity base id actorUrl url) url⟩ "Block" :=
    not_undoesLocally hurl hholder rfl (objectOfType_undoBlock base activityId id actorUrl url) rfl
  exact quiet_silent fun db => undo_checks (fun _ => rfl) fun hlocal => absurd hlocal hnot

/-- The Accept of a Follow by an actor of another server, wherever that server has it delivered. -/
theorem ignored_accept (hnet : net.Addressed) (base : String) (id : FollowId) (actorUrl : String)
    {follow : Activity} (hactor : net.Foreign follow.actor) :
    net.Ignored (acceptActivity base id actorUrl follow) := by
  refine ⟨fun i holder hholder outside => ?_⟩
  refine quiet_silent fun db => ?_
  change Triple (· = db) (handleAcceptActivity (net.server i) outside
    ⟨holder.id, holder.nanoid, acceptActivity base id actorUrl follow⟩) _ _
  refine .bind (Q := fun accepted s => s = db ∧ acceptedActorUrl (net.server i)
      ⟨holder.id, holder.nanoid, acceptActivity base id actorUrl follow⟩ = .ok accepted)
    (.lift_cases (fun _ _ haccepted hs => ⟨hs, haccepted⟩) fun _ _ _ hs => hs)
    fun accepted => .assume fun haccepted => ?_
  cases accepted with
  | none => exact .pure fun _ hs => hs
  | some accepted =>
      obtain ⟨nested, hnested, hsame, _⟩ := acceptedActorUrl_ok haccepted
      have hread : Activity.fromJson follow.toJson = some nested :=
        (Option.filter_eq_some_iff.mp hnested).1
      refine absurd ?_ (hactor i holder hholder)
      rw [← actor_of_embedded hread, ← hnet.trimmed i holder hholder]
      exact of_decide_eq_true hsame

theorem holder_of_findAccountIdByNanoid {now : OffsetDateTime} {nanoid : String} {accountId : AccountId}
    (hheld : net.Held s) (h : findAccountIdByNanoid (s i) now nanoid = .ok accountId) :
    ∃ holder ∈ net.holders i, holder.nanoid = nanoid ∧ holder.id = accountId := by
  simp only [findAccountIdByNanoid] at h
  split_ifs at h
  split at h
  · next account haccount =>
      cases h
      exact ⟨_, hheld.found haccount, rfl, rfl⟩
  · cases h

theorem Addressed.findAccountIdByNanoid_eq (hnet : net.Addressed) (hheld : net.Held s)
    {now : OffsetDateTime} {account : Account} (hb : b ∈ net.holders j)
    (hfound : AccountReadModel.findByNanoid (s j) now b.nanoid = some account) :
    findAccountIdByNanoid (s j) now b.nanoid = .ok b.id := by
  have hsame := hnet.nanoids j _ (hheld.found hfound) b hb rfl
  rw [findAccountIdByNanoid, if_neg (hnet.addressed j b hb), hfound]
  exact congrArg (fun holder => Except.ok holder.id) hsame

theorem Addressed.namesLocalActor {dto : InboxActivityDto} {inner : Activity} (hnet : net.Addressed)
    (hb : b ∈ net.holders j) (hnanoid : dto.accountNanoid = b.nanoid)
    (hobject : inner.objectId = some (net.actorUrl j b.nanoid)) :
    Undo.NamesLocalActor (net.server j) dto inner := by
  refine ⟨_, hobject, ?_⟩
  have hmatches : trimEndSlashes (net.actorUrl j b.nanoid) =
      localActorUrl (net.server j).publicBaseUrl b.nanoid := hnet.trimmed j b hb
  simp only [ensureLocalActorMatches, hnanoid, hmatches, if_true]

/-- The URL of an account is resolved to the account. -/
theorem Addressed.member_of_resolved {k : ι} {actor : ResolvedRemoteActor} (hnet : net.Addressed)
    (hheld : net.Held s) (hhonest : net.Honest round) (ha : a ∈ net.holders i)
    (h : resolveRemoteActor (net.server k) (net.outside round level s k) (net.actorUrl i a.nanoid) =
      .ok actor) : net.Member round level s i a actor := by
  rcases resolved hnet hheld hhonest h with ⟨i', a', hmember, hurl⟩ | ⟨_, hnone⟩
  · obtain ⟨rfl, rfl⟩ := hnet.url_injective ha hmember.held hurl
    exact hmember
  · rw [hnet.actor i a ha] at hnone
    cases hnone

theorem Addressed.contains_account {now : OffsetDateTime} {account : Account} (hnet : net.Addressed)
    (hheld : net.Held s) (hb : b ∈ net.holders j)
    (hfound : AccountReadModel.findByNanoid (s j) now b.nanoid = some account) :
    (s j).accounts.contains b.id = true := by
  obtain ⟨row, hrow, hnanoid, _, _⟩ := found_row hfound
  obtain rfl := hnet.nanoids j _ (hheld j row hrow) b hb hnanoid
  exact Option.isSome_iff_exists.mpr ⟨row, Table.get_eq_some_iff.mpr ⟨hrow, rfl⟩⟩

section Delivered

variable [DecidableEq ι]

theorem exchange_ignored (s : ι → Db) (outside : Outside) (send : Message → Session (ι → Db) Report Unit)
    (h : net.Ignored activity) (hholder : holder ∈ net.holders i) :
    (exchange i (handleInboxCall (net.server i) outside ⟨holder.id, holder.nanoid, activity⟩) send s).2 =
      s := by
  have hcall := h.quiet i holder hholder outside (s i) (s i) rfl
  rcases hrun : handleInboxCall (net.server i) outside ⟨holder.id, holder.nanoid, activity⟩ (s i) with
    ⟨e | pending, after⟩
  · rw [hrun] at hcall
    obtain rfl : after = s i := hcall
    rw [exchange_of_error hrun, Function.update_eq_self]
  · rw [hrun] at hcall
    obtain ⟨rfl, hmessage, hresume⟩ := hcall
    rw [exchange_of_quiet hrun hmessage, Function.update_eq_self, onStore, hresume,
      Function.update_eq_self]

theorem deliver_ignored (hheld : net.Held s) (h : net.Ignored activity) (inboxUrl : String) :
    (net.deliver round level (inboxUrl, activity) s).2 = s := by
  cases level with
  | zero => rfl
  | succ level =>
      cases hinbox : net.inboxAt inboxUrl with
      | none => simp only [deliver, hinbox, lift]
      | some address =>
          obtain ⟨i, nanoid⟩ := address
          simp only [deliver, hinbox, receive]
          cases hfound : findAccountIdByNanoid (s i) (round.clock level i) nanoid with
          | error _ => rfl
          | ok accountId =>
              obtain ⟨holder, hholder, rfl, rfl⟩ := holder_of_findAccountIdByNanoid hheld hfound
              have hsame := exchange_ignored s (net.outside round level s i) (net.deliver round level) h
                hholder
              dsimp only
              split
              · next hrun => rw [← hsame, hrun]
              · next hrun => rw [← hsame, hrun]

/-! ### Deliveries to an account of an instance -/

/-- A delivery to an account that is not visible is refused. -/
theorem Addressed.deliver_unfound (hnet : net.Addressed) (hb : b ∈ net.holders j) {status : ErrorStatus}
    (hfound : findAccountIdByNanoid (s j) (round.clock level j) b.nanoid = .error status) :
    net.deliver round (level + 1) (net.inboxUrl j b.nanoid, activity) s = (refused, s) := by
  simp only [deliver, hnet.inbox j b hb, receive, hfound]
  rfl

theorem Addressed.deliver_refused (hnet : net.Addressed) (hb : b ∈ net.holders j) {e : Report}
    (hfound : findAccountIdByNanoid (s j) (round.clock level j) b.nanoid = .ok b.id)
    (hrun : exchange j (handleInboxCall (net.server j) (net.outside round level s j)
      ⟨b.id, b.nanoid, activity⟩) (net.deliver round level) s = (.error e, s')) :
    net.deliver round (level + 1) (net.inboxUrl j b.nanoid, activity) s = (refused, s') := by
  simp only [deliver, hnet.inbox j b hb, receive, hfound, hrun]

theorem Addressed.deliver_handled (hnet : net.Addressed) (hb : b ∈ net.holders j)
    (hfound : findAccountIdByNanoid (s j) (round.clock level j) b.nanoid = .ok b.id)
    (hrun : exchange j (handleInboxCall (net.server j) (net.outside round level s j)
      ⟨b.id, b.nanoid, activity⟩) (net.deliver round level) s = (.ok (), s')) :
    net.deliver round (level + 1) (net.inboxUrl j b.nanoid, activity) s = (.ok (), s') := by
  simp only [deliver, hnet.inbox j b hb, receive, hfound, hrun]

/-- An activity that is answered by none. -/
theorem Addressed.deliver_silently (hnet : net.Addressed) (hsound : ∀ k, Sound net.Listed (s k))
    (hb : b ∈ net.holders j)
    (hfound : findAccountIdByNanoid (s j) (round.clock level j) b.nanoid = .ok b.id)
    {op : Session Db Report Unit} {after : Db} {change : View → View}
    (hcall : handleInboxCall (net.server j) (net.outside round level s j) ⟨b.id, b.nanoid, activity⟩ =
      silent op)
    (hop : op (s j) = (.ok (), after)) (hbecomes : Becomes net.Listed change (s j) after) :
    ∃ s', net.deliver round (level + 1) (net.inboxUrl j b.nanoid, activity) s = (.ok (), s') ∧
      net.Reaches (changeAt j change) s s' := by
  refine ⟨Function.update s j after, hnet.deliver_handled hb hfound ?_, .single hsound hbecomes⟩
  rw [hcall, exchange_silent]
  exact onStore_eq hop

/-- The Accept of a follow whose actor has a row approves it. -/
theorem Addressed.deliver_accept (hnet : net.Addressed) (hsound : ∀ k, Sound net.Listed (s k))
    (ha : a ∈ net.holders i) (base base' : String) (id id' : FollowId) {x : TargetId}
    (hfound : findAccountIdByNanoid (s i) (round.clock 0 i) a.nanoid = .ok a.id)
    (hknown : target (s i) (.there url) = some x) :
    ∃ s', net.deliver round 1 (net.inboxUrl i a.nanoid, acceptActivity base' id' url
        (followActivity base id (net.actorUrl i a.nanoid) url)) s = (.ok (), s') ∧
      net.Reaches (changeAt i (View.approve (.here a.id) (.there url))) s s' := by
  have haccepted : acceptedActorUrl (net.server i) ⟨a.id, a.nanoid,
      acceptActivity base' id' url (followActivity base id (net.actorUrl i a.nanoid) url)⟩ =
        .ok (some url) :=
    acceptedActorUrl_eq (objectOfType_accept base base' id id' _ url) rfl
  obtain ⟨after, hop, hbecomes⟩ := handleAcceptActivity_of (hsound i) haccepted hknown
  exact hnet.deliver_silently hsound ha hfound (handleInboxCall_accept rfl) hop hbecomes

/-- The Undo of a follow deletes it, unless its receiver is not visible. -/
theorem Addressed.deliver_undoFollow (hnet : net.Addressed) (round : Round ι) (level : Nat)
    (hheld : net.Held s) (hsound : ∀ k, Sound net.Listed (s k)) (hb : b ∈ net.holders j)
    (base actorUrl : String) (activityId : Int) (id : FollowId) :
    (∃ e, net.deliver round (level + 1) (net.inboxUrl j b.nanoid, undoFollowActivity base activityId
        (followActivity base id actorUrl (net.actorUrl j b.nanoid)) (net.actorUrl j b.nanoid)) s =
      (.error e, s)) ∨
    ∃ s', net.deliver round (level + 1) (net.inboxUrl j b.nanoid, undoFollowActivity base activityId
        (followActivity base id actorUrl (net.actorUrl j b.nanoid)) (net.actorUrl j b.nanoid)) s =
      (.ok (), s') ∧
        net.Reaches (changeAt j (View.setFollow (.there actorUrl) (.here b.id) none)) s s' := by
  cases hfound : findAccountIdByNanoid (s j) (round.clock level j) b.nanoid with
  | error status => exact .inl ⟨_, hnet.deliver_unfound hb hfound⟩
  | ok accountId =>
      obtain ⟨holder, hholder, hnanoid, rfl⟩ := holder_of_findAccountIdByNanoid hheld hfound
      obtain rfl := hnet.nanoids j holder hholder b hb hnanoid
      have hobject := objectOfType_undoFollow base activityId id actorUrl (net.actorUrl j holder.nanoid)
      have hlocal : UndoesLocally (net.server j) ⟨holder.id, holder.nanoid, undoFollowActivity base activityId
          (followActivity base id actorUrl (net.actorUrl j holder.nanoid)) (net.actorUrl j holder.nanoid)⟩
          "Follow" :=
        ⟨_, hobject, hnet.namesLocalActor hb rfl rfl⟩
      obtain ⟨last, hop, hbecomes⟩ := (handleUndoFollow_spec (hsound j)).exists_ok hlocal
      exact .inr (hnet.deliver_silently hsound hb hfound
        (handleInboxCall_undoFollow rfl (by rw [hobject]; rfl)) hop hbecomes)

/-- The Undo of a Block deletes it. -/
theorem Addressed.deliver_undoBlock (hnet : net.Addressed) (hsound : ∀ k, Sound net.Listed (s k))
    (hb : b ∈ net.holders j) (base actorUrl : String) (activityId : Int) (id : BlockId)
    (hfound : findAccountIdByNanoid (s j) (round.clock level j) b.nanoid = .ok b.id) :
    ∃ s', net.deliver round (level + 1) (net.inboxUrl j b.nanoid, undoBlockActivity base activityId
        (blockActivity base id actorUrl (net.actorUrl j b.nanoid)) (net.actorUrl j b.nanoid)) s =
      (.ok (), s') ∧
        net.Reaches (changeAt j (View.setBlock (.there actorUrl) (.here b.id) none)) s s' := by
  have hobject := objectOfType_undoBlock base activityId id actorUrl (net.actorUrl j b.nanoid)
  have hlocal : UndoesLocally (net.server j) ⟨b.id, b.nanoid, undoBlockActivity base activityId
      (blockActivity base id actorUrl (net.actorUrl j b.nanoid)) (net.actorUrl j b.nanoid)⟩ "Block" :=
    ⟨_, hobject, hnet.namesLocalActor hb rfl rfl⟩
  obtain ⟨last, hop, hbecomes⟩ := (handleUndoBlockActivity_spec (hsound j)).exists_ok hlocal
  exact hnet.deliver_silently hsound hb hfound
    (handleInboxCall_undoBlock rfl rfl (by rw [hobject]; rfl)) hop hbecomes

/-- A Block between accounts that is not there yet is stored. -/
theorem Addressed.deliver_block (hnet : net.Addressed) (hheld : net.Held s) (hhonest : net.Honest round)
    (hkeyed : Keyed round s) (hsound : ∀ k, Sound net.Listed (s k)) (ha : a ∈ net.holders i)
    (hb : b ∈ net.holders j) (base : String) (id : BlockId) {account account' : Account}
    (hfound : AccountReadModel.findByNanoid (s i) (round.clock level i) a.nanoid = some account)
    (hfound' : AccountReadModel.findByNanoid (s j) (round.clock level j) b.nanoid = some account')
    (hfreshRemote : (s j).remoteAccounts.get (round.outside level).remoteAccountId = none)
    (hfreshBlock : (s j).blocks.get (round.outside level).relationId = none)
    (hnone : (view (s j)).blocks (.there (net.actorUrl i a.nanoid), .here b.id) = none) :
    ∃ s', net.deliver round (level + 1) (net.inboxUrl j b.nanoid, blockActivity base id
        (net.actorUrl i a.nanoid) (net.actorUrl j b.nanoid)) s = (.ok (), s') ∧
      net.Reaches (changeAt j (View.block (.there (net.actorUrl i a.nanoid)) (.here b.id)
        (round.outside level).relationId)) s s' := by
  obtain ⟨actor, hactor⟩ := exists_member (i := j) hnet hheld hkeyed ha hfound
  have hmember := hnet.member_of_resolved hheld hhonest ha hactor
  have hlocal : Undo.NamesLocalActor (net.server j) ⟨b.id, b.nanoid,
      blockActivity base id (net.actorUrl i a.nanoid) (net.actorUrl j b.nanoid)⟩
      (blockActivity base id (net.actorUrl i a.nanoid) (net.actorUrl j b.nanoid)) :=
    hnet.namesLocalActor hb rfl rfl
  rw [← hmember.url] at hnone
  obtain ⟨last, hop, hbecomes⟩ := handleBlockActivity_of (hsound j) hlocal hactor hmember.listed
    (hmember.fits hnet) hfreshRemote hfreshBlock hnone (hnet.contains_account hheld hb hfound')
  rw [hmember.url] at hbecomes
  exact hnet.deliver_silently hsound hb (hnet.findAccountIdByNanoid_eq hheld hb hfound')
    (handleInboxCall_block rfl) hop hbecomes

/-- A Follow between accounts that is not there yet is refused, or stored as approved and approved by its
Accept before it is answered. -/
theorem Addressed.exchange_follow (hnet : net.Addressed) (hheld : net.Held s) (hhonest : net.Honest round)
    (hsound : ∀ k, Sound net.Listed (s k)) (ha : a ∈ net.holders i) (dto : InboxActivityDto)
    {base : String} {followId : FollowId} {account : Account} {x : TargetId}
    (hactivity : dto.activity = followActivity base followId (net.actorUrl i a.nanoid)
      (net.actorUrl j dto.accountNanoid))
    (hfound : AccountReadModel.findByNanoid (s i) (round.clock 0 i) a.nanoid = some account)
    (hknown : target (s i) (.there (net.actorUrl j dto.accountNanoid)) = some x)
    (hfresh : (s j).follows.get (round.outside 1).relationId = none)
    (hnone : (view (s j)).follows (.there (net.actorUrl i a.nanoid), .here dto.accountId) = none) :
    (∃ e s', exchange j (handleInboxCall (net.server j) (net.outside round 1 s j) dto)
        (net.deliver round 1) s = (.error e, s') ∧ net.Reaches id s s') ∨
    ∃ s', exchange j (handleInboxCall (net.server j) (net.outside round 1 s j) dto)
        (net.deliver round 1) s = (.ok (), s') ∧
      net.Reaches (fun views => changeAt i
          (View.approve (.here a.id) (.there (net.actorUrl j dto.accountNanoid)))
        (changeAt j (View.setFollow (.there (net.actorUrl i a.nanoid)) (.here dto.accountId)
          (some ((round.outside 1).relationId, true))) views)) s s' := by
  have hactorUrl : dto.activity.actor = net.actorUrl i a.nanoid := by rw [hactivity]; rfl
  have hmember : ∀ actor, resolveRemoteActor (net.server j) (net.outside round 1 s j) dto.activity.actor =
      .ok actor → net.Member round 1 s i a actor := by
    intro actor hactor
    rw [hactorUrl] at hactor
    exact hnet.member_of_resolved hheld hhonest ha hactor
  rw [handleInboxCall_follow (by rw [hactivity]; rfl)]
  have hdone := handleFollowCall_spec (hsound j) (fun actor hactor => (hmember actor hactor).fits hnet)
    hfresh (s j) rfl
  rcases hrun : handleFollowCall (net.server j) (net.outside round 1 s j) dto (s j) with
    ⟨e | pending, after⟩
  · rw [hrun] at hdone
    exact .inl ⟨e, _, exchange_of_error hrun, .quiet hsound hdone⟩
  rw [hrun] at hdone
  obtain ⟨_, actor, hactor, ⟨_, hsome⟩ | hreceived⟩ := hdone
  · rw [(hmember actor hactor).url] at hsome
    exact absurd hnone hsome
  have hstored := Reaches.single hsound hreceived.becomes
  have hmessage := hreceived.message
  rw [(hmember actor hactor).url] at hstored
  rw [(hmember actor hactor).inbox, hactivity] at hmessage
  -- the follower's instance approves the follow while this one waits
  obtain ⟨_, hlater, _⟩ := hnet.found_later hheld (hstored.accounts i) le_rfl hfound
  obtain ⟨mid, haccepted, happroved⟩ := hnet.deliver_accept hstored.sound ha base
    (net.server j).publicBaseUrl followId (net.outside round 1 s j).relationId
    (hnet.findAccountIdByNanoid_eq (hstored.held hheld) ha hlater) (hstored.known i _ x hknown)
  obtain ⟨last, hresume, honly⟩ := hreceived.resume (some (.ok ())) (mid j)
  refine .inr ⟨Function.update mid j last, ?_, (hstored.trans happroved).trans
    (.quiet happroved.sound (becomes_outbox (happroved.sound j) honly))⟩
  rw [exchange_of_message hrun hmessage haccepted]
  exact onStore_eq hresume

/-- The delivery of a Follow to an account that may be visible or not. -/
theorem Addressed.deliver_follow (hnet : net.Addressed) (hheld : net.Held s) (hhonest : net.Honest round)
    (hsound : ∀ k, Sound net.Listed (s k)) (ha : a ∈ net.holders i) (hb : b ∈ net.holders j)
    (base : String) (followId : FollowId) {account : Account} {x : TargetId}
    (hfound : AccountReadModel.findByNanoid (s i) (round.clock 0 i) a.nanoid = some account)
    (hknown : target (s i) (.there (net.actorUrl j b.nanoid)) = some x)
    (hfresh : (s j).follows.get (round.outside 1).relationId = none)
    (hnone : (view (s j)).follows (.there (net.actorUrl i a.nanoid), .here b.id) = none) :
    (∃ e s', net.deliver round 2 (net.inboxUrl j b.nanoid, followActivity base followId
        (net.actorUrl i a.nanoid) (net.actorUrl j b.nanoid)) s = (.error e, s') ∧ net.Reaches id s s') ∨
    ∃ s', net.deliver round 2 (net.inboxUrl j b.nanoid, followActivity base followId
        (net.actorUrl i a.nanoid) (net.actorUrl j b.nanoid)) s = (.ok (), s') ∧
      net.Reaches (fun views => changeAt i
          (View.approve (.here a.id) (.there (net.actorUrl j b.nanoid)))
        (changeAt j (View.setFollow (.there (net.actorUrl i a.nanoid)) (.here b.id)
          (some ((round.outside 1).relationId, true))) views)) s s' := by
  cases hfound' : findAccountIdByNanoid (s j) (round.clock 1 j) b.nanoid with
  | error status => exact .inl ⟨_, s, hnet.deliver_unfound hb hfound', .refl hsound⟩
  | ok accountId =>
      obtain ⟨holder, hholder, hnanoid, rfl⟩ := holder_of_findAccountIdByNanoid hheld hfound'
      obtain rfl := hnet.nanoids j holder hholder b hb hnanoid
      rcases hnet.exchange_follow hheld hhonest hsound ha ⟨holder.id, holder.nanoid, followActivity base
          followId (net.actorUrl i a.nanoid) (net.actorUrl j holder.nanoid)⟩ rfl hfound hknown hfresh hnone
        with ⟨e, s', hrun, hreaches⟩ | ⟨s', hrun, hreaches⟩
      · exact .inl ⟨_, s', hnet.deliver_refused hb hfound' hrun, hreaches⟩
      · exact .inr ⟨s', hnet.deliver_handled hb hfound' hrun, hreaches⟩

end Delivered

end Network

end Federation

end Emumet

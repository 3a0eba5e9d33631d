import Emumet.RouteAuthenticity
import Emumet.ServiceApproval
import Emumet.ServiceInboxFrame
import Emumet.ServiceMute

/-! Where the relations that remote actors claim come from. A follow or block of a local account by a
remote one, and the approval of a follow of a remote account, are written by handlers of inbox activities
only; the inbox route calls these with what the actor has signed. So every such row goes back to a signed
request of the actor, whatever else has happened. -/

namespace Emumet

namespace Provenance

open Relations Session

/-! ### What remote actors do -/

/-- A row that stands for what a remote actor has done. -/
inductive Deed where
  | followed (row : FollowRow)
  | blocked (row : BlockRow)
  | accepted (row : FollowRow)

namespace Deed

/-- The activity that does it. -/
def type_ : Deed → String
  | followed _ => "Follow"
  | blocked _ => "Block"
  | accepted _ => "Accept"

/-- Done by the remote account to the local one. -/
def Ends (accountId : AccountId) (remoteId : RemoteAccountId) : Deed → Prop
  | followed row => row.relates (.Remote remoteId) (.Local accountId) = true
  | blocked row => row.relates (.Remote remoteId) (.Local accountId) = true
  | accepted row =>
      row.relates (.Local accountId) (.Remote remoteId) = true ∧ row.approvedAt.isSome = true

def In (db : Db) : Deed → Prop
  | followed row => row ∈ db.follows.rows
  | blocked row => row ∈ db.blocks.rows
  | accepted row => row ∈ db.follows.rows

instance decidableIn (db : Db) : (deed : Deed) → Decidable (deed.In db)
  | followed row => inferInstanceAs (Decidable (row ∈ db.follows.rows))
  | blocked row => inferInstanceAs (Decidable (row ∈ db.blocks.rows))
  | accepted row => inferInstanceAs (Decidable (row ∈ db.follows.rows))

end Deed

/-- Remote actors have done nothing in between. -/
structure Silent (before after : Db) : Prop where
  deeds : ∀ (deed : Deed) accountId remoteId, deed.Ends accountId remoteId → deed.In after →
    deed.In before
  urls : KeepsUrls before after

instance : IsPreorder Db Silent where
  refl db := ⟨fun _ _ _ _ h => h, KeepsUrls.refl db⟩
  trans _ _ _ hab hbc := ⟨fun deed accountId remoteId hends h =>
    hab.deeds deed accountId remoteId hends (hbc.deeds deed accountId remoteId hends h),
    hab.urls.trans hbc.urls⟩

theorem Silent.of_drops {before after : Db} (h : Drops before after) : Silent before after := by
  refine ⟨fun deed _ _ _ hin => ?_, h.urls⟩
  cases deed with
  | followed row => exact h.follows row hin
  | blocked row => exact h.blocks row hin
  | accepted row => exact h.follows row hin

/-! ### Requests of local accounts -/

theorem silent {α : Type} {op : Session Db Report α} (h : Moves Drops op) : Moves Silent op :=
  h.mono fun _ _ => .of_drops

theorem stays {α : Type} {op : Session Db Report α} {db : Db} (h : Moves Silent op) :
    Triple (Silent db) op (fun _ => Silent db) (Silent db) :=
  h.triple fun _ _ hs hmoves => trans_of Silent hs hmoves

/-- A pending follow of a local account. -/
theorem Silent.insertFollow {db after : Db} {follow : Follow} {accountId : AccountId}
    (hsource : follow.source = .Local accountId) (hpending : follow.approvedAt = none)
    (hinsert : FollowRepository.insert db follow = .inserted after) : Silent db after := by
  obtain rfl := FollowRepository.insert_inserted hinsert
  refine ⟨fun deed accountId remoteId hends hin => ?_, KeepsUrls.refl db⟩
  cases deed with
  | followed row =>
      rcases Table.mem_put.mp hin with rfl | ⟨hold, _⟩
      · have hsame := (relates_ofFollow.mp hends).1
        rw [hsource] at hsame
        cases hsame
      · exact hold
  | blocked row => exact hin
  | accepted row =>
      rcases Table.mem_put.mp hin with rfl | ⟨hold, _⟩
      · have happroved := hends.2
        rw [FollowRow.ofFollow, hpending] at happroved
        cases happroved
      · exact hold

/-- A block of a local account. -/
theorem Silent.insertBlock {db after : Db} {block : Block} {accountId : AccountId}
    (hsource : block.source = .Local accountId)
    (hinsert : BlockRepository.insert db block = .inserted after) : Silent db after := by
  obtain rfl := BlockRepository.insert_inserted hinsert
  refine ⟨fun deed accountId remoteId hends hin => ?_, KeepsUrls.refl db⟩
  cases deed with
  | followed row => exact hin
  | blocked row =>
      rcases Table.mem_put.mp hin with rfl | ⟨hold, _⟩
      · have hsame := (relates_ofBlock.mp hends).1
        rw [hsource] at hsame
        cases hsame
      · exact hold
  | accepted row => exact hin

section Requests

variable (server : Server) (outside : Outside) (accountNanoid target : String)

theorem silent_sendFollow : Moves Silent (sendFollow server outside accountNanoid target) := by
  intro db
  refine Triple.run (P := Silent db) ?_ (refl_of Silent db)
  refine .bind (stays (.read _)) fun account => .bind (stays (.lift _)) fun _ =>
    .bind (stays (.lift _)) fun actor => .bind (stays (silent (moves_upsertRemoteAccount _ _)))
    fun remote => .bind (stays (.read _)) fun existing => ?_
  refine .bind (Q := fun follow s => Silent db s ∧
      (follow.source = .Local account.id ∧ follow.approvedAt = none))
    (.lift (fun follow s hnew hs => ⟨hs, ?_⟩) fun _ hs => hs) fun follow => .assume fun hfollow => ?_
  · simp only [reject] at hnew
    split_ifs at hnew
    exact ⟨(Follow.new_ok hnew).1, Follow.new_approvedAt hnew⟩
  refine .bind (Q := fun _ => Silent db) (.exec (fun s after hs hcreate => ?_) fun _ hs => hs) fun _ => ?_
  · exact trans_of Silent hs (.insertFollow hfollow.1 hfollow.2 (Insertion.orReject_ok hcreate))
  dsimp only
  split
  · exact .bind (stays (silent (moves_delete _))) fun _ => stays (.lift _)
  · exact .bind (stays (silent (moves_storeDelivered _ _ _))) fun _ => stays (.pure _)

theorem silent_blockAccount : Moves Silent (blockAccount server outside accountNanoid target) := by
  intro db
  refine Triple.run (P := Silent db) ?_ (refl_of Silent db)
  refine .bind (stays (.read _)) fun account => .bind (stays (.lift _)) fun _ =>
    .bind (stays (silent (moves_resolveBlockTarget _ _ _))) fun resolved => ?_
  refine .bind (Q := fun block s => Silent db s ∧ block.source = .Local account.id)
    (.lift (fun block s hnew hs => ⟨hs, ?_⟩) fun _ hs => hs) fun block => .assume fun hsource => ?_
  · simp only [reject] at hnew
    split_ifs at hnew
    exact (Block.new_ok hnew).1
  refine .bind (Q := fun _ => Silent db) (.atomically (fun s outboxId after hs hblock => ?_) fun _ hs => hs)
    fun _ => .bind (stays (silent (moves_deliverStored _ _ _))) fun _ => stays (.pure _)
  simp only [blockTransaction, Fallible.bind_eq_ok, reject] at hblock
  obtain ⟨existing, _, hblock⟩ := hblock
  split_ifs at hblock
  simp only [Fallible.bind_eq_ok] at hblock
  obtain ⟨created, hcreate, removed, hremove, hstore⟩ := hblock
  refine trans_of Silent hs (trans_of Silent (.insertBlock hsource (Insertion.orReject_ok hcreate)) ?_)
  obtain ⟨hremoved, hrows⟩ := removeFollowsBetween_ok hremove
  rw [storeDelivery_tables hstore]
  refine .of_drops ⟨fun row hrow => ?_, fun row hrow => ((hrows row).mp hrow).1, ?_⟩
  · rw [hremoved] at hrow
    exact hrow
  · rw [hremoved]
    exact KeepsUrls.refl created

theorem silent_muteAccount : Moves Silent (muteAccount server outside accountNanoid target) := by
  have hinsert : ∀ mute, Moves Drops
      (Session.atomically fun db => MuteRepository.insertIfAbsent db mute) := by
    refine fun mute => .atomically fun db inserted after h => ?_
    rcases Insertion.orAbsent_ok h with ⟨_, hinserted⟩ | ⟨_, hsame⟩
    · obtain ⟨_, _, _, rfl⟩ := insertRelation_inserted hinserted
      exact .of_same rfl rfl rfl
    · rw [hsame]
      exact refl_of Drops db
  exact silent (.bind (.read _) fun _ => .bind (.lift _) fun _ =>
    .bind (.bind (moves_resolveBlockTarget _ _ _) fun _ => .pure _) fun _ => .bind (.lift _) fun _ =>
    .bind (hinsert _) fun _ => .pure _)

theorem silent_unmuteAccount : Moves Silent (unmuteAccount server outside accountNanoid target) := by
  refine silent (.bind (.read _) fun account => .bind (.lift _) fun _ =>
    .bind (.bind (moves_resolveBlockTarget _ _ _) fun _ => .pure _) fun _ => .exec fun db after h => ?_)
  cases h
  exact .of_same rfl rfl rfl

end Requests

/-! ### Inbox activities -/

/-- No follow is added. -/
def FewerFollows (before after : Db) : Prop := ∀ row ∈ after.follows.rows, row ∈ before.follows.rows

instance : IsPreorder Db FewerFollows where
  refl _ _ h := h
  trans _ _ _ hab hbc row h := hab row (hbc row h)

section Inbox

variable (server : Server) (outside : Outside) {db : Db} {dto : InboxActivityDto}

/-- A Block takes follows away. -/
theorem fewerFollows_handleBlockActivity :
    Moves FewerFollows (handleBlockActivity server outside dto) := by
  have hdrops : ∀ {α : Type} {op : Session Db Report α}, Moves Drops op → Moves FewerFollows op :=
    fun h => h.mono fun _ _ hmoves => hmoves.follows
  refine .bind (.lift _) fun _ => .bind (.lift _) fun _ => .bind (.lift _) fun actor =>
    .bind (hdrops (moves_upsertRemoteAccount _ _)) fun _ => .bind (.lift _) fun block =>
    .exec fun s after hblock => ?_
  simp only [inboundBlockTransaction, Fallible.bind_eq_ok] at hblock
  obtain ⟨⟨inserted, middle⟩, hinsert, hblock⟩ := hblock
  rcases Insertion.orAbsent_ok hinsert with ⟨rfl, hinserted⟩ | ⟨rfl, rfl⟩
  · obtain rfl := BlockRepository.insert_inserted hinserted
    exact fun row hrow => (((removeFollowsBetween_ok hblock).2 row).mp hrow).1
  · cases hblock
    exact refl_of FewerFollows _

/-- An activity that is no Follow, Accept or Block is an Undo or does nothing. -/
theorem drops_handleInboxActivity (htype : dto.activity.type_ ∉ ["Follow", "Accept", "Block"]) :
    Moves Drops (handleInboxActivity server outside dto) := by
  simp only [List.mem_cons, List.not_mem_nil, or_false, not_or] at htype
  rw [handleInboxActivity, if_neg htype.1, if_neg htype.2.1, if_neg htype.2.2]
  split_ifs
  · exact moves_handleUndoFollow server dto
  · exact moves_handleUndoBlockActivity server dto
  · exact .pure _

theorem fewerFollows_handleInboxActivity (htype : dto.activity.type_ ∉ ["Follow", "Accept"]) :
    Moves FewerFollows (handleInboxActivity server outside dto) := by
  simp only [List.mem_cons, List.not_mem_nil, or_false, not_or] at htype
  by_cases hblock : dto.activity.type_ = "Block"
  · rw [handleInboxActivity, if_neg htype.1, if_neg htype.2, if_pos hblock]
    exact fewerFollows_handleBlockActivity server outside
  · exact (drops_handleInboxActivity server outside (by simp [htype, hblock])).mono
      fun _ _ hdrops => hdrops.follows

/-- What a remote actor has done after an inbox activity it had done before, or this activity does. -/
theorem deed_handleInboxActivity {deed : Deed} {accountId : AccountId} {remoteId : RemoteAccountId}
    (hends : deed.Ends accountId remoteId) (hin : deed.In (handleInboxActivity server outside dto db).2) :
    deed.In db ∨ (dto.activity.type_ = deed.type_ ∧ dto.accountId = accountId ∧
      ∃ remote ∈ (handleInboxActivity server outside dto db).2.remoteAccounts.rows,
        remote.id = remoteId ∧ sameActivitypubId remote.url dto.activity.actor = true) := by
  have hframe : InboxFrame.Frame dto db (handleInboxActivity server outside dto db).2 :=
    InboxFrame.frame_handleInboxActivity.run rfl
  refine or_iff_not_imp_left.mpr fun hnot => ?_
  cases deed with
  | followed row =>
      obtain ⟨remote, ⟨hremote, hurl⟩, habout⟩ := hframe.follows row fun hiff => hnot (hiff.mpr hin)
      rcases habout with ⟨htype, hrelates⟩ | ⟨_, hrelates⟩ | ⟨_, _, hrelates⟩
      · obtain ⟨hsource, hdestination⟩ := ends_of_relates hrelates hends
        refine ⟨?_, TargetId.Local.inj hdestination, remote, hremote, TargetId.Remote.inj hsource, hurl⟩
        -- a Block and an Undo add no follow
        by_contra hother
        have hneither : dto.activity.type_ ∉ ["Follow", "Accept"] := by
          intro hmem
          rcases List.mem_cons.mp hmem with hfollow | haccept
          · exact hother hfollow
          · rw [List.mem_singleton.mp haccept] at htype
            exact absurd htype (by decide)
        exact hnot (fewerFollows_handleInboxActivity server outside hneither db row hin)
      · cases (ends_of_relates hrelates hends).1
      · cases (ends_of_relates hrelates hends).1
  | blocked row =>
      obtain ⟨remote, ⟨hremote, hurl⟩, htype, hrelates⟩ :=
        hframe.blocks row fun hiff => hnot (hiff.mpr hin)
      obtain ⟨hsource, hdestination⟩ := block_ends_of_relates hrelates hends
      refine ⟨?_, TargetId.Local.inj hdestination, remote, hremote, TargetId.Remote.inj hsource, hurl⟩
      -- an Undo adds no block
      rcases List.mem_cons.mp htype with hblock | hundo
      · exact hblock
      · have hneither : dto.activity.type_ ∉ ["Follow", "Accept", "Block"] := by
          rw [List.mem_singleton.mp hundo]
          decide
        exact absurd ((drops_handleInboxActivity server outside hneither db).blocks row hin) hnot
  | accepted row =>
      obtain ⟨remote, ⟨hremote, hurl⟩, habout⟩ := hframe.follows row fun hiff => hnot (hiff.mpr hin)
      rcases habout with ⟨_, hrelates⟩ | ⟨htype, hrelates⟩ | ⟨_, hgone, _⟩
      · cases (ends_of_relates hrelates hends.1).1
      · obtain ⟨hsource, hdestination⟩ := ends_of_relates hrelates hends.1
        exact ⟨htype, TargetId.Local.inj hsource, remote, hremote, TargetId.Remote.inj hdestination, hurl⟩
      · exact absurd hin hgone

end Inbox

/-! ### Runs -/

/-- A request of a local account, or a request to the inbox of one. -/
inductive Action where
  | sendFollow (outside : Outside) (accountNanoid target : String)
  | sendUndoFollow (outside : Outside) (accountNanoid target : String)
  | blockAccount (outside : Outside) (accountNanoid target : String)
  | unblockAccount (outside : Outside) (accountNanoid target : String)
  | muteAccount (outside : Outside) (accountNanoid target : String)
  | unmuteAccount (outside : Outside) (accountNanoid target : String)
  | postInbox (env : InboxEnv) (outside : Outside) (request : InboxRequest)

section Runs

variable (libraries : HttpLibraries) (server : Server) (verifier : HttpSignatureVerifier)

/-- The database afterwards, whether the request succeeded or failed. -/
def step (db : Db) : Action → Db
  | .sendFollow outside accountNanoid target => (sendFollow server outside accountNanoid target db).2
  | .sendUndoFollow outside accountNanoid target =>
      (sendUndoFollow server outside accountNanoid target db).2
  | .blockAccount outside accountNanoid target =>
      (blockAccount server outside accountNanoid target db).2
  | .unblockAccount outside accountNanoid target =>
      (unblockAccount server outside accountNanoid target db).2
  | .muteAccount outside accountNanoid target => (muteAccount server outside accountNanoid target db).2
  | .unmuteAccount outside accountNanoid target =>
      (unmuteAccount server outside accountNanoid target db).2
  | .postInbox env outside request => (postInbox libraries server verifier env outside request db).2

/-- The action is a request to the inbox of the account that passes the checks of the route: it carries
an activity of the given type by the actor with the URL, and a key of this actor has signed it. -/
def Signed (type_ : String) (accountId : AccountId) (url : String) (db : Db) : Action → Prop
  | .postInbox env _ request => ∃ dto parsed signingString key owner,
      checkedActivity libraries server.publicBaseUrl verifier env request db = .ok dto ∧
      dto.accountId = accountId ∧ dto.activity.type_ = type_ ∧
      sameActivitypubId url dto.activity.actor = true ∧
      Passed libraries server.publicBaseUrl verifier env request dto.activity parsed signingString key owner
  | _ => False

variable {db : Db}

/-- What one request does. -/
structure Step (db : Db) (action : Action) (after : Db) : Prop where
  urls : KeepsUrls db after
  deeds : ∀ (deed : Deed) accountId remoteId, deed.Ends accountId remoteId → deed.In after →
    deed.In db ∨ ∃ remote ∈ after.remoteAccounts.rows, remote.id = remoteId ∧
      Signed libraries server verifier deed.type_ accountId remote.url db action

theorem Silent.step {action : Action} {after : Db} (h : Silent db after) :
    Step libraries server verifier db action after :=
  ⟨h.urls, fun deed accountId remoteId hends hin => .inl (h.deeds deed accountId remoteId hends hin)⟩

/-- A request that passes the checks is handled. -/
theorem step_of_checked {env : InboxEnv} {outside : Outside} {request : InboxRequest}
    {dto : InboxActivityDto}
    (h : checkedActivity libraries server.publicBaseUrl verifier env request db = .ok dto) :
    step libraries server verifier db (.postInbox env outside request) =
      (handleInboxActivity server outside dto db).2 := by
  simp only [step, postInbox, h]
  split <;> next hrun => rw [hrun]

theorem step_postInbox (env : InboxEnv) (outside : Outside) (request : InboxRequest) :
    Step libraries server verifier db (.postInbox env outside request)
      (step libraries server verifier db (.postInbox env outside request)) := by
  cases hchecked : checkedActivity libraries server.publicBaseUrl verifier env request db with
  | error status =>
      have hsame : step libraries server verifier db (.postInbox env outside request) = db := by
        simp only [step, postInbox, hchecked]
      rw [hsame]
      exact (refl_of Silent db).step libraries server verifier
  | ok dto =>
      rw [step_of_checked libraries server verifier hchecked]
      refine ⟨(Approval.approves_handleInboxActivity server outside dto db).urls,
        fun deed accountId remoteId hends hin => ?_⟩
      refine (deed_handleInboxActivity server outside hends hin).imp_right ?_
      rintro ⟨htype, haccount, remote, hremote, hid, hurl⟩
      obtain ⟨parsed, signingString, key, owner, hpassed⟩ := checkedActivity_ok hchecked
      exact ⟨remote, hremote, hid, dto, parsed, signingString, key, owner, hchecked, haccount, htype, hurl,
        hpassed⟩

theorem step_ok (db : Db) (action : Action) :
    Step libraries server verifier db action (step libraries server verifier db action) := by
  cases action with
  | sendFollow outside accountNanoid target =>
      exact (silent_sendFollow server outside accountNanoid target db).step libraries server verifier
  | sendUndoFollow outside accountNanoid target =>
      exact (silent (moves_sendUndoFollow server outside accountNanoid target) db).step libraries server
        verifier
  | blockAccount outside accountNanoid target =>
      exact (silent_blockAccount server outside accountNanoid target db).step libraries server verifier
  | unblockAccount outside accountNanoid target =>
      exact (silent (moves_unblockAccount server outside accountNanoid target) db).step libraries server
        verifier
  | muteAccount outside accountNanoid target =>
      exact (silent_muteAccount server outside accountNanoid target db).step libraries server verifier
  | unmuteAccount outside accountNanoid target =>
      exact (silent_unmuteAccount server outside accountNanoid target db).step libraries server verifier
  | postInbox env outside request => exact step_postInbox libraries server verifier env outside request

theorem keepsUrls_run (db : Db) (actions : List Action) :
    KeepsUrls db (Runs.run (step libraries server verifier) db actions) :=
  Runs.run_invariant (fun s action h => h.trans (step_ok libraries server verifier s action).urls)
    (KeepsUrls.refl db) actions

/-- After any requests, a follow or block of a local account by a remote one, or the approval of a follow
of a remote account, that was not there before them goes back to a request that the remote actor has
signed, and it is there ever since. -/
theorem remote_deeds_are_signed (db : Db) (actions : List Action) (deed : Deed) (accountId : AccountId)
    (remoteId : RemoteAccountId) (hends : deed.Ends accountId remoteId) (hstart : ¬deed.In db)
    (hin : deed.In (Runs.run (step libraries server verifier) db actions)) :
    ∃ remote ∈ (Runs.run (step libraries server verifier) db actions).remoteAccounts.rows,
      remote.id = remoteId ∧ Runs.Since (step libraries server verifier)
        (Signed libraries server verifier deed.type_ accountId remote.url) deed.In db actions := by
  obtain ⟨front, action, back, rfl, ⟨remote, hremote, hid, hsigned⟩, hsince⟩ :=
    Runs.exists_cause (P := deed.In)
      (fun s action h => (step_ok libraries server verifier s action).deeds deed accountId remoteId hends h)
      hstart hin
  -- the remote account still has its URL at the end
  obtain ⟨kept, hkept, hkeptId, hurl⟩ := keepsUrls_run libraries server verifier _ back remote hremote
  refine ⟨kept, ?_, hkeptId.trans hid, front, action, back, rfl, hurl ▸ hsigned, hsince⟩
  rw [Runs.run_append, Runs.run_cons]
  exact hkept

end Runs

/-! ### A signed Follow -/

open Exclusion (bobUrl localServer answering aliceDb)

def bobFollowsAlice : FollowRow :=
  .ofFollow
    { id := 11, source := .Remote 10, destination := .Local 7, approvedAt := some 1
      localEnd := Bool.or_true _ }

/-- Bob's signed Follow is the only origin of his follow of alice. -/
theorem remote_deeds_are_signed_bob :
    let libraries := bobLibraries "local.example"
    let actions : List Action :=
      [.postInbox bobEnv (answering 1 10) (bobRequest ["local.example"]),
        .sendFollow (answering 2 20) "alice-nanoid" bobUrl]
    ∃ remote ∈ (Runs.run (step libraries localServer ⟨[], []⟩) aliceDb actions).remoteAccounts.rows,
      remote.id = 10 ∧ Runs.Since (step libraries localServer ⟨[], []⟩)
        (Signed libraries localServer ⟨[], []⟩ "Follow" 7 remote.url)
        (Deed.followed bobFollowsAlice).In aliceDb actions :=
  remote_deeds_are_signed (bobLibraries "local.example") localServer ⟨[], []⟩ aliceDb
    [.postInbox bobEnv (answering 1 10) (bobRequest ["local.example"]),
      .sendFollow (answering 2 20) "alice-nanoid" bobUrl]
    (.followed bobFollowsAlice) 7 10 rfl List.not_mem_nil (by
      rw [Runs.run_cons, step_of_checked (bobLibraries "local.example") localServer ⟨[], []⟩
        checkedActivity_oneHost]
      decide +kernel)

end Provenance

end Emumet

import Emumet.ServiceExclusion

/-! Who approves an outbound follow. A follow of a local account is inserted without an approval, and the
one statement that approves it belongs to the handler of an Accept. An approved follow is therefore the
work of an Accept of its target that was handled while the follow was pending. -/

namespace Emumet

namespace Approval

open Relations Session

/-! ### Operations that approve nothing -/

/-- A follow of a local account that is approved. -/
def Outbound (row : FollowRow) : Prop :=
  row.approvedAt.isSome = true ∧
    ∃ accountId remoteId, row.relates (.Local accountId) (.Remote remoteId) = true

/-- Every approved outbound follow was there before, and remote accounts keep their URLs. -/
structure Unapproving (before after : Db) : Prop where
  follows : ∀ row ∈ after.follows.rows, Outbound row → row ∈ before.follows.rows
  urls : KeepsUrls before after

theorem Unapproving.refl (db : Db) : Unapproving db db := ⟨fun _ h _ => h, KeepsUrls.refl db⟩

theorem Unapproving.drops {db before after : Db} (h : Unapproving db before)
    (hdrops : Drops before after) : Unapproving db after :=
  ⟨fun row hrow houtbound => h.follows row (hdrops.follows row hrow) houtbound, h.urls.trans hdrops.urls⟩

variable (server : Server) (outside : Outside) {db : Db}

theorem keeps {α : Type} {op : Session Db Report α} (h : Moves Drops op) :
    Triple (Unapproving db) op (fun _ => Unapproving db) (Unapproving db) :=
  h.triple fun _ _ hs hdrops => hs.drops hdrops

theorem unapproving_blockAccount (accountNanoid target : String) :
    Triple (Unapproving db) (blockAccount server outside accountNanoid target)
      (fun _ => Unapproving db) (Unapproving db) := by
  refine .bind (keeps (.read _)) fun account => .bind (keeps (.lift _)) fun _ =>
    .bind (keeps (moves_resolveBlockTarget _ _ _)) fun resolved => .bind (keeps (.lift _)) fun block =>
    .bind (.atomically ?_ fun _ h => h) fun _ => .bind (keeps (moves_deliverStored _ _ _)) fun _ =>
    keeps (.pure _)
  intro s outboxId after h hblock
  simp only [blockTransaction, Fallible.bind_eq_ok, reject] at hblock
  obtain ⟨existing, _, hblock⟩ := hblock
  split_ifs at hblock
  simp only [Fallible.bind_eq_ok] at hblock
  obtain ⟨created, hcreate, removed, hremove, hstore⟩ := hblock
  obtain ⟨hremoved, hrows⟩ := removeFollowsBetween_ok hremove
  obtain rfl := BlockRepository.insert_inserted (Insertion.orReject_ok hcreate)
  rw [storeDelivery_tables hstore]
  refine ⟨fun row hrow => h.follows row ((hrows row).mp hrow).1, ?_⟩
  rw [hremoved]
  exact h.urls

theorem unapproving_handleBlockActivity (dto : InboxActivityDto) :
    Triple (Unapproving db) (handleBlockActivity server outside dto) (fun _ => Unapproving db)
      (Unapproving db) := by
  refine .bind (keeps (.lift _)) fun _ => .bind (keeps (.lift _)) fun _ =>
    .bind (keeps (.lift _)) fun actor => .bind (keeps (moves_upsertRemoteAccount _ _)) fun _ =>
    .bind (keeps (.lift _)) fun block => .exec ?_ fun _ h => h
  intro s after h hblock
  simp only [inboundBlockTransaction, Fallible.bind_eq_ok] at hblock
  obtain ⟨⟨inserted, middle⟩, hinsert, hblock⟩ := hblock
  rcases Insertion.orAbsent_ok hinsert with ⟨rfl, hinserted⟩ | ⟨rfl, rfl⟩
  · obtain rfl := BlockRepository.insert_inserted hinserted
    obtain ⟨hremoved, hrows⟩ := removeFollowsBetween_ok hblock
    refine ⟨fun row hrow => h.follows row ((hrows row).mp hrow).1, ?_⟩
    rw [hremoved]
    exact h.urls
  · cases hblock
    exact h

/-- A follow that is inserted pending, or by a remote account. -/
theorem Unapproving.insertFollow {s : Db} (h : Unapproving db s) {follow : Follow}
    (hnot : ¬Outbound (.ofFollow follow)) :
    Unapproving db { s with follows := s.follows.put (.ofFollow follow) } := by
  refine ⟨fun row hrow houtbound => ?_, h.urls⟩
  rcases Table.mem_put.mp hrow with rfl | ⟨hold, _⟩
  · exact absurd houtbound hnot
  · exact h.follows row hold houtbound

theorem unapproving_sendFollow (accountNanoid target : String) :
    Triple (Unapproving db) (sendFollow server outside accountNanoid target)
      (fun _ => Unapproving db) (Unapproving db) := by
  refine .bind (keeps (.read _)) fun account => .bind (keeps (.lift _)) fun _ =>
    .bind (keeps (.lift _)) fun actor => .bind (keeps (moves_upsertRemoteAccount _ _)) fun remote =>
    .bind (keeps (.read _)) fun existing => ?_
  refine .bind (Q := fun follow s => Unapproving db s ∧ follow.approvedAt = none)
    (.lift (fun follow s hnew hs => ⟨hs, ?_⟩) fun _ hs => hs) fun follow => .assume fun hpending => ?_
  · simp only [reject] at hnew
    split_ifs at hnew
    exact Follow.new_approvedAt hnew
  refine .bind (Q := fun _ => Unapproving db) (.exec (fun s after hs hcreate => ?_) fun _ hs => hs)
    fun _ => ?_
  · obtain rfl := FollowRepository.insert_inserted (Insertion.orReject_ok hcreate)
    refine hs.insertFollow fun houtbound => ?_
    have happroved := houtbound.1
    rw [FollowRow.ofFollow, hpending] at happroved
    cases happroved
  -- A failed delivery deletes the follow again.
  dsimp only
  split
  · exact .bind (keeps (moves_delete _)) fun _ => keeps (.lift _)
  · exact .bind (keeps (moves_storeDelivered _ _ _)) fun _ => keeps (.pure _)

theorem unapproving_handleFollowActivity (dto : InboxActivityDto) :
    Triple (Unapproving db) (handleFollowActivity server outside dto) (fun _ => Unapproving db)
      (Unapproving db) := by
  refine .bind (keeps (.lift _)) fun _ => .bind (keeps (.lift _)) fun _ =>
    .bind (keeps (.lift _)) fun actor => .bind (keeps (moves_upsertRemoteAccount _ _)) fun remote => ?_
  refine .bind (Q := fun follow s => Unapproving db s ∧ follow.source = .Remote remote.id)
    (.lift (fun follow s hnew hs => ⟨hs, (Follow.new_ok hnew).1⟩) fun _ hs => hs)
    fun follow => .assume fun hsource => ?_
  refine .bind (Q := fun _ => Unapproving db) (.atomically (fun s outboxId after hs hfollow => ?_)
    fun _ hs => hs) fun _ => keeps (moves_deliverStored _ _ _)
  simp only [followTransaction, Fallible.bind_eq_ok] at hfollow
  obtain ⟨⟨inserted, middle⟩, hinsert, hfollow⟩ := hfollow
  rcases Insertion.orAbsent_ok hinsert with ⟨rfl, hinserted⟩ | ⟨rfl, rfl⟩
  · obtain rfl := FollowRepository.insert_inserted hinserted
    rw [if_pos rfl] at hfollow
    have hinserted : Unapproving db { s with follows := s.follows.put (.ofFollow follow) } := by
      refine hs.insertFollow ?_
      rintro ⟨_, accountId, remoteId, hrelates⟩
      rw [relates_ofFollow, hsource] at hrelates
      cases hrelates.1
    rw [storeDelivery_tables hfollow]
    exact hinserted.drops (.of_same rfl rfl rfl)
  · cases hfollow
    exact hs

/-! ### The Accept of a follow -/

/-- An Accept, by the account with the URL, of a follow of the account with the nanoid. -/
def AcceptsFollow (server : Server) (accountNanoid : String) (activity : Activity) (url : String) :
    Prop :=
  activity.type_ = "Accept" ∧ sameActivitypubId activity.actor url = true ∧
    ∃ nestedFollow objectUrl, activity.objectOfType "Follow" = some nestedFollow ∧
      sameActivitypubId nestedFollow.actor (localActorUrl server.publicBaseUrl accountNanoid) = true ∧
      nestedFollow.objectId = some objectUrl ∧ sameActivitypubId objectUrl url = true

/-- The row is a pending follow between the two accounts. -/
def Pending (accountId : AccountId) (remoteId : RemoteAccountId) (row : FollowRow) : Prop :=
  row.relates (.Local accountId) (.Remote remoteId) = true ∧ row.approvedAt = none

/-- An approved outbound follow was there before, or was pending and is approved by this Accept. -/
structure Approves (server : Server) (dto : InboxActivityDto) (before after : Db) : Prop where
  follows : ∀ row ∈ after.follows.rows, Outbound row → row ∈ before.follows.rows ∨
    ∃ remote ∈ before.remoteAccounts.rows, AcceptsFollow server dto.accountNanoid dto.activity remote.url ∧
      row.relates (.Local dto.accountId) (.Remote remote.id) = true ∧
      ∃ pending ∈ before.follows.rows, pending.id = row.id ∧ Pending dto.accountId remote.id pending
  urls : KeepsUrls before after

theorem Unapproving.approves {dto : InboxActivityDto} {after : Db} (h : Unapproving db after) :
    Approves server dto db after :=
  ⟨fun row hrow houtbound => .inl (h.follows row hrow houtbound), h.urls⟩

theorem approves_handleAcceptActivity {dto : InboxActivityDto} (htype : dto.activity.type_ = "Accept") :
    Triple (· = db) (handleAcceptActivity server outside dto) (fun _ => Approves server dto db)
      (Approves server dto db) := by
  have hstart : ∀ s, s = db → Approves server dto db s := by
    rintro s rfl
    exact (Unapproving.refl s).approves server
  refine .bind (Q := fun accepted s => s = db ∧ acceptedActorUrl server dto = .ok accepted)
    (.lift (fun _ _ haccepted hs => ⟨hs, haccepted⟩) hstart) fun accepted => .assume fun haccepted => ?_
  cases accepted with
  | none => exact .pure hstart
  | some remoteActorUrl =>
      obtain ⟨nestedFollow, hnested, hlocal, hobject, hactor⟩ := acceptedActorUrl_ok haccepted
      refine .bind (Q := fun remote s => s = db ∧
          RemoteAccountRepository.findByUrl db remoteActorUrl = some remote)
        (.read (fun remote s hs hread => ⟨hs, ?_⟩) hstart) fun remote => .assume fun hfound => ?_
      · subst hs
        split at hread
        · next hsome =>
            cases hread
            exact hsome
        · cases hread
      · have hurl : remote.url = remoteActorUrl := by simpa using List.find?_some hfound
        have haccepts : AcceptsFollow server dto.accountNanoid dto.activity remote.url :=
          ⟨htype, hurl ▸ hactor, nestedFollow, remoteActorUrl, hnested, hlocal, hobject,
            by simp [sameActivitypubId, hurl]⟩
        refine .exec (fun s after hs hok => ?_) hstart
        subst hs
        cases hok
        refine ⟨fun row hrow houtbound => ?_, KeepsUrls.refl s⟩
        obtain ⟨old, hold, rfl⟩ := List.mem_map.mp hrow
        unfold FollowRepository.approve
        split_ifs with hpending
        · rw [Bool.and_eq_true, Option.isNone_iff_eq_none] at hpending
          exact .inr ⟨remote, List.mem_of_find?_eq_some hfound, haccepts, hpending.1,
            old, hold, rfl, hpending⟩
        · exact .inl hold

/-- Every inbound activity. -/
theorem approves_handleInboxActivity (dto : InboxActivityDto) (db : Db) :
    Approves server dto db (handleInboxActivity server outside dto db).2 := by
  unfold handleInboxActivity
  split_ifs with hfollow haccept
  · exact ((unapproving_handleFollowActivity server outside dto).run (.refl db)).approves server
  · exact (approves_handleAcceptActivity server outside haccept).run rfl
  · exact ((unapproving_handleBlockActivity server outside dto).run (.refl db)).approves server
  · exact ((Unapproving.refl db).drops (moves_handleUndoFollow server dto db)).approves server
  · exact ((Unapproving.refl db).drops (moves_handleUndoBlockActivity server dto db)).approves server
  · exact (Unapproving.refl db).approves server

/-! ### Runs -/

/-- A request of a local account, or an activity that is posted to the inbox of one. -/
inductive Action where
  | sendFollow (outside : Outside) (accountNanoid target : String)
  | sendUndoFollow (outside : Outside) (accountNanoid target : String)
  | blockAccount (outside : Outside) (accountNanoid target : String)
  | unblockAccount (outside : Outside) (accountNanoid target : String)
  | inbox (outside : Outside) (accountNanoid : String) (activity : Activity)

/-- The database afterwards, whether the operation succeeded or failed. -/
def step (db : Db) : Action → Db
  | .sendFollow outside accountNanoid target => (sendFollow server outside accountNanoid target db).2
  | .sendUndoFollow outside accountNanoid target =>
      (sendUndoFollow server outside accountNanoid target db).2
  | .blockAccount outside accountNanoid target =>
      (blockAccount server outside accountNanoid target db).2
  | .unblockAccount outside accountNanoid target =>
      (unblockAccount server outside accountNanoid target db).2
  | .inbox outside accountNanoid activity =>
      match AccountReadModel.findByNanoid db outside.now accountNanoid with
      | some account =>
          (handleInboxActivity server outside ⟨account.id, accountNanoid, activity⟩ db).2
      | none => db

/-- The action is an Accept, by the remote account, of the follow with this id, which is pending. -/
def AcceptsPending (accountId : AccountId) (remoteId : RemoteAccountId) (followId : FollowId)
    (url : String) (db : Db) : Action → Prop
  | .inbox outside accountNanoid activity =>
      (∃ account ∈ AccountReadModel.findByNanoid db outside.now accountNanoid,
        account.id = accountId ∧ AcceptsFollow server account.nanoid activity url) ∧
      ∃ pending ∈ db.follows.rows, pending.id = followId ∧ Pending accountId remoteId pending
  | _ => False

/-- What one action does to the approved follows from a local to a remote account. -/
structure Step (accountId : AccountId) (remoteId : RemoteAccountId) (db : Db) (action : Action) (after : Db) :
    Prop where
  urls : KeepsUrls db after
  follows : ∀ row ∈ after.follows.rows, row.approvedAt.isSome = true →
    row.relates (.Local accountId) (.Remote remoteId) = true → row ∈ db.follows.rows ∨
      ∃ remote ∈ db.remoteAccounts.rows, remote.id = remoteId ∧
        AcceptsPending server accountId remoteId row.id remote.url db action

variable {accountId : AccountId} {remoteId : RemoteAccountId}

theorem Unapproving.step {action : Action} {after : Db} (h : Unapproving db after) :
    Step server accountId remoteId db action after :=
  ⟨h.urls, fun row hrow happroved hrelates =>
    .inl (h.follows row hrow ⟨happroved, accountId, remoteId, hrelates⟩)⟩

theorem nanoid_of_findByNanoid {now : OffsetDateTime} {nanoid : Nanoid} {account : Account}
    (h : AccountReadModel.findByNanoid db now nanoid = some account) : account.nanoid = nanoid := by
  rw [AccountReadModel.findByNanoid, AccountReadModel.findVisible, Option.map_eq_some_iff] at h
  obtain ⟨row, hrow, rfl⟩ := h
  have hmatch := List.find?_some hrow
  rw [Bool.and_eq_true, decide_eq_true_eq] at hmatch
  exact hmatch.1

theorem step_inbox (accountNanoid : String) (activity : Activity) :
    Step server accountId remoteId db (.inbox outside accountNanoid activity)
      (step server db (.inbox outside accountNanoid activity)) := by
  cases hfound : AccountReadModel.findByNanoid db outside.now accountNanoid with
  | none =>
      simp only [step, hfound]
      exact (Unapproving.refl db).step server
  | some account =>
      simp only [step, hfound]
      have happroves := approves_handleInboxActivity server outside
        ⟨account.id, accountNanoid, activity⟩ db
      refine ⟨happroves.urls, fun row hrow happroved hrelates => ?_⟩
      rcases happroves.follows row hrow ⟨happroved, _, _, hrelates⟩ with hold | haccepted
      · exact .inl hold
      · obtain ⟨remote, hremote, haccepts, hrelates', pending, hpending, hid, hispending⟩ := haccepted
        obtain ⟨hlocal, hdestination⟩ := ends_of_relates hrelates' hrelates
        cases hlocal
        cases hdestination
        refine .inr ⟨remote, hremote, rfl, ⟨account, hfound, rfl, ?_⟩, pending, hpending, hid, hispending⟩
        rw [nanoid_of_findByNanoid hfound]
        exact haccepts

theorem step_ok (accountId : AccountId) (remoteId : RemoteAccountId) (db : Db) (action : Action) :
    Step server accountId remoteId db action (step server db action) := by
  cases action with
  | sendFollow outside accountNanoid target =>
      exact ((unapproving_sendFollow server outside accountNanoid target).run (.refl db)).step server
  | sendUndoFollow outside accountNanoid target =>
      exact ((Unapproving.refl db).drops
        (moves_sendUndoFollow server outside accountNanoid target db)).step server
  | blockAccount outside accountNanoid target =>
      exact ((unapproving_blockAccount server outside accountNanoid target).run (.refl db)).step server
  | unblockAccount outside accountNanoid target =>
      exact ((Unapproving.refl db).drops
        (moves_unblockAccount server outside accountNanoid target db)).step server
  | inbox outside accountNanoid activity => exact step_inbox server outside accountNanoid activity

theorem keepsUrls_run (db : Db) (actions : List Action) :
    KeepsUrls db (Runs.run (step server) db actions) :=
  Runs.run_invariant (fun s action h => h.trans (step_ok server 0 0 s action).urls)
    (KeepsUrls.refl db) actions

/-- A follow from a local to a remote account that is approved after a run from an empty table was
pending when an Accept of its target, about a follow of this account, was handled, and it is there ever
since. -/
theorem approved_follow_was_accepted (db : Db) (hempty : db.follows = .empty) (actions : List Action)
    (accountId : AccountId) (remoteId : RemoteAccountId) (row : FollowRow)
    (hrow : row ∈ (Runs.run (step server) db actions).follows.rows)
    (hrelates : row.relates (.Local accountId) (.Remote remoteId) = true)
    (happroved : row.approvedAt.isSome = true) :
    ∃ front accept back, actions = front ++ accept :: back ∧
      (∃ remote ∈ (Runs.run (step server) db actions).remoteAccounts.rows, remote.id = remoteId ∧
        AcceptsPending server accountId remoteId row.id remote.url (Runs.run (step server) db front)
          accept) ∧
      ∀ later, later <+: back →
        row ∈ (Runs.run (step server) db (front ++ accept :: later)).follows.rows := by
  obtain ⟨front, accept, back, rfl, ⟨remote, hremote, hid, haccepts⟩, hsince⟩ :=
    Runs.exists_cause (P := fun s => row ∈ s.follows.rows)
      (fun s action h => (step_ok server accountId remoteId s action).follows row h happroved hrelates)
      (by rw [hempty]; exact List.not_mem_nil) hrow
  refine ⟨front, accept, back, rfl, ?_, hsince⟩
  -- the account that accepted still has its URL at the end
  obtain ⟨kept, hkept, hkeptId, hurl⟩ := keepsUrls_run server (Runs.run (step server) db front)
    (accept :: back) remote hremote
  rw [← Runs.run_append] at hkept
  exact ⟨kept, hkept, hkeptId.trans hid, hurl ▸ haccepts⟩

/-! ### A follow and its Accept -/

open Exclusion (aliceUrl bobUrl localServer answering aliceDb)

def bobAccepts : Activity where
  context := none
  id := bobUrl ++ "#accept"
  type_ := "Accept"
  actor := bobUrl
  object := some (followActivity localServer.publicBaseUrl 11 aliceUrl bobUrl).toJson
  target := none
  to_ := none
  cc := none

def approvedRow : FollowRow where
  id := 11
  followerLocalId := some 7
  followerRemoteId := none
  followeeLocalId := none
  followeeRemoteId := some 10
  approvedAt := some 2
  chkFollowerExclusive := by decide
  chkFolloweeExclusive := by decide

/-- Alice follows Bob, and Bob accepts. -/
theorem approved_follow_was_accepted_bobAccepts :
    let actions : List Action :=
      [.sendFollow (answering 1 10) "alice-nanoid" bobUrl,
        .inbox (answering 2 20) "alice-nanoid" bobAccepts]
    ∃ front accept back, actions = front ++ accept :: back ∧
      (∃ remote ∈ (Runs.run (step localServer) aliceDb actions).remoteAccounts.rows, remote.id = 10 ∧
        AcceptsPending localServer 7 10 11 remote.url (Runs.run (step localServer) aliceDb front)
          accept) ∧
      ∀ later, later <+: back →
        approvedRow ∈ (Runs.run (step localServer) aliceDb (front ++ accept :: later)).follows.rows :=
  approved_follow_was_accepted localServer aliceDb rfl
    [.sendFollow (answering 1 10) "alice-nanoid" bobUrl,
      .inbox (answering 2 20) "alice-nanoid" bobAccepts] 7 10 approvedRow (by decide +kernel)
    (by decide) (by decide)

end Approval

end Emumet

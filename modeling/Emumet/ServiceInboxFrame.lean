import Emumet.ServiceRelations

/-! What an inbound activity can write. Every row a handler touches is tied to the local account the
activity is addressed to and to a remote account with the URL of its actor, whatever else the activity
or the answers of remote servers name. -/

namespace Emumet

namespace InboxFrame

open Relations Session

/-- A stored remote account with the URL of the activity's actor. -/
def IsActor (dto : InboxActivityDto) (db : Db) (remote : RemoteAccount) : Prop :=
  remote ∈ db.remoteAccounts.rows ∧ sameActivitypubId remote.url dto.activity.actor = true

/-- The follows an activity is about: those of the actor towards the local account, and for an Accept
the one of the local account. A Block also deletes the follow of the local account. -/
def AboutFollow (dto : InboxActivityDto) (after : Db) (remoteId : RemoteAccountId) (row : FollowRow) :
    Prop :=
  (dto.activity.type_ ∈ ["Follow", "Block", "Undo"] ∧
      row.relates (.Remote remoteId) (.Local dto.accountId) = true) ∨
    (dto.activity.type_ = "Accept" ∧
      row.relates (.Local dto.accountId) (.Remote remoteId) = true) ∨
    (dto.activity.type_ = "Block" ∧ row ∉ after.follows.rows ∧
      row.relates (.Local dto.accountId) (.Remote remoteId) = true)

/-- What an activity leaves of the tables of relations, remote accounts and outbox activities. -/
structure Frame (dto : InboxActivityDto) (before after : Db) : Prop where
  follows : ∀ row, Table.Touched before.follows after.follows row →
    ∃ remote, IsActor dto after remote ∧ AboutFollow dto after remote.id row
  blocks : ∀ row, Table.Touched before.blocks after.blocks row →
    ∃ remote, IsActor dto after remote ∧ dto.activity.type_ ∈ ["Block", "Undo"] ∧
      row.relates (.Remote remote.id) (.Local dto.accountId) = true
  remoteAccounts : ∃ id, ∀ row, Table.Touched before.remoteAccounts after.remoteAccounts row →
    row.id = id ∧ sameActivitypubId row.url dto.activity.actor = true
  outboxKept : ∀ row ∈ before.outboxActivities.rows, row ∈ after.outboxActivities.rows
  outboxInserted : ∀ row ∈ after.outboxActivities.rows, row ∉ before.outboxActivities.rows →
    row.accountId = dto.accountId ∧ row.activityType = "Accept"

variable {server : Server} {outside : Outside} {dto : InboxActivityDto} {db : Db}

theorem Frame.refl (dto : InboxActivityDto) (db : Db) : Frame dto db db where
  follows row h := absurd h (db.follows.not_touched_self row)
  blocks row h := absurd h (db.blocks.not_touched_self row)
  remoteAccounts := ⟨0, fun row h => absurd h (db.remoteAccounts.not_touched_self row)⟩
  outboxKept _ h := h
  outboxInserted _ h hnot := absurd h hnot

theorem start (dto : InboxActivityDto) (db s : Db) (h : s = db) : Frame dto db s := h ▸ Frame.refl dto db

/-- The checks of a handler write nothing. -/
theorem start_lift {α : Type} (x : Result α) :
    Triple (· = db) (lift x) (fun _ => (· = db)) (Frame dto db) :=
  .lift (fun _ _ _ hs => hs) (start dto db)

/-- Looking up the actor writes nothing. -/
theorem start_findByUrl (url : String) :
    Triple (· = db) (read fun db => (.ok (RemoteAccountRepository.findByUrl db url) : Result _))
      (fun found s => s = db ∧ RemoteAccountRepository.findByUrl db url = found) (Frame dto db) :=
  .read (fun _ _ hs hread => by subst hs; exact ⟨rfl, Except.ok.inj hread⟩) (start dto db)

/-! ### The actor's row -/

/-- The database after the row of the actor was written. -/
structure Upserted (dto : InboxActivityDto) (db : Db) (remote : RemoteAccount) (after : Db) : Prop where
  tables : after = { db with remoteAccounts := db.remoteAccounts.put remote }
  url : sameActivitypubId remote.url dto.activity.actor = true
  old : ∀ old ∈ db.remoteAccounts.get remote.id, old.url = remote.url

theorem Upserted.isActor {remote : RemoteAccount} {after : Db} (h : Upserted dto db remote after) :
    IsActor dto after remote := by
  refine ⟨?_, h.url⟩
  rw [h.tables]
  exact Table.mem_put.mpr (.inl rfl)

theorem Upserted.touched {remote row : RemoteAccount} {after : Db} (h : Upserted dto db remote after)
    (htouched : Table.Touched db.remoteAccounts after.remoteAccounts row) :
    row.id = remote.id ∧ sameActivitypubId row.url dto.activity.actor = true := by
  rw [h.tables] at htouched
  rcases Table.touched_put htouched with rfl | hold
  · exact ⟨rfl, h.url⟩
  · exact ⟨(Table.get_eq_some_iff.mp hold).2, by rw [h.old row hold]; exact h.url⟩

/-- What is written after the row of the actor. -/
theorem Upserted.frame {remote : RemoteAccount} {mid : Db} (h : Upserted dto db remote mid) (after : Db)
    (hremote : after.remoteAccounts = mid.remoteAccounts)
    (hfollows : ∀ row, Table.Touched db.follows after.follows row → AboutFollow dto after remote.id row)
    (hblocks : ∀ row, Table.Touched db.blocks after.blocks row →
      dto.activity.type_ ∈ ["Block", "Undo"] ∧
        row.relates (.Remote remote.id) (.Local dto.accountId) = true)
    (hkept : ∀ row ∈ db.outboxActivities.rows, row ∈ after.outboxActivities.rows)
    (hinserted : ∀ row ∈ after.outboxActivities.rows, row ∉ db.outboxActivities.rows →
      row.accountId = dto.accountId ∧ row.activityType = "Accept") : Frame dto db after where
  follows row htouched := ⟨remote, ⟨hremote ▸ h.isActor.1, h.url⟩, hfollows row htouched⟩
  blocks row htouched := ⟨remote, ⟨hremote ▸ h.isActor.1, h.url⟩, hblocks row htouched⟩
  remoteAccounts := ⟨remote.id, fun _ htouched => h.touched (hremote ▸ htouched)⟩
  outboxKept := hkept
  outboxInserted := hinserted

theorem Upserted.frame_self {remote : RemoteAccount} {after : Db} (h : Upserted dto db remote after) :
    Frame dto db after := by
  refine h.frame after rfl ?_ ?_ ?_ ?_ <;> rw [h.tables]
  · exact fun row htouched => absurd htouched (db.follows.not_touched_self row)
  · exact fun row htouched => absurd htouched (db.blocks.not_touched_self row)
  · exact fun _ hrow => hrow
  · exact fun _ hrow hnot => absurd hrow hnot

theorem upserted_upsertRemoteAccount {actor : ResolvedRemoteActor}
    (hactor : resolveRemoteActor server outside dto.activity.actor = .ok actor) :
    Triple (· = db) (atomically (upsertRemoteAccount outside actor)) (Upserted dto db) (Frame dto db) := by
  refine .atomically ?_ fun _ hs => hs ▸ Frame.refl dto db
  rintro _ remote after rfl hupsert
  obtain ⟨htables, _, hurl, hold⟩ := upsertRemoteAccount_ok hupsert
  refine ⟨htables, ?_, fun old h => (hold old h).trans hurl.symm⟩
  obtain ⟨_, _, _, hsame, _, rfl⟩ := resolveRemoteActor_ok hactor
  rw [hurl]
  exact hsame

/-! ### Follow -/

/-- The pending Accept of the call: stored under an id the table did not have. -/
structure PendingAccept (dto : InboxActivityDto) (db : Db) (id : OutboxActivityId) (after : Db) :
    Prop where
  frame : Frame dto db after
  fresh : db.outboxActivities.get id = none
  accept : ∀ row ∈ after.outboxActivities.get id,
    row.accountId = dto.accountId ∧ row.activityType = "Accept"

/-- Recording the outcome of its delivery. -/
theorem PendingAccept.put {id : OutboxActivityId} {after : Db} (h : PendingAccept dto db id after)
    {row new : OutboxActivity} (hrow : after.outboxActivities.get id = some row) (hid : new.id = row.id)
    (haccount : new.accountId = row.accountId) (htype : new.activityType = row.activityType) :
    PendingAccept dto db id { after with outboxActivities := after.outboxActivities.put new } := by
  obtain ⟨_, hkey⟩ := Table.get_eq_some_iff.mp hrow
  have hnew : new.accountId = dto.accountId ∧ new.activityType = "Accept" := by
    rw [haccount, htype]
    exact h.accept row hrow
  refine ⟨⟨h.frame.follows, h.frame.blocks, h.frame.remoteAccounts, fun other hother => ?_,
    fun other hother hnot => ?_⟩, h.fresh, fun other hother => ?_⟩
  · refine Table.mem_put.mpr (.inr ⟨h.frame.outboxKept other hother, fun hsame => ?_⟩)
    exact Table.get_eq_none_iff.mp h.fresh other hother (hsame.trans (hid.trans hkey))
  · rcases Table.mem_put.mp hother with rfl | ⟨hold, _⟩
    · exact hnew
    · exact h.frame.outboxInserted other hold hnot
  · rw [Option.mem_def, Table.get_put, if_pos (hid.trans hkey).symm, Option.some.injEq] at hother
    exact hother ▸ hnew

theorem pendingAccept_deliverOutboxActivity {id : OutboxActivityId} {inboxUrl : String}
    {activity : Activity} :
    Triple (PendingAccept dto db id) (deliverOutboxActivity outside id inboxUrl activity)
      (fun _ => PendingAccept dto db id) (PendingAccept dto db id) := by
  unfold deliverOutboxActivity
  split
  · refine .exec (fun s after hs hmark => ?_) fun _ hs => hs
    cases hmark
    unfold OutboxActivityRepository.markDelivered
    split
    · next row hrow => exact hs.put hrow rfl rfl rfl
    · exact hs
  · refine .bind (Q := fun _ => PendingAccept dto db id) (.exec (fun s after hs hmark => ?_) fun _ hs => hs)
      fun _ => .lift (fun _ _ _ hs => hs) fun _ hs => hs
    cases hmark
    unfold OutboxActivityRepository.markDeliveryAttempt
    split
    · next row hrow => exact hs.put hrow rfl rfl rfl
    · exact hs

theorem frame_deliverStored {outboxId : Option OutboxActivityId} {delivery : Option Delivery} :
    Triple (fun s => Frame dto db s ∧ ∀ id ∈ outboxId, PendingAccept dto db id s)
      (deliverStored outside outboxId delivery) (fun _ => Frame dto db) (Frame dto db) := by
  unfold deliverStored
  split
  · next id activity inboxUrl =>
      refine .bind (Q := fun _ => Frame dto db) (fun s hs => ?_) fun _ => .pure fun _ hs => hs
      exact (pendingAccept_deliverOutboxActivity.run (hs.2 id rfl)).frame
  · exact .pure fun _ hs => hs.1

theorem frame_followTransaction {remote : RemoteAccount} {follow : Follow} {accept : Delivery}
    {mid after : Db} {outboxId : Option OutboxActivityId} (h : Upserted dto db remote mid)
    (htype : dto.activity.type_ = "Follow")
    (hends : follow.source = .Remote remote.id ∧ follow.destination = .Local dto.accountId)
    (haccept : accept.1.type_ = "Accept")
    (hok : followTransaction outside dto.accountId follow accept mid = .ok (outboxId, after)) :
    Frame dto db after ∧ ∀ id ∈ outboxId, PendingAccept dto db id after := by
  simp only [followTransaction, Fallible.bind_eq_ok] at hok
  obtain ⟨⟨inserted, middle⟩, hinsert, hok⟩ := hok
  rcases Insertion.orAbsent_ok hinsert with ⟨rfl, hinserted⟩ | ⟨rfl, rfl⟩
  · obtain rfl := FollowRepository.insert_inserted hinserted
    rw [if_pos rfl] at hok
    rcases storeDelivery_ok hok with ⟨hnone, _⟩ | ⟨activity, inboxUrl, hdelivery, rfl, hfree, rfl⟩
    · cases hnone
    · cases hdelivery
      have hfresh := FollowRepository.insert_fresh hinserted
      obtain rfl := h.tables
      have hnew : ∀ row ∈ db.outboxActivities.rows, row.id ≠ outside.outboxId :=
        Table.get_eq_none_iff.mp hfree
      have hframe := h.frame
        { db with
          remoteAccounts := db.remoteAccounts.put remote
          follows := db.follows.put (.ofFollow follow)
          outboxActivities :=
            db.outboxActivities.put (pendingEntry outside dto.accountId activity) } rfl
        (fun row htouched => by
          rw [Table.touched_put_of_get_eq_none hfresh htouched]
          exact .inl ⟨by simp [htype], relates_ofFollow.mpr hends⟩)
        (fun row htouched => absurd htouched (db.blocks.not_touched_self row))
        (fun row hrow => Table.mem_put.mpr (.inr ⟨hrow, hnew row hrow⟩))
        (fun row hrow hnot => by
          rcases Table.mem_put.mp hrow with rfl | ⟨hold, _⟩
          · exact ⟨rfl, haccept⟩
          · exact absurd hold hnot)
      refine ⟨hframe, fun id hid => ⟨hframe, ?_, fun row hrow => ?_⟩⟩
      · cases hid
        exact hfree
      · cases hid
        have hentry := Option.some.inj ((Table.get_put_self db.outboxActivities
          (pendingEntry outside dto.accountId activity)).symm.trans hrow)
        exact hentry ▸ ⟨rfl, haccept⟩
  · cases hok
    exact ⟨h.frame_self, fun _ hnone => by cases hnone⟩

theorem frame_handleFollowActivity (htype : dto.activity.type_ = "Follow") :
    Triple (· = db) (handleFollowActivity server outside dto) (fun _ => Frame dto db)
      (Frame dto db) := by
  refine .bind (start_lift _) fun _ => .bind (start_lift _) fun _ => ?_
  refine .bind (Q := fun actor s => s = db ∧
      resolveRemoteActor server outside dto.activity.actor = .ok actor)
    (.lift (fun _ s hactor hs => ⟨hs, hactor⟩) (start dto db)) fun actor => .assume fun hactor => ?_
  refine .bind (upserted_upsertRemoteAccount hactor) fun remote => ?_
  refine .bind (Q := fun follow s => Upserted dto db remote s ∧
      (follow.source = .Remote remote.id ∧ follow.destination = .Local dto.accountId))
    (.lift (fun follow s hnew hs => ⟨hs, Follow.new_ok hnew⟩) fun _ hs => hs.frame_self)
    fun follow => .assume fun hends => ?_
  refine .bind (.atomically (fun s outboxId after hs hok => ?_) fun _ hs => hs.frame_self)
    fun _ => frame_deliverStored
  exact frame_followTransaction hs htype hends rfl hok

/-! ### Block -/

theorem frame_inboundBlockTransaction {remote : RemoteAccount} {block : Block} {mid after : Db}
    (h : Upserted dto db remote mid) (htype : dto.activity.type_ = "Block")
    (hends : block.source = .Remote remote.id ∧ block.destination = .Local dto.accountId)
    (hok : inboundBlockTransaction block mid = .ok after) : Frame dto db after := by
  simp only [inboundBlockTransaction, Fallible.bind_eq_ok] at hok
  obtain ⟨⟨inserted, middle⟩, hinsert, hok⟩ := hok
  rcases Insertion.orAbsent_ok hinsert with ⟨rfl, hinserted⟩ | ⟨rfl, rfl⟩
  · have hfresh := BlockRepository.insert_fresh hinserted
    obtain rfl := BlockRepository.insert_inserted hinserted
    rw [if_pos rfl, hends.1, hends.2] at hok
    obtain ⟨htables, hrows⟩ := removeFollowsBetween_ok hok
    obtain rfl := h.tables
    refine h.frame after (by rw [htables]) (fun row htouched => ?_) (fun row htouched => ?_)
      (fun row hrow => ?_) fun row hrow hnot => ?_
    · obtain ⟨_, hgone, hrelates⟩ := Table.touched_of_kept hrows htouched
      rw [not_and_or, Bool.not_eq_false, Bool.not_eq_false] at hrelates
      rcases hrelates with hinbound | houtbound
      · exact .inl ⟨by simp [htype], hinbound⟩
      · exact .inr (.inr ⟨htype, hgone, houtbound⟩)
    · rw [htables] at htouched
      rw [Table.touched_put_of_get_eq_none hfresh htouched]
      exact ⟨by simp [htype], relates_ofBlock.mpr hends⟩
    · rw [htables]
      exact hrow
    · rw [htables] at hrow
      exact absurd hrow hnot
  · cases hok
    exact h.frame_self

theorem frame_handleBlockActivity (htype : dto.activity.type_ = "Block") :
    Triple (· = db) (handleBlockActivity server outside dto) (fun _ => Frame dto db)
      (Frame dto db) := by
  refine .bind (start_lift _) fun _ => .bind (start_lift _) fun _ => ?_
  refine .bind (Q := fun actor s => s = db ∧
      resolveRemoteActor server outside dto.activity.actor = .ok actor)
    (.lift (fun _ s hactor hs => ⟨hs, hactor⟩) (start dto db)) fun actor => .assume fun hactor => ?_
  refine .bind (upserted_upsertRemoteAccount hactor) fun remote => ?_
  refine .bind (Q := fun block s => Upserted dto db remote s ∧
      (block.source = .Remote remote.id ∧ block.destination = .Local dto.accountId))
    (.lift (fun block s hnew hs => ⟨hs, Block.new_ok hnew⟩) fun _ hs => hs.frame_self)
    fun block => .assume fun hends => ?_
  exact .exec (fun s after hs hok => frame_inboundBlockTransaction hs htype hends hok)
    fun _ hs => hs.frame_self

/-! ### Accept and Undo -/

theorem isActor_of_findByUrl {url : String} {remote : RemoteAccount}
    (hurl : sameActivitypubId url dto.activity.actor = true)
    (h : RemoteAccountRepository.findByUrl db url = some remote) : IsActor dto db remote := by
  refine ⟨List.mem_of_find?_eq_some h, ?_⟩
  have hstored : remote.url = url := by simpa using List.find?_some h
  rw [hstored]
  exact hurl

/-- A change of the relations with an actor that is already stored. -/
theorem frame_of_relations {remote : RemoteAccount} (hremote : IsActor dto db remote)
    (follows : Table FollowRow.id) (blocks : Table BlockRow.id)
    (hfollows : ∀ row, Table.Touched db.follows follows row →
      AboutFollow dto { db with follows, blocks } remote.id row)
    (hblocks : ∀ row, Table.Touched db.blocks blocks row → dto.activity.type_ ∈ ["Block", "Undo"] ∧
      row.relates (.Remote remote.id) (.Local dto.accountId) = true) :
    Frame dto db { db with follows, blocks } where
  follows row htouched := ⟨remote, hremote, hfollows row htouched⟩
  blocks row htouched := ⟨remote, hremote, hblocks row htouched⟩
  remoteAccounts := ⟨0, fun row h => absurd h (db.remoteAccounts.not_touched_self row)⟩
  outboxKept _ h := h
  outboxInserted _ h hnot := absurd h hnot

/-- An Undo deletes what relates the stored account of its actor to the local account. -/
theorem frame_undoRelation {type_ notActivity notActor : String}
    {deleteIfExists : Db → TargetId → TargetId → Bool × Db}
    (hdelete : ∀ remote, IsActor dto db remote →
      Frame dto db (deleteIfExists db (.Remote remote.id) (.Local dto.accountId)).2) :
    Triple (· = db) (undoRelation type_ notActivity notActor deleteIfExists server dto)
      (fun _ => Frame dto db) (Frame dto db) := by
  refine .bind (start_lift _) fun _ => .bind (start_lift _) fun _ => .bind (start_lift _) fun _ =>
    .bind (start_findByUrl _) fun found => .assume fun hfound => ?_
  cases found with
  | none => exact .pure (start dto db)
  | some remote =>
      refine .exec (fun s after hs hok => ?_) (start dto db)
      subst hs
      cases hok
      exact hdelete remote (isActor_of_findByUrl (by simp [sameActivitypubId]) hfound)

theorem frame_handleUndoFollow (htype : dto.activity.type_ = "Undo") :
    Triple (· = db) (handleUndoFollow server dto) (fun _ => Frame dto db) (Frame dto db) := by
  refine frame_undoRelation fun remote hremote => frame_of_relations hremote _ _ (fun row htouched => ?_)
    fun row htouched => absurd htouched (db.blocks.not_touched_self row)
  obtain ⟨_, _, hrelates⟩ := Table.touched_of_kept (fun _ => Table.mem_deleteWhere) htouched
  exact .inl ⟨by simp [htype], by simpa using hrelates⟩

theorem frame_handleUndoBlockActivity (htype : dto.activity.type_ = "Undo") :
    Triple (· = db) (handleUndoBlockActivity server dto) (fun _ => Frame dto db) (Frame dto db) := by
  refine frame_undoRelation fun remote hremote => frame_of_relations hremote _ _
    (fun row htouched => absurd htouched (db.follows.not_touched_self row)) fun row htouched => ?_
  obtain ⟨_, _, hrelates⟩ := Table.touched_of_kept (fun _ => Table.mem_deleteWhere) htouched
  exact ⟨by simp [htype], by simpa using hrelates⟩

theorem frame_handleAcceptActivity (htype : dto.activity.type_ = "Accept") :
    Triple (· = db) (handleAcceptActivity server outside dto) (fun _ => Frame dto db)
      (Frame dto db) := by
  refine .bind (Q := fun accepted s => s = db ∧ acceptedActorUrl server dto = .ok accepted)
    (.lift (fun _ _ haccepted hs => ⟨hs, haccepted⟩) (start dto db)) fun accepted => .assume fun haccepted => ?_
  cases accepted with
  | none => exact .pure (start dto db)
  | some remoteActorUrl =>
      obtain ⟨_, _, _, _, hactor⟩ := acceptedActorUrl_ok haccepted
      have hurl : sameActivitypubId remoteActorUrl dto.activity.actor = true := by
        simpa [sameActivitypubId, eq_comm] using hactor
      refine .bind (Q := fun remote s => s = db ∧
          RemoteAccountRepository.findByUrl db remoteActorUrl = some remote)
        (.read (fun remote s hs hread => ⟨hs, ?_⟩) (start dto db)) fun remote => .assume fun hfound => ?_
      · subst hs
        split at hread
        · next hsome =>
            cases hread
            exact hsome
        · cases hread
      · refine .exec (fun s after hs hok => ?_) (start dto db)
        subst hs
        cases hok
        refine frame_of_relations (isActor_of_findByUrl hurl hfound) _ _ (fun row htouched => ?_)
          fun row htouched => absurd htouched (s.blocks.not_touched_self row)
        -- an approval changes no end of the row it approves
        obtain ⟨old, _, hchanged, hrow⟩ := Table.touched_modify htouched
        refine .inr (.inl ⟨htype, ?_⟩)
        unfold FollowRepository.approve at hchanged hrow
        split_ifs at hchanged hrow with hpending
        · rw [Bool.and_eq_true] at hpending
          rcases hrow with rfl | rfl <;> exact hpending.1
        · exact absurd rfl hchanged

/-! ### Every activity -/

theorem frame_handleInboxActivity :
    Triple (· = db) (handleInboxActivity server outside dto) (fun _ => Frame dto db) (Frame dto db) := by
  unfold handleInboxActivity
  split_ifs with hfollow haccept hblock hundoFollow hundoBlock
  · exact frame_handleFollowActivity hfollow
  · exact frame_handleAcceptActivity haccept
  · exact frame_handleBlockActivity hblock
  · exact frame_handleUndoFollow hundoFollow.1
  · exact frame_handleUndoBlockActivity hundoBlock.1
  · exact .pure (start dto db)

/-- Whatever an inbound activity contains and whatever remote servers answer, its handler touches only
rows between the local account it is addressed to and its actor. -/
theorem inbox_activity_frame (server : Server) (outside : Outside) (dto : InboxActivityDto) (db : Db) :
    Frame dto db (handleInboxActivity server outside dto db).2 :=
  frame_handleInboxActivity.run rfl

end InboxFrame

end Emumet

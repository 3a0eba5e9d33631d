import Emumet.ServiceExclusion

/-! Following and unfollowing when statements fail. Every statement of the two use cases runs on its own,
and any of them can fail without an effect; a follow that was inserted is deleted again only when its
delivery fails. -/

namespace Emumet

namespace FollowFaults

open Relations Session

/-- The database statements of the two use cases. -/
inductive Statement where
  | findAccount
  | findLocalTarget
  | findRemoteAccount
  | writeRemoteAccount
  | findFollowings
  | createFollow
  | deleteFollow
  | storeOutbox
  deriving DecidableEq, Repr

variable {α : Type}

/-- A statement that fails has no effect. -/
def guarded (fails : Bool) (op : Session Db Report α) : Session Db Report α :=
  if fails then lift (reject .Internal "statement failed") else op

def upsertRemote (fails : Statement → Bool) (outside : Outside) (actor : ResolvedRemoteActor) :
    Session Db Report RemoteAccount :=
  guarded (fails .findRemoteAccount) <| guarded (fails .writeRemoteAccount) <|
    atomically (upsertRemoteAccount outside actor)

/-! ### Following -/

/-- `send_follow` up to the insert of the follow. -/
def beginFollow (fails : Statement → Bool) (server : Server) (outside : Outside)
    (accountNanoid target : String) : Session Db Report (Account × RemoteAccount × Follow) := do
  let account ← guarded (fails .findAccount) <|
    Session.read fun db => findAccount db outside.now accountNanoid
  Session.lift (checkPermission outside.permission)
  let actor ← Session.lift (resolveRemoteActorIdentifier server outside target)
  let remoteAccount ← upsertRemote fails outside actor
  let source := TargetId.Local account.id
  let destination := TargetId.Remote remoteAccount.id
  let existing ← guarded (fails .findFollowings) <|
    Session.read fun db => findExistingFollowing db source destination
  let follow ← Session.lift <|
    if existing.isSome then reject .Rejected ("Already following " ++ remoteAccount.url)
    else Follow.new outside.relationId source destination none
  guarded (fails .createFollow) <| Session.exec fun db => FollowRepository.create db follow
  pure (account, remoteAccount, follow)

/-- The rest of `send_follow`. -/
def finishFollow (fails : Statement → Bool) (server : Server) (outside : Outside) :
    Account × RemoteAccount × Follow → Session Db Report SendFollowResultDto
  | (account, remoteAccount, follow) =>
      let activity := outboundFollow server account remoteAccount follow
      match deliverTo outside remoteAccount activity with
      | .error _ => do
          guarded (fails .deleteFollow) <| Session.exec fun db => FollowRepository.delete db follow.id
          Session.lift (reject .Rejected "Follow delivery failed, rolled back follow record")
      | .ok _ => do
          guarded (fails .storeOutbox) <| storeDelivered outside account.id activity
          pure { followId := toString follow.id, remoteActorUrl := remoteAccount.url
                 activityId := activity.id, approved := false }

def sendFollowWith (fails : Statement → Bool) (server : Server) (outside : Outside)
    (accountNanoid target : String) : Session Db Report SendFollowResultDto :=
  beginFollow fails server outside accountNanoid target >>= finishFollow fails server outside

/-- Without faults this is `send_follow`. -/
theorem sendFollowWith_none (server : Server) (outside : Outside) (accountNanoid target : String) :
    sendFollowWith (fun _ => false) server outside accountNanoid target =
      sendFollow server outside accountNanoid target := by
  simp only [sendFollowWith, beginFollow, Session.bind_assoc]
  rfl

/-! ### Unfollowing -/

def resolveTarget (fails : Statement → Bool) (server : Server) (outside : Outside) (target : String) :
    Session Db Report BlockTarget := do
  match ← guarded (fails .findLocalTarget) <|
      Session.read fun db => .ok (findLocalTarget server outside target db) with
  | some account => pure (.Local account)
  | none => do
      let actor ← Session.lift (resolveRemoteActorIdentifier server outside target)
      let remoteAccount ← upsertRemote fails outside actor
      pure (.Remote remoteAccount)

def beginUndoFollowWith (fails : Statement → Bool) (server : Server) (outside : Outside)
    (accountNanoid target : String) : Session Db Report (Account × BlockTarget × Follow) := do
  let account ← guarded (fails .findAccount) <|
    Session.read fun db => findAccount db outside.now accountNanoid
  Session.lift (checkPermission outside.permission)
  let resolved ← resolveTarget fails server outside target
  let follow ← guarded (fails .findFollowings) <|
    Session.read fun db => findApprovedFollow db (.Local account.id) resolved.id
  pure (account, resolved, follow)

/-- The rest of `send_undo_follow`. -/
def finishUndoFollow (fails : Statement → Bool) (server : Server) (outside : Outside) :
    Account × BlockTarget × Follow → Session Db Report Unit
  | (_, .Local _, follow) =>
      guarded (fails .deleteFollow) <| Session.exec fun db => FollowRepository.delete db follow.id
  | (account, .Remote remoteAccount, follow) => do
      let activity := outboundUndo server outside account remoteAccount follow
      Session.lift (deliverTo outside remoteAccount activity)
      guarded (fails .deleteFollow) <| Session.exec fun db => FollowRepository.delete db follow.id
      guarded (fails .storeOutbox) <| storeDelivered outside account.id activity

def sendUndoFollowWith (fails : Statement → Bool) (server : Server) (outside : Outside)
    (accountNanoid target : String) : Session Db Report Unit :=
  beginUndoFollowWith fails server outside accountNanoid target >>= finishUndoFollow fails server outside

/-- Without faults this is `send_undo_follow`. -/
theorem sendUndoFollowWith_none (server : Server) (outside : Outside)
    (accountNanoid target : String) :
    sendUndoFollowWith (fun _ => false) server outside accountNanoid target =
      sendUndoFollow server outside accountNanoid target := by
  have hbegin : beginUndoFollowWith (fun _ => false) server outside accountNanoid target =
      beginUndoFollow server outside accountNanoid target := rfl
  rw [sendUndoFollowWith, hbegin, sendUndoFollow]
  congr 1
  funext begun
  obtain ⟨account, resolved, follow⟩ := begun
  cases resolved <;> rfl

/-! ### What the two prefixes leave -/

/-- The follows and the outbox are the same. -/
def Same (before after : Db) : Prop :=
  after.follows = before.follows ∧ after.outboxActivities = before.outboxActivities

theorem triple_guarded {P E : Db → Prop} {Q : α → Db → Prop} {op : Session Db Report α}
    (fails : Bool) (h : Triple P op Q E) (herror : ∀ s, P s → E s) :
    Triple P (guarded fails op) Q E := by
  unfold guarded
  split
  · exact .lift (fun _ _ hok _ => by cases hok) herror
  · exact h

theorem same_upsert {outside : Outside} {actor : ResolvedRemoteActor} {db before after : Db}
    {remoteAccount : RemoteAccount} (hsame : Same db before)
    (h : upsertRemoteAccount outside actor before = .ok (remoteAccount, after)) :
    Same db after ∧ remoteAccount ∈ after.remoteAccounts.rows := by
  obtain ⟨rfl, _⟩ := upsertRemoteAccount_ok h
  exact ⟨hsame, Table.mem_put.mpr (.inl rfl)⟩

theorem triple_upsertRemote (fails : Statement → Bool) (outside : Outside)
    (actor : ResolvedRemoteActor) (db : Db) :
    Triple (Same db) (upsertRemote fails outside actor)
      (fun remoteAccount s => Same db s ∧ remoteAccount ∈ s.remoteAccounts.rows) (Same db) := by
  refine triple_guarded _ (triple_guarded _ (.atomically ?_ fun _ h => h) fun _ h => h) fun _ h => h
  intro s remoteAccount s' hsame hupsert
  exact same_upsert hsame hupsert

/-- A follow of the account was inserted and nothing else in the two tables changed. -/
structure FollowBegun (outside : Outside) (accountNanoid : String) (db : Db) (account : Account)
    (remoteAccount : RemoteAccount) (follow : Follow) (s : Db) : Prop where
  found : findAccount db outside.now accountNanoid = .ok account
  source : follow.source = .Local account.id
  destination : follow.destination = .Remote remoteAccount.id
  pending : follow.approvedAt = none
  fresh : db.follows.get follow.id = none
  follows : s.follows = db.follows.put (.ofFollow follow)
  outbox : s.outboxActivities = db.outboxActivities
  known : remoteAccount ∈ s.remoteAccounts.rows

theorem triple_beginFollow (fails : Statement → Bool) (server : Server) (outside : Outside)
    (accountNanoid target : String) (db : Db) :
    Triple (· = db) (beginFollow fails server outside accountNanoid target)
      (fun r => FollowBegun outside accountNanoid db r.1 r.2.1 r.2.2) (Same db) := by
  have hstart : ∀ s, s = db → Same db s := by
    rintro s rfl
    exact ⟨rfl, rfl⟩
  unfold beginFollow
  refine .bind (Q := fun account s =>
    Same db s ∧ findAccount db outside.now accountNanoid = .ok account) ?_ fun account => ?_
  · refine triple_guarded _ (.read ?_ hstart) hstart
    rintro account s rfl hfound
    exact ⟨⟨rfl, rfl⟩, hfound⟩
  refine .assume fun haccount => ?_
  refine .bind (Q := fun _ => Same db) (.lift (fun _ _ _ h => h) fun _ h => h) fun _ => ?_
  refine .bind (Q := fun _ => Same db) (.lift (fun _ _ _ h => h) fun _ h => h) fun actor => ?_
  refine .bind (triple_upsertRemote fails outside actor db) fun remoteAccount => ?_
  refine .bind (Q := fun _ s => Same db s ∧ remoteAccount ∈ s.remoteAccounts.rows)
    (triple_guarded _ (.read (fun _ _ h _ => h) fun _ h => h.1) fun _ h => h.1) fun existing => ?_
  refine .bind (Q := fun follow s => (Same db s ∧ remoteAccount ∈ s.remoteAccounts.rows) ∧
    Follow.new outside.relationId (.Local account.id) (.Remote remoteAccount.id) none = .ok follow)
    (.lift ?_ fun _ h => h.1) fun follow => ?_
  · intro follow s hfollow hsame
    split at hfollow
    · cases hfollow
    · exact ⟨hsame, hfollow⟩
  refine .assume fun hfollow => ?_
  refine .bind (Q := fun _ => FollowBegun outside accountNanoid db account remoteAccount follow)
    (triple_guarded _ (.exec ?_ fun _ h => h.1) fun _ h => h.1) fun _ => .pure fun _ h => h
  intro s s' ⟨⟨hfollows, houtbox⟩, hremote⟩ hcreate
  have hinsert := Insertion.orReject_ok hcreate
  have hfresh := FollowRepository.insert_fresh hinsert
  obtain rfl := FollowRepository.insert_inserted hinsert
  obtain ⟨hsource, hdestination⟩ := Follow.new_ok hfollow
  refine ⟨haccount, hsource, hdestination, Follow.new_approvedAt hfollow, ?_, ?_, houtbox, hremote⟩
  · rw [← hfollows]
    exact hfresh
  · rw [← hfollows]

theorem findApprovedFollow_ok {db : Db} {source destination : FollowTargetId} {follow : Follow}
    (h : findApprovedFollow db source destination = .ok follow) :
    ∃ row ∈ db.follows.rows, row.id = follow.id ∧ row.relates source destination = true ∧
      row.approvedAt.isSome = true := by
  simp only [findApprovedFollow, findExistingFollowing, Fallible.bind_eq_ok] at h
  obtain ⟨_, ⟨followings, hfollowings, hfind⟩, h⟩ := h
  cases hfind
  split at h
  · next found hfound =>
      cases h
      obtain ⟨hfound, happroved⟩ := Option.filter_eq_some_iff.mp hfound
      have hends := List.find?_some hfound
      rw [decide_eq_true_eq] at hends
      obtain ⟨hsource, hdestination⟩ := hends
      obtain ⟨row, hselected, hread⟩ :=
        Fallible.exists_of_mem_results hfollowings (List.mem_of_find?_eq_some hfound)
      obtain ⟨hid, hrelates⟩ := relates_of_toFollow hread
      rw [hsource, hdestination] at hrelates
      refine ⟨row, (List.mem_filter.mp hselected).1, hid.symm, hrelates, ?_⟩
      rw [← approvedAt_of_toFollow hread]
      exact happroved
  · cases h

/-- The target is the local account that was found, or a stored remote one when none was. -/
def Resolved (server : Server) (outside : Outside) (target : String) (db : Db) (s : Db) :
    BlockTarget → Prop
  | .Local account => findLocalTarget server outside target db = some account
  | .Remote remoteAccount => findLocalTarget server outside target db = none ∧
      remoteAccount ∈ s.remoteAccounts.rows

/-- An approved follow of the account was found and the two tables are as before. -/
structure UndoBegun (server : Server) (outside : Outside) (accountNanoid target : String) (db : Db)
    (account : Account) (resolved : BlockTarget) (follow : Follow) (s : Db) : Prop where
  same : Same db s
  found : findAccount db outside.now accountNanoid = .ok account
  destination : Resolved server outside target db s resolved
  approved : ∃ row ∈ db.follows.rows, row.id = follow.id ∧
    row.relates (.Local account.id) resolved.id = true ∧ row.approvedAt.isSome = true

theorem triple_resolveTarget (fails : Statement → Bool) (server : Server) (outside : Outside)
    (target : String) (db : Db) :
    Triple (· = db) (resolveTarget fails server outside target)
      (fun resolved s => Same db s ∧ Resolved server outside target db s resolved) (Same db) := by
  have hstart : ∀ s, s = db → Same db s := by
    rintro s rfl
    exact ⟨rfl, rfl⟩
  unfold resolveTarget
  refine .bind (Q := fun found s => Same db s ∧ findLocalTarget server outside target db = found)
    (triple_guarded _ (.read ?_ hstart) hstart) fun found => .assume fun hfound => ?_
  · rintro found s rfl hread
    cases hread
    exact ⟨⟨rfl, rfl⟩, rfl⟩
  cases found with
  | some account => exact .pure fun _ hsame => ⟨hsame, hfound⟩
  | none =>
      refine .bind (Q := fun _ => Same db) (.lift (fun _ _ _ h => h) fun _ h => h) fun actor => ?_
      refine .bind (triple_upsertRemote fails outside actor db) fun remoteAccount => ?_
      exact .pure fun _ hsame => ⟨hsame.1, hfound, hsame.2⟩

theorem triple_beginUndoFollowWith (fails : Statement → Bool) (server : Server) (outside : Outside)
    (accountNanoid target : String) (db : Db) :
    Triple (· = db) (beginUndoFollowWith fails server outside accountNanoid target)
      (fun r => UndoBegun server outside accountNanoid target db r.1 r.2.1 r.2.2) (Same db) := by
  have hstart : ∀ s, s = db → Same db s := by
    rintro s rfl
    exact ⟨rfl, rfl⟩
  unfold beginUndoFollowWith
  refine .bind (Q := fun account s => s = db ∧ findAccount db outside.now accountNanoid = .ok account)
    (triple_guarded _ (.read ?_ hstart) hstart) fun account => .assume fun haccount => ?_
  · rintro account s rfl hfound
    exact ⟨rfl, hfound⟩
  refine .bind (Q := fun _ s => s = db) (.lift (fun _ _ _ h => h) hstart) fun _ => ?_
  refine .bind (triple_resolveTarget fails server outside target db) fun resolved => ?_
  refine .bind (Q := fun follow => UndoBegun server outside accountNanoid target db account resolved
    follow) (triple_guarded _ (.read ?_ fun _ h => h.1) fun _ h => h.1) fun _ => .pure fun _ h => h
  intro follow s hresolved hfollow
  refine ⟨hresolved.1, haccount, hresolved.2, ?_⟩
  rw [← hresolved.1.1]
  exact findApprovedFollow_ok hfollow

/-! ### The outbox row -/

/-- The outbox row of a delivered activity. -/
def deliveredRow (outside : Outside) (accountId : AccountId) (activity : Activity) : OutboxActivity :=
  { outboxEntry outside accountId activity (some outside.now) with id := outside.outboxId }

/-- The insert of the outbox row succeeds. -/
def stores (fails : Statement → Bool) (outside : Outside) (db : Db) (accountId : AccountId)
    (activity : Activity) : Bool :=
  !fails .storeOutbox && (OutboxActivityRepository.create db outside.outboxId
    (outboxEntry outside accountId activity (some outside.now))).isOk

/-- One outbox row more. -/
def AddsOutbox (before after : Db) (row : OutboxActivity) : Prop :=
  before.outboxActivities.get row.id = none ∧
    after.outboxActivities = before.outboxActivities.put row

theorem storeDelivered_of_stores {fails : Statement → Bool} {outside : Outside} {db : Db}
    {accountId : AccountId} {activity : Activity}
    (h : stores fails outside db accountId activity = true) {s : Db}
    (hs : s.outboxActivities = db.outboxActivities) :
    ∃ s', guarded (fails .storeOutbox) (storeDelivered outside accountId activity) s = (.ok (), s') ∧
      s'.follows = s.follows ∧ s'.remoteAccounts = s.remoteAccounts ∧
      AddsOutbox db s' (deliveredRow outside accountId activity) := by
  rw [stores, Bool.and_eq_true, Bool.not_eq_true', OutboxActivityRepository.create] at h
  obtain ⟨hfails, hok⟩ := h
  split_ifs at hok with hclash
  · cases hok
  refine ⟨{ s with outboxActivities := s.outboxActivities.put (deliveredRow outside accountId activity) },
    ?_, rfl, rfl, ?_, ?_⟩
  · rw [hfails, guarded, if_neg Bool.false_ne_true, storeDelivered, exec_eq_ok,
      OutboxActivityRepository.create, hs, if_neg hclash]
    rfl
  · rw [Bool.or_eq_true, not_or, Table.contains, Bool.not_eq_true, Option.isSome_eq_false_iff] at hclash
    exact Option.isNone_iff_eq_none.mp hclash.1
  · rw [← hs]

theorem storeDelivered_of_not_stores {fails : Statement → Bool} {outside : Outside} {db : Db}
    {accountId : AccountId} {activity : Activity}
    (h : stores fails outside db accountId activity = false) {s : Db}
    (hs : s.outboxActivities = db.outboxActivities) :
    ∃ report, guarded (fails .storeOutbox) (storeDelivered outside accountId activity) s =
      (.error report, s) := by
  unfold guarded
  split
  · exact ⟨_, rfl⟩
  next hfails =>
    rw [stores, Bool.not_eq_true _ |>.mp hfails, Bool.not_false, Bool.true_and,
      OutboxActivityRepository.create] at h
    split_ifs at h with hclash
    · refine ⟨⟨.Internal, "Failed to store outbox activity"⟩, ?_⟩
      unfold storeDelivered
      rw [exec, atomically, OutboxActivityRepository.create, hs, if_pos hclash]
      rfl
    · cases h

/-! ### All or nothing -/

/-- An error leaves the two tables as they were, and a success leaves what was asked for. -/
def AllOrNothing (db : Db) (Done : Db → Prop) : Except Report α × Db → Prop
  | (.error _, after) => Same db after
  | (.ok _, after) => Done after

/-- One pending follow of the account more, and the outbox row of its delivered Follow. -/
def FollowDone (server : Server) (outside : Outside) (accountNanoid : String) (db after : Db) : Prop :=
  ∃ account remoteAccount follow, findAccount db outside.now accountNanoid = .ok account ∧
    remoteAccount ∈ after.remoteAccounts.rows ∧ follow.source = .Local account.id ∧
    follow.destination = .Remote remoteAccount.id ∧ follow.approvedAt = none ∧
    db.follows.get follow.id = none ∧ after.follows = db.follows.put (.ofFollow follow) ∧
    AddsOutbox db after
      (deliveredRow outside account.id (outboundFollow server account remoteAccount follow))

/-- Nothing is left half done by `send_follow` once its follow is inserted. -/
def FollowSettles (fails : Statement → Bool) (server : Server) (outside : Outside) (db : Db)
    (account : Account) (remoteAccount : RemoteAccount) (follow : Follow) : Prop :=
  match deliverTo outside remoteAccount (outboundFollow server account remoteAccount follow) with
  | .error _ => fails .deleteFollow = false
  | .ok _ => stores fails outside db account.id (outboundFollow server account remoteAccount follow) =
      true

theorem put_ne_of_get_eq_none {follows : Table FollowRow.id} {row : FollowRow}
    (h : follows.get row.id = none) : follows.put row ≠ follows := by
  intro hput
  have hget := follows.get_put_self row
  rw [hput, h] at hget
  cases hget

/-- The delete of a row that is there. -/
theorem guarded_delete_of_mem {fails : Bool} {s : Db} {row : FollowRow} (hfails : fails = false)
    (h : row ∈ s.follows.rows) :
    guarded fails (Session.exec fun db => FollowRepository.delete db row.id) s =
      (.ok (), { s with follows := s.follows.erase row.id }) := by
  rw [hfails, guarded, if_neg Bool.false_ne_true, exec_eq_ok, FollowRepository.delete, Table.contains,
    Table.get_eq_some_iff.mpr ⟨h, rfl⟩]
  rfl

theorem allOrNothing_finishFollow {fails : Statement → Bool} {server : Server} {outside : Outside}
    {accountNanoid : String} {db s : Db} {account : Account} {remoteAccount : RemoteAccount}
    {follow : Follow} (hbegun : FollowBegun outside accountNanoid db account remoteAccount follow s) :
    AllOrNothing db (FollowDone server outside accountNanoid db)
      (finishFollow fails server outside (account, remoteAccount, follow) s) ↔
      FollowSettles fails server outside db account remoteAccount follow := by
  have hinserted : FollowRow.ofFollow follow ∈ s.follows.rows := by
    rw [hbegun.follows]
    exact Table.mem_put.mpr (.inl rfl)
  have hmore : s.follows ≠ db.follows := by
    rw [hbegun.follows]
    exact put_ne_of_get_eq_none hbegun.fresh
  simp only [finishFollow, FollowSettles]
  cases hdeliver : deliverTo outside remoteAccount (outboundFollow server account remoteAccount follow) with
  | error report =>
      -- only the compensating delete can fail now
      cases hfails : fails .deleteFollow with
      | true => exact iff_of_false (fun hsame => hmore hsame.1) Bool.noConfusion
      | false =>
          refine iff_of_true ?_ rfl
          change AllOrNothing db _ ((guarded false (Session.exec fun db => FollowRepository.delete db
            (FollowRow.ofFollow follow).id) >>= fun _ => Session.lift _ :
              Session Db Report SendFollowResultDto) s)
          rw [bind_of_ok (guarded_delete_of_mem rfl hinserted)]
          refine ⟨?_, hbegun.outbox⟩
          change s.follows.erase _ = _
          rw [hbegun.follows]
          exact Table.erase_put_of_get_eq_none hbegun.fresh
  | ok _ =>
      change AllOrNothing db _ ((guarded (fails .storeOutbox) (storeDelivered outside account.id
        (outboundFollow server account remoteAccount follow)) >>= fun _ => pure _ :
          Session Db Report SendFollowResultDto) s) ↔ _
      cases hstores : stores fails outside db account.id
          (outboundFollow server account remoteAccount follow) with
      | true =>
          obtain ⟨after, hrun, hfollows, hremotes, hadds⟩ := storeDelivered_of_stores hstores hbegun.outbox
          rw [bind_of_ok hrun]
          refine iff_of_true ?_ rfl
          refine ⟨account, remoteAccount, follow, hbegun.found, ?_, hbegun.source, hbegun.destination,
            hbegun.pending, hbegun.fresh, hfollows.trans hbegun.follows, hadds⟩
          rw [hremotes]
          exact hbegun.known
      | false =>
          obtain ⟨report, hrun⟩ := storeDelivered_of_not_stores hstores hbegun.outbox
          rw [bind_of_error hrun]
          exact iff_of_false (fun hsame => hmore hsame.1) Bool.noConfusion

/-- The approved follow of the account is gone; for a remote target its delivered Undo is one outbox row
more. -/
def UndoDone (server : Server) (outside : Outside) (accountNanoid target : String) (db after : Db) :
    Prop :=
  ∃ account row, findAccount db outside.now accountNanoid = .ok account ∧ row ∈ db.follows.rows ∧
    row.approvedAt.isSome = true ∧ after.follows = db.follows.erase row.id ∧
    match findLocalTarget server outside target db with
    | some destination => row.relates (.Local account.id) (.Local destination.id) = true ∧
        after.outboxActivities = db.outboxActivities
    | none => ∃ remoteAccount follow, remoteAccount ∈ after.remoteAccounts.rows ∧
        row.relates (.Local account.id) (.Remote remoteAccount.id) = true ∧ follow.id = row.id ∧
        AddsOutbox db after
          (deliveredRow outside account.id (outboundUndo server outside account remoteAccount follow))

/-- Nothing is left half done by `send_undo_follow` once the remote target's follow is found. -/
def UndoSettles (fails : Statement → Bool) (server : Server) (outside : Outside) (db : Db)
    (account : Account) (remoteAccount : RemoteAccount) (follow : Follow) : Prop :=
  deliverTo outside remoteAccount (outboundUndo server outside account remoteAccount follow) = .ok () →
    fails .deleteFollow = false →
    stores fails outside db account.id (outboundUndo server outside account remoteAccount follow) = true

theorem erase_ne_of_mem {follows : Table FollowRow.id} {row : FollowRow} (h : row ∈ follows.rows) :
    follows.erase row.id ≠ follows := by
  intro herase
  rw [← herase] at h
  exact (Table.mem_erase.mp h).2 rfl

theorem allOrNothing_finishUndo_local {fails : Statement → Bool} {server : Server} {outside : Outside}
    {accountNanoid target : String} {db s : Db} {account destination : Account} {follow : Follow}
    (hbegun : UndoBegun server outside accountNanoid target db account (.Local destination) follow s) :
    AllOrNothing db (UndoDone server outside accountNanoid target db)
      (finishUndoFollow fails server outside (account, .Local destination, follow) s) := by
  obtain ⟨row, hrow, hid, hrelates, happroved⟩ := hbegun.approved
  have hstored : row ∈ s.follows.rows := by
    rw [hbegun.same.1]
    exact hrow
  rw [finishUndoFollow, ← hid]
  cases hfails : fails .deleteFollow with
  | true => exact hbegun.same
  | false =>
      rw [guarded_delete_of_mem rfl hstored]
      refine ⟨account, row, hbegun.found, hrow, happroved, ?_, ?_⟩
      · rw [← hbegun.same.1]
      · rw [hbegun.destination]
        exact ⟨hrelates, hbegun.same.2⟩

theorem allOrNothing_finishUndo_remote {fails : Statement → Bool} {server : Server}
    {outside : Outside} {accountNanoid target : String} {db s : Db} {account : Account}
    {remoteAccount : RemoteAccount} {follow : Follow}
    (hbegun : UndoBegun server outside accountNanoid target db account (.Remote remoteAccount) follow s) :
    AllOrNothing db (UndoDone server outside accountNanoid target db)
      (finishUndoFollow fails server outside (account, .Remote remoteAccount, follow) s) ↔
      UndoSettles fails server outside db account remoteAccount follow := by
  obtain ⟨row, hrow, hid, hrelates, happroved⟩ := hbegun.approved
  have hstored : row ∈ s.follows.rows := by
    rw [hbegun.same.1]
    exact hrow
  have hless : s.follows.erase row.id ≠ db.follows := by
    rw [hbegun.same.1]
    exact erase_ne_of_mem hrow
  simp only [finishUndoFollow, UndoSettles, ← hid]
  cases hdeliver : deliverTo outside remoteAccount
      (outboundUndo server outside account remoteAccount follow) with
  | error report => exact iff_of_true hbegun.same fun h => nomatch h
  | ok _ =>
      rw [bind_of_ok (lift_eq_ok.mpr ⟨rfl, rfl⟩)]
      cases hfails : fails .deleteFollow with
      | true => exact iff_of_true hbegun.same fun _ h => nomatch h
      | false =>
          rw [bind_of_ok (guarded_delete_of_mem rfl hstored)]
          cases hstores : stores fails outside db account.id
              (outboundUndo server outside account remoteAccount follow) with
          | true =>
              obtain ⟨after, hrun, hfollows, hremotes, hadds⟩ := storeDelivered_of_stores hstores
                (s := { s with follows := s.follows.erase row.id }) hbegun.same.2
              rw [hrun]
              refine iff_of_true ⟨account, row, hbegun.found, hrow, happroved, ?_, ?_⟩ fun _ _ => rfl
              · rw [hfollows, ← hbegun.same.1]
              · rw [hbegun.destination.1]
                refine ⟨remoteAccount, follow, ?_, hrelates, hid.symm, hadds⟩
                rw [hremotes]
                exact hbegun.destination.2
          | false =>
              obtain ⟨report, hrun⟩ := storeDelivered_of_not_stores hstores
                (s := { s with follows := s.follows.erase row.id }) hbegun.same.2
              rw [hrun]
              exact iff_of_false (fun hsame => hless hsame.1) fun h => nomatch h rfl rfl

/-- A prefix that fails without a trace, and a rest whose outcomes are known. -/
theorem allOrNothing_bind {β : Type} {first : Session Db Report β} {rest : β → Session Db Report α}
    {db : Db} {Done : Db → Prop} {Begun : β → Db → Prop} {Settles : β → Prop}
    (hfirst : Triple (· = db) first Begun (Same db))
    (hrest : ∀ r s, Begun r s → (AllOrNothing db Done (rest r s) ↔ Settles r)) :
    AllOrNothing db Done ((first >>= rest) db) ↔ ∀ r s, first db = (.ok r, s) → Settles r := by
  have hbegun := hfirst db rfl
  rcases hrun : first db with ⟨report | r, s⟩
  · rw [hrun] at hbegun
    rw [bind_of_error hrun]
    exact iff_of_true hbegun fun r s h => nomatch h
  · rw [hrun] at hbegun
    rw [bind_of_ok hrun, hrest r s hbegun]
    constructor
    · rintro hsettles _ _ ⟨⟩
      exact hsettles
    · exact fun hsettles => hsettles r s rfl

/-- `send_follow` is all or nothing exactly when, once its follow is inserted, a failed delivery is
followed by a delete that does not fail and a successful one by an outbox insert that does not fail;
`send_undo_follow` exactly when a successful delivery and delete are followed by such an insert. -/
theorem follow_all_or_nothing_iff (fails : Statement → Bool) (server : Server) (outside : Outside)
    (accountNanoid target : String) (db : Db) :
    (AllOrNothing db (FollowDone server outside accountNanoid db)
        (sendFollowWith fails server outside accountNanoid target db) ↔
      ∀ account remoteAccount follow s,
        beginFollow fails server outside accountNanoid target db =
          (.ok (account, remoteAccount, follow), s) →
        FollowSettles fails server outside db account remoteAccount follow) ∧
    (AllOrNothing db (UndoDone server outside accountNanoid target db)
        (sendUndoFollowWith fails server outside accountNanoid target db) ↔
      ∀ account remoteAccount follow s,
        beginUndoFollowWith fails server outside accountNanoid target db =
          (.ok (account, .Remote remoteAccount, follow), s) →
        UndoSettles fails server outside db account remoteAccount follow) := by
  constructor
  · have hrest : ∀ r s, FollowBegun outside accountNanoid db r.1 r.2.1 r.2.2 s →
        (AllOrNothing db (FollowDone server outside accountNanoid db)
          (finishFollow fails server outside r s) ↔
          FollowSettles fails server outside db r.1 r.2.1 r.2.2) :=
      fun r s hbegun => allOrNothing_finishFollow hbegun
    refine (allOrNothing_bind
      (triple_beginFollow fails server outside accountNanoid target db) hrest).trans ?_
    exact ⟨fun h account remoteAccount follow s => h (account, remoteAccount, follow) s,
      fun h r s => h r.1 r.2.1 r.2.2 s⟩
  · have hrest : ∀ r s, UndoBegun server outside accountNanoid target db r.1 r.2.1 r.2.2 s →
        (AllOrNothing db (UndoDone server outside accountNanoid target db)
          (finishUndoFollow fails server outside r s) ↔
          ∀ remoteAccount, r.2.1 = .Remote remoteAccount →
            UndoSettles fails server outside db r.1 remoteAccount r.2.2) := by
      rintro ⟨account, resolved, follow⟩ s hbegun
      cases resolved with
      | Local destination =>
          exact iff_of_true (allOrNothing_finishUndo_local hbegun) fun _ h => nomatch h
      | Remote remoteAccount =>
          rw [allOrNothing_finishUndo_remote hbegun]
          exact ⟨by rintro h _ ⟨⟩; exact h, fun h => h remoteAccount rfl⟩
    refine (allOrNothing_bind
      (triple_beginUndoFollowWith fails server outside accountNanoid target db) hrest).trans ?_
    constructor
    · exact fun h account remoteAccount follow s hbegin =>
        h (account, .Remote remoteAccount, follow) s hbegin remoteAccount rfl
    · rintro h ⟨account, resolved, follow⟩ s hbegin remoteAccount rfl
      exact h account remoteAccount follow s hbegin

open Exclusion

/-- Alice follows Bob and is accepted. -/
def followingDb : Db :=
  let db := (sendFollow localServer (answering 1 10) "alice-nanoid" bobUrl aliceDb).2
  (FollowRepository.approveFollowIfPending db 2 (.Local 7) (.Remote 10)).2

/-- Without faults the follow and the unfollow of Bob are settled. -/
theorem follow_all_or_nothing_bob :
    AllOrNothing aliceDb (FollowDone localServer (answering 1 10) "alice-nanoid" aliceDb)
      (sendFollowWith (fun _ => false) localServer (answering 1 10) "alice-nanoid" bobUrl aliceDb) ∧
    AllOrNothing followingDb (UndoDone localServer (answering 3 30) "alice-nanoid" bobUrl followingDb)
      (sendUndoFollowWith (fun _ => false) localServer (answering 3 30) "alice-nanoid" bobUrl
        followingDb) := by
  refine ⟨(follow_all_or_nothing_iff _ _ _ _ _ _).1.mpr ?_,
    (follow_all_or_nothing_iff _ _ _ _ _ _).2.mpr ?_⟩
  · intro account remoteAccount follow s _
    unfold FollowSettles
    split <;> rfl
  · intro account remoteAccount follow s _ _ _
    rfl

/-- A failed call that changes the number of follows. -/
theorem not_allOrNothing_of_length {db : Db} {Done : Db → Prop} {outcome : Except Report α × Db}
    (herror : outcome.1.isOk = false)
    (hlength : outcome.2.follows.rows.length ≠ db.follows.rows.length) :
    ¬AllOrNothing db Done outcome := by
  obtain ⟨report | result, after⟩ := outcome
  · intro hsame
    rw [hsame.1] at hlength
    exact hlength rfl
  · cases herror

/-- The Follow is delivered and its outbox row is not stored: the call fails and the follow stays. An
Undo whose outbox row is not stored has deleted the follow of a call that fails. -/
theorem follow_left_half_done :
    ¬AllOrNothing aliceDb (FollowDone localServer (answering 1 10) "alice-nanoid" aliceDb)
      (sendFollowWith (· = .storeOutbox) localServer (answering 1 10) "alice-nanoid" bobUrl aliceDb) ∧
    ¬AllOrNothing followingDb (UndoDone localServer (answering 3 30) "alice-nanoid" bobUrl followingDb)
      (sendUndoFollowWith (· = .storeOutbox) localServer (answering 3 30) "alice-nanoid" bobUrl
        followingDb) := by
  constructor
  · exact not_allOrNothing_of_length (by decide +kernel) (by decide +kernel)
  · exact not_allOrNothing_of_length (by decide +kernel) (by decide +kernel)

end FollowFaults

end Emumet

import Emumet.LibProcess
import Emumet.ServiceExclusion

/-! Accepts of inbound follows. Deliveries to an inbox are handled at the same time: each statement and
each transaction takes effect at once, and between two of them any other delivery may go on. The follow
and its Accept are one transaction, and a duplicate ends that transaction without either. -/

namespace Emumet

namespace Accepts

open Process

/-! ### What was ever stored -/

/-- The tables, with every follow and every outbox entry that was ever stored. -/
structure Ledger where
  db : Db
  follows : List FollowRow
  entries : List OutboxActivity

/-- Go on with the tables and write down what is new in them. -/
def Ledger.record (ledger : Ledger) (after : Db) : Ledger where
  db := after
  follows := ledger.follows ++ ledger.db.follows.added after.follows
  entries := ledger.entries ++ ledger.db.outboxActivities.added after.outboxActivities

/-- The follows of a local account that remote accounts have asked for. -/
def Ledger.inserted (ledger : Ledger) (accountId : AccountId) : List FollowRow :=
  ledger.follows.filter (·.hasFollowee (.Local accountId))

/-- The Accepts in the outbox of a local account. -/
def Ledger.accepts (ledger : Ledger) (accountId : AccountId) : List OutboxActivity :=
  ledger.entries.filter fun entry => entry.accountId = accountId && entry.activityType = "Accept"

/-! ### The handlers, statement by statement -/

/-- A handler that other deliveries may interrupt, and that may fail. -/
abbrev Handler := ExceptT Report (Process Ledger)

/-- One statement or transaction. -/
def run {α : Type} (session : Session Db Report α) : Handler α :=
  ExceptT.mk (Process.exec fun ledger => ((session ledger.db).1, ledger.record (session ledger.db).2))

def check {α : Type} (result : Result α) : Handler α := ExceptT.mk (pure result)

/-- `upsert_remote_account` on a plain connection: a lookup, then an update or an insert. -/
def upsertRemote (outside : Outside) (actor : ResolvedRemoteActor) : Handler RemoteAccount := do
  match ← run (Session.read fun db => .ok (RemoteAccountRepository.findByUrl db actor.url)) with
  | some existing =>
      let updated : RemoteAccount :=
        { id := existing.id, acct := actor.acct, url := actor.url, iconId := existing.iconId
          inboxUrl := actor.inboxUrl, publicKeyPem := actor.publicKeyPem }
      run (Session.exec fun db => RemoteAccountRepository.update db updated)
      pure updated
  | none =>
      let created : RemoteAccount :=
        { id := outside.remoteAccountId, acct := actor.acct, url := actor.url, iconId := none
          inboxUrl := actor.inboxUrl, publicKeyPem := actor.publicKeyPem }
      run (Session.exec fun db => RemoteAccountRepository.create db created)
      pure created

def handleFollow (server : Server) (outside : Outside) (dto : InboxActivityDto) : Handler Unit := do
  let followedActorUrl ← check
    (required dto.activity.objectId "Follow activity object must be an actor id")
  check (ensureLocalActorMatches server dto.accountNanoid followedActorUrl)
  let actor ← check (resolveRemoteActor server outside dto.activity.actor)
  let remoteAccount ← upsertRemote outside actor
  let follow ← check
    (Follow.new outside.relationId (.Remote remoteAccount.id) (.Local dto.accountId) (some outside.now))
  let accept := acceptActivity server.publicBaseUrl follow.id
    (localActorUrl server.publicBaseUrl dto.accountNanoid) dto.activity
  let delivery : Delivery := (accept, remoteAccount.inboxUrl)
  let outboxId ← run (Session.atomically (followTransaction outside dto.accountId follow delivery))
  run (deliverStored outside outboxId (some delivery))

def handleUndo (server : Server) (dto : InboxActivityDto) : Handler Unit := do
  let followActivity ← check
    (required (dto.activity.objectOfType "Follow") "Undo activity object must be a Follow activity")
  let followedActorUrl ← check
    (required followActivity.objectId "Undo Follow object must target an actor id")
  check (ensureLocalActorMatches server dto.accountNanoid followedActorUrl)
  match ← run (Session.read fun db => .ok (RemoteAccountRepository.findByUrl db dto.activity.actor)) with
  | none => pure ()
  | some remoteAccount =>
      run (Session.exec fun db =>
        .ok (FollowRepository.deleteIfExists db (.Remote remoteAccount.id) (.Local dto.accountId)).2)

/-! ### Without interruption -/

/-- Alone, the handler does what the session does. -/
def Agrees {α : Type} (handler : Handler α) (session : Session Db Report α) : Prop :=
  ∀ ledger, (handler.run.alone ledger).1 = (session ledger.db).1 ∧
    (handler.run.alone ledger).2.db = (session ledger.db).2

theorem agrees_run {α : Type} (session : Session Db Report α) : Agrees (run session) session :=
  fun _ => ⟨rfl, rfl⟩

theorem agrees_check {α : Type} (result : Result α) : Agrees (check result) (Session.lift result) :=
  fun _ => ⟨rfl, rfl⟩

theorem agrees_pure {α : Type} (a : α) : Agrees (pure a) (pure a) := fun _ => ⟨rfl, rfl⟩

theorem Agrees.bind {α β : Type} {handler : Handler α} {session : Session Db Report α}
    {f : α → Handler β} {g : α → Session Db Report β} (h : Agrees handler session)
    (hf : ∀ a, Agrees (f a) (g a)) : Agrees (handler >>= f) (session >>= g) := by
  intro ledger
  obtain ⟨hresult, hdb⟩ := h ledger
  have hrun : (handler >>= f).run.alone ledger =
      (ExceptT.bindCont f (handler.run.alone ledger).1).alone (handler.run.alone ledger).2 :=
    alone_bind handler.run (ExceptT.bindCont f) ledger
  rw [hrun, hresult]
  cases hsession : session ledger.db with
  | mk result after =>
      rw [hsession] at hdb
      cases result with
      | error report =>
          rw [Session.bind_of_error hsession]
          exact ⟨rfl, hdb⟩
      | ok a =>
          have hnext := hf a (handler.run.alone ledger).2
          rw [hdb] at hnext
          rw [Session.bind_of_ok hsession]
          exact hnext

/-- A statement that writes a row and then returns it. -/
theorem exec_returning {α : Type} (write : Db → Result Db) (a : α) (db : Db) :
    (Session.exec write >>= fun _ => (pure a : Session Db Report α)) db =
      Session.atomically (fun db => (write db).map fun after => (a, after)) db := by
  cases hwrite : write db with
  | error report =>
      have hexec : Session.exec write db = (.error report, db) := by
        simp [Session.exec, Session.atomically, hwrite, Except.map]
      rw [Session.bind_of_error hexec]
      simp [Session.atomically, hwrite, Except.map]
  | ok after =>
      have hexec : Session.exec write db = (.ok (), after) := Session.exec_eq_ok.mpr hwrite
      rw [Session.bind_of_ok hexec]
      simp only [Session.atomically, hwrite, Except.map]
      rfl

theorem agrees_upsertRemote (outside : Outside) (actor : ResolvedRemoteActor) :
    Agrees (upsertRemote outside actor) (Session.atomically (upsertRemoteAccount outside actor)) := by
  have hsession : Session.atomically (upsertRemoteAccount outside actor) =
      Session.read (fun db => .ok (RemoteAccountRepository.findByUrl db actor.url)) >>= fun found =>
        match found with
        | some existing =>
            let updated : RemoteAccount :=
              { id := existing.id, acct := actor.acct, url := actor.url, iconId := existing.iconId
                inboxUrl := actor.inboxUrl, publicKeyPem := actor.publicKeyPem }
            Session.exec (fun db => RemoteAccountRepository.update db updated) >>= fun _ => pure updated
        | none =>
            let created : RemoteAccount :=
              { id := outside.remoteAccountId, acct := actor.acct, url := actor.url, iconId := none
                inboxUrl := actor.inboxUrl, publicKeyPem := actor.publicKeyPem }
            Session.exec (fun db => RemoteAccountRepository.create db created) >>= fun _ => pure created := by
    funext db
    have hread : Session.read
        (fun db => (.ok (RemoteAccountRepository.findByUrl db actor.url) : Result (Option RemoteAccount))) db =
        (.ok (RemoteAccountRepository.findByUrl db actor.url), db) := rfl
    rw [Session.bind_of_ok hread]
    unfold upsertRemoteAccount
    cases hfound : RemoteAccountRepository.findByUrl db actor.url with
    | none =>
        refine Eq.trans ?_ (exec_returning _ _ db).symm
        simp only [Session.atomically, hfound]
        rfl
    | some existing =>
        refine Eq.trans ?_ (exec_returning _ _ db).symm
        simp only [Session.atomically, hfound]
        rfl
  rw [hsession]
  refine .bind (agrees_run _) fun found => ?_
  cases found with
  | none => exact .bind (agrees_run _) fun _ => agrees_pure _
  | some existing => exact .bind (agrees_run _) fun _ => agrees_pure _

/-- An inbound Follow that is not interrupted is handled as in `handle_follow_activity`. -/
theorem agrees_handleFollow (server : Server) (outside : Outside) (dto : InboxActivityDto) :
    Agrees (handleFollow server outside dto) (handleFollowActivity server outside dto) :=
  .bind (agrees_check _) fun _ => .bind (agrees_check _) fun _ => .bind (agrees_check _) fun _ =>
    .bind (agrees_upsertRemote _ _) fun _ => .bind (agrees_check _) fun _ => .bind (agrees_run _) fun _ =>
    agrees_run _

theorem agrees_handleUndo (server : Server) (dto : InboxActivityDto) :
    Agrees (handleUndo server dto) (handleUndoFollow server dto) := by
  refine .bind (agrees_check _) fun _ => .bind (agrees_check _) fun _ => .bind (agrees_check _) fun _ =>
    .bind (agrees_run _) fun found => ?_
  cases found with
  | none => exact agrees_pure ()
  | some remoteAccount => exact agrees_run _

/-! ### One Accept per follow -/

/-- The entry is the Accept of the follow. -/
structure Answers (server : Server) (row : FollowRow) (entry : OutboxActivity) : Prop where
  type : entry.activityType = "Accept"
  id : entry.activityId = activityUrl server.publicBaseUrl row.id
  account : row.hasFollowee (.Local entry.accountId) = true

/-- Two follows with the same ends are one row. -/
def UniquePairs (db : Db) : Prop :=
  ∀ row ∈ db.follows.rows, ∀ other ∈ db.follows.rows, ∀ source destination,
    row.relates source destination = true → other.relates source destination = true → row = other

structure Inv (server : Server) (ledger : Ledger) : Prop where
  pairs : UniquePairs ledger.db
  answered : List.Forall₂ (Answers server) ledger.follows ledger.entries

section Invariant

variable {server : Server} {ledger : Ledger} {after : Db}

/-- A statement that inserts neither. -/
theorem Inv.fewer (h : Inv server ledger)
    (hfollows : ∀ row ∈ after.follows.rows, row ∈ ledger.db.follows.rows)
    (hentries : ∀ row ∈ after.outboxActivities.rows, ∃ old ∈ ledger.db.outboxActivities.rows,
      old.id = row.id) : Inv server (ledger.record after) := by
  have hnone : ledger.db.follows.added after.follows = [] :=
    Table.added_eq_nil fun row hrow => ⟨row, hfollows row hrow, rfl⟩
  refine ⟨fun row hrow other hother => h.pairs row (hfollows row hrow) other (hfollows other hother), ?_⟩
  simp only [Ledger.record, hnone, Table.added_eq_nil hentries, List.append_nil]
  exact h.answered

theorem Inv.same (h : Inv server ledger) (hfollows : after.follows = ledger.db.follows)
    (hentries : after.outboxActivities = ledger.db.outboxActivities) : Inv server (ledger.record after) :=
  h.fewer (fun _ hrow => hfollows ▸ hrow) fun row hrow => ⟨row, hentries ▸ hrow, rfl⟩

/-- The follow and its Accept are stored together. -/
theorem Inv.followTransaction (h : Inv server ledger) {outside : Outside} {accountId : AccountId}
    {follow : Follow} {delivery : Delivery} {outboxId : Option OutboxActivityId}
    (hdestination : follow.destination = .Local accountId) (htype : delivery.1.type_ = "Accept")
    (hid : delivery.1.id = activityUrl server.publicBaseUrl follow.id)
    (hok : followTransaction outside accountId follow delivery ledger.db = .ok (outboxId, after)) :
    Inv server (ledger.record after) := by
  simp only [Emumet.followTransaction, Fallible.bind_eq_ok] at hok
  obtain ⟨⟨inserted, middle⟩, hinsert, hok⟩ := hok
  rcases Insertion.orAbsent_ok hinsert with ⟨rfl, hinserted⟩ | ⟨rfl, rfl⟩
  · rw [if_pos rfl] at hok
    have hfresh := FollowRepository.insert_fresh hinserted
    have hunrelated := FollowRepository.insert_unrelated hinserted
    obtain rfl := FollowRepository.insert_inserted hinserted
    rcases Relations.storeDelivery_ok hok with ⟨hnone, _⟩ | ⟨activity, inboxUrl, hdelivery, _, hfree, rfl⟩
    · cases hnone
    · cases hdelivery
      refine ⟨fun row hrow other hother source destination hrow' hother' => ?_, ?_⟩
      · rcases Table.mem_put.mp hrow with rfl | ⟨hold, _⟩
        · rcases Table.mem_put.mp hother with rfl | ⟨hold, _⟩
          · rfl
          · obtain ⟨rfl, rfl⟩ := Relations.relates_ofFollow.mp hrow'
            exact absurd hother' (hunrelated other hold)
        · rcases Table.mem_put.mp hother with rfl | ⟨hold', _⟩
          · obtain ⟨rfl, rfl⟩ := Relations.relates_ofFollow.mp hother'
            exact absurd hrow' (hunrelated row hold)
          · exact h.pairs row hold other hold' source destination hrow' hother'
      · have hrow : ledger.db.follows.added (ledger.db.follows.put (.ofFollow follow)) =
            [.ofFollow follow] := Table.added_put hfresh
        have hentry : ledger.db.outboxActivities.added (ledger.db.outboxActivities.put
              (Relations.pendingEntry outside accountId activity)) =
            [Relations.pendingEntry outside accountId activity] := Table.added_put hfree
        simp only [Ledger.record, hrow, hentry]
        refine List.rel_append h.answered (.cons ⟨htype, hid, ?_⟩ .nil)
        simp [FollowRow.hasFollowee, FollowRow.ofFollow, hdestination, TargetId.localId,
          Relations.pendingEntry, outboxEntry]
  · cases hok
    exact h.same rfl rfl

end Invariant

/-! ### What every handler guarantees -/

/-- The invariant is kept. -/
def Keeps (server : Server) (before after : Ledger) : Prop := Inv server before → Inv server after

instance (server : Server) : IsPreorder Ledger (Keeps server) where
  refl _ h := h
  trans _ _ _ h h' hinv := h' (h hinv)

/-- Every statement of the handler keeps the invariant, whatever happens in between. -/
def Guarded (server : Server) {α : Type} (handler : Handler α) : Prop :=
  ∀ ledger, Safe (Keeps server) (fun _ _ => True) handler.run ledger

section Handlers

variable {server : Server} {α β : Type}

theorem Guarded.pure (a : α) : Guarded server (pure a : Handler α) := fun _ => .pure fun _ _ => trivial

theorem Guarded.run {session : Session Db Report α}
    (h : ∀ ledger, Inv server ledger → Inv server (ledger.record (session ledger.db).2)) :
    Guarded server (run session) :=
  fun _ => .exec fun ledger _ => ⟨h ledger, fun _ _ => trivial⟩

theorem Guarded.bind {handler : Handler α} {f : α → Handler β} (h : Guarded server handler)
    (hf : ∀ a, Guarded server (f a)) : Guarded server (handler >>= f) := by
  intro ledger
  refine Safe.bind (f := ExceptT.bindCont f) (h ledger) fun result later _ => ?_
  cases result with
  | error report => exact .pure fun _ _ => trivial
  | ok a => exact hf a later

theorem Guarded.check {result : Result α} {f : α → Handler β}
    (h : ∀ a, result = .ok a → Guarded server (f a)) : Guarded server (check result >>= f) := by
  intro ledger
  cases result with
  | error report => exact Safe.pure fun _ _ => trivial
  | ok a => exact h a rfl ledger

/-- A query. -/
theorem Guarded.read {query : Db → Result α} : Guarded server (Accepts.run (Session.read query)) :=
  .run fun _ h => h.same rfl rfl

theorem guarded_upsertRemote (outside : Outside) (actor : ResolvedRemoteActor) :
    Guarded server (upsertRemote outside actor) := by
  have hwrite : ∀ write : Db → Result Db,
      (∀ db after, write db = .ok after → after.follows = db.follows ∧
        after.outboxActivities = db.outboxActivities) →
      Guarded server (Accepts.run (Session.exec write)) := by
    refine fun write htables => .run fun ledger hinv => ?_
    cases hresult : write ledger.db with
    | error report =>
        simp only [Session.exec, Session.atomically, hresult, Except.map]
        exact hinv.same rfl rfl
    | ok after =>
        simp only [Session.exec, Session.atomically, hresult, Except.map]
        exact hinv.same (htables _ _ hresult).1 (htables _ _ hresult).2
  refine .bind .read fun found => ?_
  cases found with
  | none =>
      refine .bind (hwrite _ fun db after h => ?_) fun _ => .pure _
      simp only [RemoteAccountRepository.create, uniqueViolation, foreignKeyViolation, reject] at h
      split_ifs at h
      cases h
      exact ⟨rfl, rfl⟩
  | some existing =>
      refine .bind (hwrite _ fun db after h => ?_) fun _ => .pure _
      simp only [RemoteAccountRepository.update, uniqueViolation, foreignKeyViolation, reject] at h
      split_ifs at h
      cases h
      exact ⟨rfl, rfl⟩

theorem guarded_deliverStored (outside : Outside) (outboxId : Option OutboxActivityId)
    (delivery : Option Delivery) : Guarded server (Accepts.run (deliverStored outside outboxId delivery)) := by
  let R : Db → Db → Prop := fun before after => after.follows = before.follows ∧
    ∀ row ∈ after.outboxActivities.rows, ∃ old ∈ before.outboxActivities.rows, old.id = row.id
  have : IsPreorder Db R :=
    { refl := fun _ => ⟨rfl, fun row hrow => ⟨row, hrow, rfl⟩⟩
      trans := fun _ _ _ h h' => ⟨h'.1.trans h.1, fun row hrow => by
        obtain ⟨mid, hmid, hid⟩ := h'.2 row hrow
        obtain ⟨old, hold, hid'⟩ := h.2 mid hmid
        exact ⟨old, hold, hid'.trans hid⟩⟩ }
  have hmoves : Session.Moves R (deliverStored outside outboxId delivery) := by
    refine Relations.moves_deliverStored_of outside (fun db row marked hrow hid _ _ => ⟨rfl, ?_⟩) _ _
    intro other hother
    rcases Table.mem_put.mp hother with rfl | ⟨hold, _⟩
    · exact ⟨row, hrow, hid.symm⟩
    · exact ⟨other, hold, rfl⟩
  refine .run fun ledger hinv => ?_
  obtain ⟨hfollows, hentries⟩ := hmoves ledger.db
  exact hinv.fewer (fun _ hrow => hfollows ▸ hrow) hentries

theorem guarded_handleFollow (outside : Outside) (dto : InboxActivityDto) :
    Guarded server (handleFollow server outside dto) := by
  refine .check fun _ _ => .check fun _ _ => .check fun actor _ =>
    .bind (guarded_upsertRemote outside actor) fun remote => .check fun follow hfollow =>
    .bind (.run fun ledger hinv => ?_) fun _ => guarded_deliverStored outside _ _
  have hdestination := (Follow.new_ok hfollow).2
  rcases htransaction : followTransaction outside dto.accountId follow (acceptActivity server.publicBaseUrl
      follow.id (localActorUrl server.publicBaseUrl dto.accountNanoid) dto.activity, remote.inboxUrl)
      ledger.db with report | ⟨outboxId, after⟩
  · simp only [Session.atomically, htransaction]
    exact hinv.same rfl rfl
  · simp only [Session.atomically, htransaction]
    exact hinv.followTransaction hdestination rfl rfl htransaction

theorem guarded_handleUndo (dto : InboxActivityDto) : Guarded server (handleUndo server dto) := by
  refine .check fun _ _ => .check fun _ _ => .check fun _ _ => .bind .read fun found => ?_
  cases found with
  | none => exact .pure ()
  | some remoteAccount =>
      refine .run fun ledger hinv => hinv.fewer (fun row hrow => ?_) fun row hrow => ⟨row, hrow, rfl⟩
      exact (Table.mem_deleteWhere.mp hrow).1

end Handlers

/-! ### Concurrent deliveries -/

/-- A delivery to the inbox of a local account. -/
inductive Inbound where
  | follow (outside : Outside) (dto : InboxActivityDto)
  | undoFollow (dto : InboxActivityDto)

def Inbound.handler (server : Server) : Inbound → Handler Unit
  | .follow outside dto => handleFollow server outside dto
  | .undoFollow dto => handleUndo server dto

variable {ι : Type} [DecidableEq ι]

/-- The deliveries are handled from the given tables, one statement of one delivery at a time. -/
def deliveries (server : Server) (db : Db) (inbound : ι → Inbound) (schedule : List ι) :
    System ι Ledger (Result Unit) :=
  Runs.run advance ⟨⟨db, [], []⟩, fun i => ((inbound i).handler server).run⟩ schedule

theorem inv_deliveries {server : Server} {db : Db} (hunique : UniquePairs db) (inbound : ι → Inbound)
    (schedule : List ι) : Inv server (deliveries server db inbound schedule).store := by
  let system : System ι Ledger (Result Unit) := ⟨⟨db, [], []⟩, fun i => ((inbound i).handler server).run⟩
  let ends : ι → Result Unit → Ledger → Prop := fun _ _ _ => True
  have hsafe : ∀ i, Safe (Keeps server) (ends i) (system.process i) system.store := by
    intro i
    change Safe _ _ ((inbound i).handler server).run _
    cases inbound i with
    | follow outside dto => exact guarded_handleFollow outside dto _
    | undoFollow dto => exact guarded_handleUndo dto _
  have hkept : Keeps server system.store (Runs.run advance system schedule).store := run_moves hsafe schedule
  exact hkept ⟨hunique, .nil⟩

theorem map_activityId_of_answers {server : Server} {rows : List FollowRow} {entries : List OutboxActivity}
    (h : List.Forall₂ (Answers server) rows entries) :
    entries.map (·.activityId) = rows.map
      fun row => trimEndSlashes server.publicBaseUrl ++ "/activities/" ++ toString row.id := by
  induction h with
  | nil => rfl
  | cons hanswers _ ih => rw [List.map_cons, List.map_cons, ih, hanswers.id, activityUrl]

/-- However the deliveries interleave, there is one follow at most for a remote account, and the Accepts
that were ever stored for an account are, one by one, those of the follows that were ever inserted. -/
theorem one_accept_per_follow (server : Server) (db : Db) (hunique : UniquePairs db)
    (inbound : ι → Inbound) (schedule : List ι) (accountId : AccountId) :
    let ledger := (deliveries server db inbound schedule).store
    (∀ remoteId, ∀ row ∈ ledger.db.follows.rows, ∀ other ∈ ledger.db.follows.rows,
      row.relates (.Remote remoteId) (.Local accountId) = true →
      other.relates (.Remote remoteId) (.Local accountId) = true → row = other) ∧
    (ledger.accepts accountId).length = (ledger.inserted accountId).length ∧
    (ledger.accepts accountId).map (·.activityId) = (ledger.inserted accountId).map
      fun row => trimEndSlashes server.publicBaseUrl ++ "/activities/" ++ toString row.id := by
  intro ledger
  have hinv : Inv server ledger := inv_deliveries hunique inbound schedule
  have haccount : List.Forall₂ (Answers server) (ledger.inserted accountId) (ledger.accepts accountId) := by
    refine List.rel_filter (fun row entry hanswers => ?_) hinv.answered
    simp only [FollowRow.hasFollowee, decide_eq_true_eq, hanswers.type]
    have hfollowee : row.followeeLocalId = some entry.accountId := by
      simpa [FollowRow.hasFollowee] using hanswers.account
    simp [hfollowee]
  exact ⟨fun remoteId row hrow other hother => hinv.pairs row hrow other hother _ _,
    haccount.length_eq.symm, map_activityId_of_answers haccount⟩

open Exclusion (answering aliceDb aliceUrl bobUrl localServer)

/-- Bob asks to follow Alice. -/
def bobFollowsAlice : InboxActivityDto where
  accountId := 7
  accountNanoid := "alice-nanoid"
  activity :=
    { context := none, id := bobUrl ++ "#follow", type_ := "Follow", actor := bobUrl
      object := some (.string aliceUrl)
      target := none, to_ := none, cc := none }

/-- The same Follow is delivered twice. -/
def twice : Fin 2 → Inbound
  | 0 => .follow (answering 1 10) bobFollowsAlice
  | 1 => .follow (answering 2 20) bobFollowsAlice

/-- Both deliveries reach their transaction before either has stored the follow. -/
theorem one_accept_per_follow_twice :
    let ledger := (deliveries localServer aliceDb twice [0, 0, 1, 1, 1, 0, 1, 0]).store
    (ledger.inserted 7).map (·.id) = [21] ∧
      (ledger.accepts 7).length = (ledger.inserted 7).length ∧
      (ledger.accepts 7).map (·.activityId) = (ledger.inserted 7).map
        fun row => trimEndSlashes localServer.publicBaseUrl ++ "/activities/" ++ toString row.id :=
  ⟨by decide +kernel, (one_accept_per_follow localServer aliceDb (fun _ hrow => nomatch hrow) twice
    [0, 0, 1, 1, 1, 0, 1, 0] 7).2⟩

end Accepts

end Emumet

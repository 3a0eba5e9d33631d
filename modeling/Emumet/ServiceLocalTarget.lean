import Emumet.ServiceMute

/-! The targets of outbound relations. Four use cases resolve a text to an account with three different
resolvers; a text that a resolver does not recognise as local is fetched like any remote actor, also
when it names an account of this server. -/

namespace Emumet

namespace LocalTarget

open Session

inductive UseCase where
  | blockAccount
  | muteAccount
  | sendFollow
  | sendUndoFollow
  deriving DecidableEq, Repr

/-- The target resolution of a use case. -/
def UseCase.resolve (server : Server) (outside : Outside) (target : String) :
    UseCase → Session Db Report TargetId
  | .blockAccount => do
      let resolved ← resolveBlockTarget server outside target
      pure resolved.id
  | .muteAccount => do
      let (destination, _) ← resolveMuteTarget server outside target
      pure destination
  | .sendFollow => do
      let actor ← Session.lift (resolveRemoteActorIdentifier server outside target)
      let remoteAccount ← Session.atomically (upsertRemoteAccount outside actor)
      pure (.Remote remoteAccount.id)
  | .sendUndoFollow => do
      let resolved ← resolveUnfollowTarget server outside target
      pure resolved.id

/-- The local account a use case recognises in a text. -/
def UseCase.recognised (server : Server) (outside : Outside) (target : String) (db : Db) :
    UseCase → Option Account
  | .blockAccount => AccountReadModel.findByNanoid db outside.now target
  | .muteAccount => AccountReadModel.findByNanoid db outside.now target
  | .sendFollow => none
  | .sendUndoFollow => findLocalTarget server outside target db

/-- The resolution yields the account or fails, and stores no remote account. -/
def StaysLocal (account : Account) (db : Db) : Except Report TargetId × Db → Prop
  | (.ok target, after) => target = .Local account.id ∧ after.remoteAccounts = db.remoteAccounts
  | (.error _, after) => after.remoteAccounts = db.remoteAccounts

/-- The text resolves to no remote actor whose row can be written. -/
def Unresolvable (server : Server) (outside : Outside) (target : String) (db : Db) : Prop :=
  ∀ actor, resolveRemoteActorIdentifier server outside target = .ok actor →
    ∀ result, upsertRemoteAccount outside actor db ≠ .ok result

/-- Look for a local account and fetch a remote one when there is none. -/
def lookupOrFetch (lookup : Db → Option Account) (server : Server) (outside : Outside)
    (target : String) : Session Db Report BlockTarget := do
  match ← Session.read fun db => .ok (lookup db) with
  | some account => pure (.Local account)
  | none => do
      let actor ← Session.lift (resolveRemoteActorIdentifier server outside target)
      let remoteAccount ← Session.atomically (upsertRemoteAccount outside actor)
      pure (.Remote remoteAccount)

variable {server : Server} {outside : Outside} {target : String} {db : Db} {account : Account}

/-- Resolution as a remote actor. -/
theorem staysLocal_remote :
    StaysLocal account db (UseCase.sendFollow.resolve server outside target db) ↔
      Unresolvable server outside target db := by
  simp only [Unresolvable, UseCase.resolve]
  cases hactor : resolveRemoteActorIdentifier server outside target with
  | error report => exact iff_of_true rfl fun _ h => by cases h
  | ok actor =>
      rw [bind_of_ok (lift_eq_ok.mpr ⟨rfl, rfl⟩)]
      cases hupsert : upsertRemoteAccount outside actor db with
      | error report =>
          have hrun : Session.atomically (upsertRemoteAccount outside actor) db =
              (.error report, db) := by simp [atomically, hupsert]
          rw [bind_of_error hrun]
          refine iff_of_true rfl ?_
          rintro _ ⟨⟩ result
          rw [hupsert]
          exact fun h => by cases h
      | ok result =>
          rw [bind_of_ok (atomically_eq_ok.mpr hupsert)]
          refine iff_of_false (fun h => ?_) fun h => h actor rfl _ hupsert
          cases h.1

theorem staysLocal_lookup (lookup : Db → Option Account) :
    StaysLocal account db ((do
      let resolved ← lookupOrFetch lookup server outside target
      pure resolved.id : Session Db Report TargetId) db) ↔
        match lookup db with
        | some found => found.id = account.id
        | none => Unresolvable server outside target db := by
  have hread : (Session.read (fun db => .ok (lookup db)) : Session Db Report (Option Account)) db =
      (.ok (lookup db), db) := rfl
  rw [lookupOrFetch, bind_assoc, bind_of_ok hread]
  cases lookup db with
  | some found => exact ⟨fun h => TargetId.Local.inj h.1, fun h => ⟨congrArg TargetId.Local h, rfl⟩⟩
  | none =>
      simp only [bind_assoc]
      exact staysLocal_remote

/-- Either the use case recognises the account in the text, or it recognises none and the text does not
resolve to a remote actor either. -/
theorem staysLocal_iff (useCase : UseCase) :
    StaysLocal account db (useCase.resolve server outside target db) ↔
      match useCase.recognised server outside target db with
      | some found => found.id = account.id
      | none => Unresolvable server outside target db := by
  cases useCase with
  | blockAccount => exact staysLocal_lookup fun db => AccountReadModel.findByNanoid db outside.now target
  | muteAccount =>
      rw [UseCase.resolve, resolveMuteTarget, bind_assoc]
      exact staysLocal_lookup fun db => AccountReadModel.findByNanoid db outside.now target
  | sendFollow => exact staysLocal_remote
  | sendUndoFollow => exact staysLocal_lookup (findLocalTarget server outside target)

end LocalTarget

end Emumet

import Emumet.DriverReadModel
import Emumet.LibRuns

/-! The roles of the instance. They are tuples of the permission service, which is asked once whether the
caller may administrate and is written to later; an administrator cannot revoke their own role, but two
of them can revoke each other's. -/

namespace Emumet

namespace AccountReadModel

/-- One of the auth accounts linked to the account. -/
def findAuthAccountIdByAccountId (db : Db) (accountId : AccountId) : Option AuthAccountId :=
  (db.authEmumetAccounts.find? (·.1 = accountId)).map (·.2)

end AccountReadModel

namespace InstanceRoles

inductive InstanceRole where
  | Admin
  | Moderator
  deriving DecidableEq, Repr

/-- A relation tuple of the one object of the `Instance` namespace. -/
structure RelationTuple where
  role : InstanceRole
  subject : AuthAccountId
  deriving DecidableEq, Repr

/-- `administrate` of the `Instance` namespace. -/
def administrate (tuples : List RelationTuple) (subject : AuthAccountId) : Bool :=
  ⟨.Admin, subject⟩ ∈ tuples

inductive UseCase where
  | assignInstanceRole
  | revokeInstanceRole
  deriving DecidableEq, Repr

/-- A call of one of the use cases. -/
structure Job where
  useCase : UseCase
  authAccountId : AuthAccountId
  accountNanoid : String
  role : InstanceRole
  deriving DecidableEq, Repr

namespace Job

/-- Nobody revokes their own admin role. -/
def rejects (job : Job) (target : AuthAccountId) : Bool :=
  job.useCase = .revokeInstanceRole && job.role = .Admin && target = job.authAccountId

/-- `create_relation` or `delete_relation`; a tuple that is there already, or is not there, is no
error. -/
def write (job : Job) (target : AuthAccountId) (tuples : List RelationTuple) : List RelationTuple :=
  match job.useCase with
  | .assignInstanceRole => tuples.insert ⟨job.role, target⟩
  | .revokeInstanceRole => tuples.filter (· ≠ ⟨job.role, target⟩)

def revokesAdmin (job : Job) : Bool := job.useCase = .revokeInstanceRole && job.role = .Admin

end Job

/-- How far a call is. -/
inductive Phase where
  | start
  | found (accountId : AccountId)
  | permitted (accountId : AccountId)
  | writing (target : AuthAccountId)
  | returned
  deriving DecidableEq, Repr

/-- The permission check has passed and the write is still to come. -/
def Phase.pending : Phase → Bool
  | .permitted _ => true
  | .writing _ => true
  | _ => false

/-- What a step meets: the database and the clock of its query, and whether the permission service is
reached. -/
structure Env where
  db : Db
  now : OffsetDateTime
  reached : Bool

/-- The next query, check or write of a call. -/
def Job.next (job : Job) (env : Env) (tuples : List RelationTuple) :
    Phase → Phase × List RelationTuple
  | .start =>
      match AccountReadModel.findByNanoidUnfiltered env.db env.now job.accountNanoid with
      | some projection => (.found projection.id, tuples)
      | none => (.returned, tuples)
  | .found accountId =>
      if env.reached && administrate tuples job.authAccountId then (.permitted accountId, tuples)
      else (.returned, tuples)
  | .permitted accountId =>
      match AccountReadModel.findAuthAccountIdByAccountId env.db accountId with
      | some target => (if job.rejects target then .returned else .writing target, tuples)
      | none => (.returned, tuples)
  | .writing target => (.returned, if env.reached then job.write target tuples else tuples)
  | .returned => (.returned, tuples)

variable {ι : Type} [DecidableEq ι]

structure State (ι : Type) where
  tuples : List RelationTuple
  phase : ι → Phase

/-- One call makes its next step. -/
def step (jobs : ι → Job) (s : State ι) (action : ι × Env) : State ι :=
  let next := (jobs action.1).next action.2 s.tuples (s.phase action.1)
  { tuples := next.2, phase := Function.update s.phase action.1 next.1 }

/-! ### Administrators -/

/-- Some subject holds the admin relation. -/
def HasAdmin (tuples : List RelationTuple) : Prop := ∃ subject, ⟨.Admin, subject⟩ ∈ tuples

/-- A call does not delete the admin tuple of the caller of another admin revocation that has passed its
permission check and is not written yet. -/
def Undisturbed (jobs : ι → Job) (s : State ι) (action : ι × Env) : Prop :=
  ∀ i, i ≠ action.1 → (jobs action.1).revokesAdmin = true → (jobs i).revokesAdmin = true →
    (s.phase i).pending = true → s.phase action.1 ≠ .writing (jobs i).authAccountId

instance [Fintype ι] (jobs : ι → Job) (s : State ι) (action : ι × Env) :
    Decidable (Undisturbed jobs s action) :=
  inferInstanceAs (Decidable (∀ _, _))

variable {jobs : ι → Job} {s : State ι} {job : Job} {tuples : List RelationTuple}
  {subject target : AuthAccountId}

theorem mem_write (h : ⟨.Admin, subject⟩ ∈ tuples)
    (hother : job.revokesAdmin = true → subject ≠ target) :
    ⟨.Admin, subject⟩ ∈ job.write target tuples := by
  unfold Job.write
  split
  · exact List.mem_insert_of_mem h
  · next huseCase =>
      rw [List.mem_filter, decide_eq_true_iff, ne_eq, RelationTuple.mk.injEq]
      refine ⟨h, fun hsame => hother ?_ hsame.2⟩
      simp [Job.revokesAdmin, huseCase, ← hsame.1]

/-- The callers of the admin revocations that are about to be written are administrators, and revoke
someone else's role. -/
structure Inv (jobs : ι → Job) (s : State ι) : Prop where
  admin : HasAdmin s.tuples
  callers : ∀ i, (jobs i).revokesAdmin = true → (s.phase i).pending = true →
    ⟨.Admin, (jobs i).authAccountId⟩ ∈ s.tuples
  targets : ∀ i target, s.phase i = .writing target → (jobs i).rejects target = false

/-- A step without a write. -/
theorem Inv.move (h : Inv jobs s) {i : ι} {phase : Phase}
    (hcaller : (jobs i).revokesAdmin = true → phase.pending = true →
      ⟨.Admin, (jobs i).authAccountId⟩ ∈ s.tuples)
    (htarget : ∀ target, phase = .writing target → (jobs i).rejects target = false) :
    Inv jobs ⟨s.tuples, Function.update s.phase i phase⟩ where
  admin := h.admin
  callers j hrevokes hpending := by
    change (Function.update s.phase i phase j).pending = true at hpending
    by_cases hj : j = i
    · subst hj
      rw [Function.update_self] at hpending
      exact hcaller hrevokes hpending
    · rw [Function.update_of_ne hj] at hpending
      exact h.callers j hrevokes hpending
  targets j target hphase := by
    change Function.update s.phase i phase j = .writing target at hphase
    by_cases hj : j = i
    · subst hj
      rw [Function.update_self] at hphase
      exact htarget target hphase
    · rw [Function.update_of_ne hj] at hphase
      exact h.targets j target hphase

/-- A write keeps the administrators that are about to revoke. -/
theorem Inv.write (h : Inv jobs s) {i : ι} (hphase : s.phase i = .writing target)
    (hundisturbed : ∀ j, j ≠ i → (jobs i).revokesAdmin = true → (jobs j).revokesAdmin = true →
      (s.phase j).pending = true → s.phase i ≠ .writing (jobs j).authAccountId) :
    Inv jobs ⟨(jobs i).write target s.tuples, s.phase⟩ := by
  have hkept : ∀ j, (jobs j).revokesAdmin = true → (s.phase j).pending = true →
      ⟨.Admin, (jobs j).authAccountId⟩ ∈ (jobs i).write target s.tuples := by
    refine fun j hrevokes hpending => mem_write (h.callers j hrevokes hpending) fun hadmin heq => ?_
    by_cases hj : j = i
    · -- nobody revokes their own role
      have hself := h.targets i target hphase
      subst hj
      simp only [Job.revokesAdmin, Bool.and_eq_true] at hadmin
      simp [Job.rejects, hadmin.1, hadmin.2, heq] at hself
    · exact hundisturbed j hj hadmin hrevokes hpending (heq ▸ hphase)
  refine ⟨?_, hkept, h.targets⟩
  by_cases hrevokes : (jobs i).revokesAdmin = true
  · refine ⟨(jobs i).authAccountId, hkept i hrevokes ?_⟩
    rw [hphase]
    rfl
  · obtain ⟨subject, hsubject⟩ := h.admin
    exact ⟨subject, mem_write hsubject fun hadmin => absurd hadmin hrevokes⟩

theorem Inv.step (h : Inv jobs s) {action : ι × Env} (hundisturbed : Undisturbed jobs s action) :
    Inv jobs (step jobs s action) := by
  obtain ⟨i, env⟩ := action
  unfold InstanceRoles.step
  dsimp only
  cases hphase : s.phase i with
  | start =>
      simp only [Job.next]
      split <;> exact h.move (fun _ hpending => Bool.noConfusion hpending) nofun
  | found accountId =>
      simp only [Job.next]
      split_ifs with hpermitted
      · rw [Bool.and_eq_true, administrate, decide_eq_true_iff] at hpermitted
        exact h.move (fun _ _ => hpermitted.2) nofun
      · exact h.move (fun _ hpending => Bool.noConfusion hpending) nofun
  | permitted accountId =>
      have hcaller : (jobs i).revokesAdmin = true → ⟨.Admin, (jobs i).authAccountId⟩ ∈ s.tuples :=
        fun hrevokes => h.callers i hrevokes (by rw [hphase]; rfl)
      simp only [Job.next]
      split
      · next target _ =>
          refine h.move (fun hrevokes _ => hcaller hrevokes) fun written hwriting => ?_
          split_ifs at hwriting with hrejects
          cases hwriting
          exact Bool.eq_false_iff.mpr hrejects
      · exact h.move (fun _ hpending => Bool.noConfusion hpending) nofun
  | writing target =>
      simp only [Job.next]
      split_ifs
      · exact (h.write hphase hundisturbed).move (fun _ hpending => Bool.noConfusion hpending) nofun
      · exact h.move (fun _ hpending => Bool.noConfusion hpending) nofun
  | returned => exact h.move (fun _ hpending => Bool.noConfusion hpending) nofun

/-- In every run of any number of calls in which no step deletes the role of a caller that is about to
revoke, some administrator is left. -/
theorem instance_keeps_admin (jobs : ι → Job) (tuples : List RelationTuple) (hadmin : HasAdmin tuples)
    (schedule : List (ι × Env))
    (hundisturbed : Runs.Along (step jobs) (Undisturbed jobs) ⟨tuples, fun _ => .start⟩ schedule) :
    HasAdmin (Runs.run (step jobs) ⟨tuples, fun _ => .start⟩ schedule).tuples := by
  have hstart : Inv jobs (⟨tuples, fun _ => .start⟩ : State ι) :=
    ⟨hadmin, fun _ _ hpending => Bool.noConfusion hpending, nofun⟩
  exact (hundisturbed.invariant (fun s action h hstep => h.step hstep) hstart).admin

/-- The accounts of two administrators, with their auth accounts. -/
def twoAccounts : Db :=
  let account (id : AccountId) (name nanoid : String) : Account :=
    { id, name, isBot := false, status := .Active, deletedAt := none, version := 1, nanoid, createdAt := 0 }
  { Db.empty with
    accounts := (Table.empty.put (.ofAccount .microseconds (account 7 "alice" "alice-nanoid"))).put
      (.ofAccount .microseconds (account 8 "bob" "bob-nanoid"))
    authEmumetAccounts := [(7, 3), (8, 4)] }

def admins : List RelationTuple := [⟨.Admin, 3⟩, ⟨.Admin, 4⟩]

/-- Each of the two revokes the role of the other. -/
def againstEachOther : Fin 2 → Job :=
  ![⟨.revokeInstanceRole, 3, "bob-nanoid", .Admin⟩, ⟨.revokeInstanceRole, 4, "alice-nanoid", .Admin⟩]

/-- The two calls in the order of a schedule. -/
def scheduled (order : List (Fin 2)) : List (Fin 2 × Env) := order.map fun i => (i, ⟨twoAccounts, 1, true⟩)

/-- One call after the other: the second is not permitted. -/
theorem instance_keeps_admin_sequence :
    let after := Runs.run (step againstEachOther) ⟨admins, fun _ => .start⟩ (scheduled [0, 0, 0, 0, 1, 1])
    (∀ i, after.phase i = .returned) ∧ after.tuples = [⟨.Admin, 3⟩] ∧ HasAdmin after.tuples :=
  ⟨by decide +kernel, by decide +kernel, instance_keeps_admin againstEachOther admins
    ⟨3, by decide⟩ (scheduled [0, 0, 0, 0, 1, 1]) (by decide +kernel)⟩

/-- Both checks come before both deletions, and nobody is left. -/
theorem instance_loses_admins :
    let after := Runs.run (step againstEachOther) ⟨admins, fun _ => .start⟩
      (scheduled [0, 0, 1, 1, 0, 1, 0, 1])
    HasAdmin admins ∧ (∀ i, after.phase i = .returned) ∧ ¬HasAdmin after.tuples := by
  have hnone : (Runs.run (step againstEachOther) ⟨admins, fun _ => .start⟩
      (scheduled [0, 0, 1, 1, 0, 1, 0, 1])).tuples = [] := by
    decide +kernel
  refine ⟨⟨3, by decide⟩, by decide +kernel, ?_⟩
  rintro ⟨subject, hsubject⟩
  rw [hnone] at hsubject
  cases hsubject

end InstanceRoles

end Emumet

import Mathlib

/-! Following a chain of locations. A hop at a location sends a request and names the next location, or
stops with a result; it may stop without a request. The number of hops is bounded. -/

namespace Chase

variable {Loc Sent Result : Type}

inductive Hop (Loc Sent Result : Type) where
  | stop (sent : Option Sent) (result : Result)
  | follow (sent : Sent) (next : Loc)

/-- What the hop sends. -/
def Hop.sent : Hop Loc Sent Result → Option Sent
  | .stop sent _ => sent
  | .follow sent _ => some sent

/-- The requests in the order in which they are sent, and the result. -/
structure Trail (Sent Result : Type) where
  sent : List Sent
  result : Result

variable (hop : Nat → Loc → Hop Loc Sent Result) (exhausted : Result)

/-- At most `fuel` hops, numbered from `n` on. -/
def chase : (fuel n : Nat) → Loc → Trail Sent Result
  | 0, _, _ => ⟨[], exhausted⟩
  | fuel + 1, n, loc =>
      match hop n loc with
      | .stop sent result => ⟨sent.toList, result⟩
      | .follow sent next =>
          let rest := chase fuel (n + 1) next
          ⟨sent :: rest.sent, rest.result⟩

/-- The location after some hops, if there are as many. -/
def locate (n : Nat) (loc : Loc) : Nat → Option Loc
  | 0 => some loc
  | i + 1 =>
      match hop n loc with
      | .stop _ _ => none
      | .follow _ next => locate (n + 1) next i

variable {hop exhausted} {fuel n i : Nat} {loc : Loc}

theorem chase_stop {sent : Option Sent} {result : Result} (h : hop n loc = .stop sent result) :
    chase hop exhausted (fuel + 1) n loc = ⟨sent.toList, result⟩ := by
  rw [chase, h]

theorem chase_follow {sent : Sent} {next : Loc} (h : hop n loc = .follow sent next) :
    chase hop exhausted (fuel + 1) n loc =
      ⟨sent :: (chase hop exhausted fuel (n + 1) next).sent,
        (chase hop exhausted fuel (n + 1) next).result⟩ := by
  rw [chase, h]

theorem locate_follow {sent : Sent} {next : Loc} (h : hop n loc = .follow sent next) :
    locate hop n loc (i + 1) = locate hop (n + 1) next i := by
  rw [locate, h]

theorem length_sent_le (fuel n : Nat) (loc : Loc) :
    (chase hop exhausted fuel n loc).sent.length ≤ fuel := by
  induction fuel generalizing n loc with
  | zero => exact Nat.le_refl 0
  | succ fuel ih =>
      cases hhop : hop n loc with
      | stop sent result =>
          rw [chase_stop hhop]
          cases sent with
          | none => exact Nat.zero_le _
          | some sent => exact Nat.succ_le_succ (Nat.zero_le _)
      | follow sent next =>
          rw [chase_follow hhop]
          exact Nat.succ_le_succ (ih (n + 1) next)

/-- The request at a place was sent by the hop of that number. -/
theorem exists_hop {sent : Sent} (h : (chase hop exhausted fuel n loc).sent[i]? = some sent) :
    ∃ here, locate hop n loc i = some here ∧ (hop (n + i) here).sent = some sent := by
  induction fuel generalizing n loc i with
  | zero => cases h
  | succ fuel ih =>
      cases hhop : hop n loc with
      | stop last result =>
          rw [chase_stop hhop] at h
          cases last with
          | none => cases h
          | some last =>
              cases i with
              | zero => exact ⟨loc, rfl, by rw [Nat.add_zero, hhop]; exact h⟩
              | succ i => cases h
      | follow first next =>
          rw [chase_follow hhop] at h
          cases i with
          | zero => exact ⟨loc, rfl, by rw [Nat.add_zero, hhop]; exact h⟩
          | succ i =>
              obtain ⟨here, hhere, hsent⟩ := ih h
              refine ⟨here, (locate_follow hhop).trans hhere, ?_⟩
              rw [← hsent, Nat.add_right_comm, Nat.add_assoc]

/-- The next location is the one the hop names. -/
theorem locate_succ {next : Loc} (h : locate hop n loc (i + 1) = some next) :
    ∃ here sent, locate hop n loc i = some here ∧ hop (n + i) here = .follow sent next := by
  induction i generalizing n loc with
  | zero =>
      cases hhop : hop n loc with
      | stop sent result =>
          rw [locate, hhop] at h
          cases h
      | follow sent first =>
          rw [locate_follow hhop] at h
          cases h
          exact ⟨loc, sent, rfl, hhop⟩
  | succ i ih =>
      cases hhop : hop n loc with
      | stop sent result =>
          rw [locate, hhop] at h
          cases h
      | follow sent first =>
          rw [locate_follow hhop] at h
          obtain ⟨here, last, hhere, hnext⟩ := ih h
          refine ⟨here, last, (locate_follow hhop).trans hhere, ?_⟩
          rw [← hnext, Nat.add_right_comm, Nat.add_assoc]

/-- The result is the one a hop stops with, unless the hops are used up. -/
theorem exists_stop (hne : (chase hop exhausted fuel n loc).result ≠ exhausted) :
    ∃ i here sent, locate hop n loc i = some here ∧
      hop (n + i) here = .stop sent (chase hop exhausted fuel n loc).result ∧
      (chase hop exhausted fuel n loc).sent[i]? = sent := by
  induction fuel generalizing n loc with
  | zero => exact absurd rfl hne
  | succ fuel ih =>
      cases hhop : hop n loc with
      | stop sent result =>
          rw [chase_stop hhop]
          refine ⟨0, loc, sent, rfl, hhop, ?_⟩
          cases sent <;> rfl
      | follow sent next =>
          rw [chase_follow hhop] at hne ⊢
          obtain ⟨i, here, last, hhere, hstop, hsent⟩ := ih hne
          refine ⟨i + 1, here, last, (locate_follow hhop).trans hhere, ?_, hsent⟩
          rw [← hstop, Nat.add_right_comm, Nat.add_assoc]

end Chase

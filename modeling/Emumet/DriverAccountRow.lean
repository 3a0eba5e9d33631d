import Emumet.DriverTables
import Emumet.KernelReplay

/-! What a row of `accounts` keeps of the account written to it. Instants come back as the column keeps
them, and a suspension past its expiry comes back as no suspension. -/

namespace Emumet

namespace Timestamptz

/-- Instants the column does not tell apart. -/
def Same (tz : Timestamptz) (a b : OffsetDateTime) : Prop := tz.store a = tz.store b

theorem same_refl (tz : Timestamptz) (instant : OffsetDateTime) : tz.Same instant instant := rfl

theorem same_store (tz : Timestamptz) (instant : OffsetDateTime) :
    tz.Same instant (tz.store instant) := (tz.store_store instant).symm

theorem same_map_store (tz : Timestamptz) (o : Option OffsetDateTime) :
    Option.Rel tz.Same o (o.map tz.store) := by
  cases o with
  | none => exact .none
  | some instant => exact .some (tz.same_store instant)

theorem map_store_eq {tz : Timestamptz} {o p : Option OffsetDateTime}
    (h : Option.Rel tz.Same o p) : o.map tz.store = p.map tz.store := by
  cases h with
  | none => rfl
  | some hsame => exact congrArg some hsame

end Timestamptz

/-- The status a row gives back at a reading of the clock. -/
def AccountStatus.effective (tz : Timestamptz) (now : OffsetDateTime) : AccountStatus → AccountStatus
  | .Suspended reason suspendedAt (some expiresAt) =>
      if tz.store expiresAt ≤ now then .Active
      else .Suspended reason suspendedAt (some expiresAt)
  | status => status

namespace AccountRow

variable {tz : Timestamptz}

/-- Accounts whose instants the columns do not tell apart have the same row. -/
theorem ofAccount_congr {a b : Account} (h : Account.Alike tz.Same a b) :
    ofAccount tz a = ofAccount tz b := by
  obtain ⟨id, name, isBot, status, deletedAt, version, nanoid, createdAt⟩ := a
  obtain ⟨id', name', isBot', status', deletedAt', version', nanoid', createdAt'⟩ := b
  obtain ⟨rfl, rfl, rfl, rfl, rfl, hsameCreated, hstatus, hsameDeleted⟩ := h
  have hcreated : tz.store createdAt = tz.store createdAt' := hsameCreated
  have hdeleted : deletedAt.map tz.store = deletedAt'.map tz.store :=
    Timestamptz.map_store_eq hsameDeleted
  cases hstatus with
  | active => simp only [ofAccount, hcreated, hdeleted]
  | suspended hsuspended hexpires =>
      have hsuspended : tz.store _ = tz.store _ := hsuspended
      simp only [ofAccount, hcreated, hdeleted, hsuspended, Timestamptz.map_store_eq hexpires]
  | banned hbanned =>
      have hbanned : tz.store _ = tz.store _ := hbanned
      simp only [ofAccount, hcreated, hdeleted, hbanned]

/-- The status comes back with the instants the columns keep, unless the suspension is over. -/
theorem status_ofAccount (now : OffsetDateTime) (account : Account) :
    AccountStatus.Alike tz.Same (account.status.effective tz now)
      ((ofAccount tz account).status true now) := by
  obtain ⟨id, name, isBot, status, deletedAt, version, nanoid, createdAt⟩ := account
  cases status with
  | Active => exact .active
  | Banned reason bannedAt => exact .banned (tz.same_store bannedAt)
  | Suspended reason suspendedAt expiresAt =>
      cases expiresAt with
      | none => exact .suspended (tz.same_store suspendedAt) .none
      | some expiresAt =>
          simp only [ofAccount, status, AccountStatus.effective, Option.map_some, if_true]
          split_ifs
          · exact .active
          · exact .suspended (tz.same_store suspendedAt) (.some (tz.same_store expiresAt))

/-- An account comes back from its row with the instants the columns keep. -/
theorem toAccount_ofAccount (tz : Timestamptz) (now : OffsetDateTime) (account : Account) :
    Account.Alike tz.Same { account with status := account.status.effective tz now }
      ((ofAccount tz account).toAccount true now) := by
  refine ⟨(ofAccount_id tz account).symm, (ofAccount_name tz account).symm,
    (ofAccount_isBot tz account).symm, (ofAccount_version tz account).symm, ?_, ?_,
    status_ofAccount now account, ?_⟩
  · exact (ofAccount_nanoid tz account).symm
  · cases hstatus : account.status <;>
      simpa [toAccount, ofAccount, hstatus] using tz.same_store account.createdAt
  · simpa [toAccount] using tz.same_map_store account.deletedAt

end AccountRow

end Emumet

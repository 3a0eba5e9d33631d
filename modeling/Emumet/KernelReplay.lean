import Emumet.KernelAccount
import Emumet.LibFallible

/-! Replaying account events from accounts that differ in their instants only. The applier compares no
instants, so related accounts step to related accounts; which instants count as related is a parameter. -/

namespace Emumet

variable {T : OffsetDateTime → OffsetDateTime → Prop}

/-- Statuses of one kind with the same reason and related instants. -/
inductive AccountStatus.Alike (T : OffsetDateTime → OffsetDateTime → Prop) :
    AccountStatus → AccountStatus → Prop
  | active : Alike T .Active .Active
  | suspended {reason : String} {suspendedAt suspendedAt' : OffsetDateTime}
      {expiresAt expiresAt' : Option OffsetDateTime} (hsuspended : T suspendedAt suspendedAt')
      (hexpires : Option.Rel T expiresAt expiresAt') :
      Alike T (.Suspended reason suspendedAt expiresAt) (.Suspended reason suspendedAt' expiresAt')
  | banned {reason : String} {bannedAt bannedAt' : OffsetDateTime} (hbanned : T bannedAt bannedAt') :
      Alike T (.Banned reason bannedAt) (.Banned reason bannedAt')

namespace Account

/-- Accounts with related instants that agree on everything else. -/
structure Alike (T : OffsetDateTime → OffsetDateTime → Prop) (a b : Account) : Prop where
  id : a.id = b.id
  name : a.name = b.name
  isBot : a.isBot = b.isBot
  version : a.version = b.version
  nanoid : a.nanoid = b.nanoid
  createdAt : T a.createdAt b.createdAt
  status : AccountStatus.Alike T a.status b.status
  deletedAt : Option.Rel T a.deletedAt b.deletedAt

end Account

/-- The restricted status a moderation event puts an account in. -/
def AccountEvent.sets : AccountEvent → AccountStatus → Prop
  | .Suspended reason suspendedAt expiresAt, status =>
      status = .Suspended reason suspendedAt expiresAt
  | .Banned reason bannedAt, status => status = .Banned reason bannedAt
  | _, _ => False

theorem optionRel_refl (hrefl : ∀ instant, T instant instant) (o : Option OffsetDateTime) :
    Option.Rel T o o := by
  cases o with
  | none => exact .none
  | some instant => exact .some (hrefl instant)

theorem optionRel_imp {U : OffsetDateTime → OffsetDateTime → Prop} (himp : ∀ a b, T a b → U a b)
    {o p : Option OffsetDateTime} (h : Option.Rel T o p) : Option.Rel U o p := by
  cases h with
  | none => exact .none
  | some hrelated => exact .some (himp _ _ hrelated)

theorem optionRel_trans (htrans : ∀ a b c, T a b → T b c → T a c)
    {o p q : Option OffsetDateTime} (hop : Option.Rel T o p) (hpq : Option.Rel T p q) :
    Option.Rel T o q := by
  cases hop with
  | none =>
      cases hpq
      exact .none
  | some hfirst =>
      cases hpq with
      | some hsecond => exact .some (htrans _ _ _ hfirst hsecond)

theorem optionRel_isSome {o p : Option OffsetDateTime} (h : Option.Rel T o p) :
    o.isSome = p.isSome := by
  cases h <;> rfl

namespace AccountStatus.Alike

variable {s t u : AccountStatus}

theorem refl (hrefl : ∀ instant, T instant instant) (s : AccountStatus) :
    AccountStatus.Alike T s s := by
  cases s with
  | Active => exact .active
  | Suspended reason suspendedAt expiresAt =>
      exact .suspended (hrefl suspendedAt) (optionRel_refl hrefl expiresAt)
  | Banned reason bannedAt => exact .banned (hrefl bannedAt)

theorem imp {U : OffsetDateTime → OffsetDateTime → Prop} (himp : ∀ a b, T a b → U a b)
    (h : AccountStatus.Alike T s t) : AccountStatus.Alike U s t := by
  cases h with
  | active => exact .active
  | suspended hsuspended hexpires =>
      exact .suspended (himp _ _ hsuspended) (optionRel_imp himp hexpires)
  | banned hbanned => exact .banned (himp _ _ hbanned)

theorem trans (htrans : ∀ a b c, T a b → T b c → T a c) (hst : AccountStatus.Alike T s t)
    (htu : AccountStatus.Alike T t u) : AccountStatus.Alike T s u := by
  cases hst with
  | active =>
      cases htu
      exact .active
  | suspended hsuspended hexpires =>
      cases htu with
      | suspended hsuspended' hexpires' =>
          exact .suspended (htrans _ _ _ hsuspended hsuspended')
            (optionRel_trans htrans hexpires hexpires')
  | banned hbanned =>
      cases htu with
      | banned hbanned' => exact .banned (htrans _ _ _ hbanned hbanned')

theorem eq_active (h : AccountStatus.Alike T .Active t) : t = .Active := by
  cases h
  rfl

theorem isActive_eq (h : AccountStatus.Alike T s t) : s.isActive = t.isActive := by
  cases h <;> rfl

theorem isSuspended_eq (h : AccountStatus.Alike T s t) : s.isSuspended = t.isSuspended := by
  cases h <;> rfl

theorem isBanned_eq (h : AccountStatus.Alike T s t) : s.isBanned = t.isBanned := by
  cases h <;> rfl

end AccountStatus.Alike

namespace Account

theorem Alike.imp {U : OffsetDateTime → OffsetDateTime → Prop} (himp : ∀ a b, T a b → U a b)
    {a b : Account} (h : Alike T a b) : Alike U a b :=
  ⟨h.id, h.name, h.isBot, h.version, h.nanoid, himp _ _ h.createdAt, h.status.imp himp,
    optionRel_imp himp h.deletedAt⟩

theorem Alike.trans (htrans : ∀ a b c, T a b → T b c → T a c) {a b c : Account} (hab : Alike T a b)
    (hbc : Alike T b c) : Alike T a c :=
  ⟨hab.id.trans hbc.id, hab.name.trans hbc.name, hab.isBot.trans hbc.isBot,
    hab.version.trans hbc.version, hab.nanoid.trans hbc.nanoid,
    htrans _ _ _ hab.createdAt hbc.createdAt, hab.status.trans htrans hbc.status,
    optionRel_trans htrans hab.deletedAt hbc.deletedAt⟩

/-- Related accounts step to related accounts; only `Deactivated` reads the clock. -/
theorem apply_alike (hrefl : ∀ instant, T instant instant) {now now' : OffsetDateTime}
    {a b next : Account} {event : EventEnvelope AccountEvent} (h : Alike T a b)
    (hclock : event.event = .Deactivated → T now now')
    (hok : apply now (some a) event = .ok (some next)) :
    ∃ other, apply now' (some b) event = .ok (some other) ∧ Alike T next other := by
  obtain ⟨id, payload, version⟩ := event
  have hdeleted := optionRel_isSome h.deletedAt
  have hnone : a.deletedAt.isNone = b.deletedAt.isNone := by
    rw [← Option.not_isSome, ← Option.not_isSome, hdeleted]
  cases payload with
  | Created name isBot nanoid auth => simp [apply, reject] at hok
  | Updated isBot =>
      cases hok
      exact ⟨_, rfl, ⟨h.id, h.name, rfl, rfl, h.nanoid, h.createdAt, h.status, h.deletedAt⟩⟩
  | Deactivated =>
      simp only [apply, reject, hdeleted] at hok ⊢
      split_ifs at hok ⊢
      cases hok
      exact ⟨_, rfl, ⟨h.id, h.name, h.isBot, rfl, h.nanoid, h.createdAt, h.status,
        .some (hclock rfl)⟩⟩
  | Suspended reason suspendedAt expiresAt =>
      simp only [apply, reject, hdeleted, h.status.isActive_eq] at hok ⊢
      split_ifs at hok ⊢
      cases hok
      exact ⟨_, rfl, ⟨h.id, h.name, h.isBot, rfl, h.nanoid, h.createdAt,
        .suspended (hrefl _) (optionRel_refl hrefl _), h.deletedAt⟩⟩
  | Unsuspended =>
      simp only [apply, reject, h.status.isSuspended_eq] at hok ⊢
      split_ifs at hok ⊢
      cases hok
      exact ⟨_, rfl, ⟨h.id, h.name, h.isBot, rfl, h.nanoid, h.createdAt, .active, h.deletedAt⟩⟩
  | Banned reason bannedAt =>
      simp only [apply, reject, hdeleted, h.status.isBanned_eq] at hok ⊢
      split_ifs at hok ⊢
      cases hok
      exact ⟨_, rfl, ⟨h.id, h.name, h.isBot, rfl, h.nanoid, h.createdAt, .banned (hrefl _),
        h.deletedAt⟩⟩
  | Unbanned =>
      simp only [apply, reject, h.status.isBanned_eq] at hok ⊢
      split_ifs at hok ⊢
      cases hok
      exact ⟨_, rfl, ⟨h.id, h.name, h.isBot, rfl, h.nanoid, h.createdAt, .active, h.deletedAt⟩⟩
  | Reactivated =>
      simp only [apply, reject, hnone] at hok ⊢
      split_ifs at hok ⊢
      cases hok
      exact ⟨_, rfl, ⟨h.id, h.name, h.isBot, rfl, h.nanoid, h.createdAt, h.status, .none⟩⟩

/-- The simulation for an account that may not exist. -/
theorem apply_alike_option (hrefl : ∀ instant, T instant instant) {now now' : OffsetDateTime}
    {entity other result : Option Account} {event : EventEnvelope AccountEvent}
    (h : Option.Rel (Alike T) entity other) (hclock : event.event = .Deactivated → T now now')
    (hok : apply now entity event = .ok result) :
    ∃ result', apply now' other event = .ok result' ∧ Option.Rel (Alike T) result result' := by
  obtain ⟨account, rfl, _⟩ := apply_ok hok
  cases h with
  | none =>
      -- Creation does not read the clock.
      have hcreated := apply_none hok
      obtain ⟨id, payload, version⟩ := event
      cases payload with
      | Created name isBot nanoid auth =>
          exact ⟨some account, hok, .some ⟨rfl, rfl, rfl, rfl, rfl, hrefl _,
            AccountStatus.Alike.refl hrefl _, optionRel_refl hrefl _⟩⟩
      | _ => cases hcreated
  | some hrelated =>
      obtain ⟨next, hnext, halike⟩ := apply_alike hrefl hrelated hclock hok
      exact ⟨some next, hnext, .some halike⟩

variable {now now' : OffsetDateTime} {events : List (EventEnvelope AccountEvent)}

/-- Related accounts replay the same events to related accounts. -/
theorem foldEvents_alike (hrefl : ∀ instant, T instant instant) {entity other result : Option Account}
    (h : Option.Rel (Alike T) entity other)
    (hclock : ∀ event ∈ events, event.event = .Deactivated → T now now')
    (hok : foldEvents (apply now) entity events = .ok result) :
    ∃ result', foldEvents (apply now') other events = .ok result' ∧
      Option.Rel (Alike T) result result' :=
  Fallible.foldlM_simulates
    (fun _ _ event hevent _ hrelated hstep =>
      apply_alike_option hrefl hrelated (hclock event hevent) hstep) h hok

/-- Events fold to an account, whose version is that of the last of them. -/
theorem foldEvents_ok {entity result : Option Account}
    (hok : foldEvents (apply now) entity events = .ok result) (hne : events ≠ []) :
    ∃ account, result = some account ∧ account.version = (events.getLast hne).version := by
  obtain ⟨front, last, rfl⟩ : ∃ front last, events = front ++ [last] :=
    ⟨_, _, (List.dropLast_append_getLast hne).symm⟩
  obtain ⟨middle, _, happly⟩ := foldEvents_concat.mp hok
  rw [List.getLast_append_singleton]
  exact apply_ok happly

theorem fold_version {entity : Option Account} (hok : fold now events = .ok entity) :
    entity.map Account.version = events.getLast?.map EventEnvelope.version := by
  by_cases hne : events = []
  · subst hne
    cases hok
    rfl
  · obtain ⟨account, rfl, hversion⟩ := foldEvents_ok hok hne
    rw [List.getLast?_eq_getLast_of_ne_nil hne, Option.map_some, Option.map_some, hversion]

/-- The account a stream of one id folds to has that id. -/
theorem foldEvents_id {entity : Option Account} {account : Account} {id : AccountId}
    (hentity : ∀ existing, entity = some existing → existing.id = id)
    (hevents : ∀ event ∈ events, event.id = id)
    (hok : foldEvents (apply now) entity events = .ok (some account)) : account.id = id := by
  have hinvariant : ∀ existing, some account = some existing → existing.id = id :=
    Fallible.foldlM_invariant (P := fun entity => ∀ existing, entity = some existing →
      existing.id = id) (fun before event hevent after hbefore hstep existing hafter => by
        subst hafter
        cases before with
        | some previous => exact (apply_id hstep).trans (hbefore previous rfl)
        | none =>
            have hcreated := apply_none hstep
            have hid := hevents event hevent
            obtain ⟨eventId, payload, version⟩ := event
            cases payload with
            | Created name isBot nanoid auth =>
                obtain ⟨created, happly, hcreatedId, _⟩ :=
                  apply_created now eventId name isBot nanoid auth version
                rw [happly] at hstep
                cases hstep
                exact hcreatedId.trans hid
            | _ => cases hcreated) hentity hok
  exact hinvariant account rfl

/-! ### Where a folded account's status and deletion come from -/

/-- A step keeps the status or sets the one its event stands for. -/
theorem apply_status {entity : Option Account} {next : Account}
    {event : EventEnvelope AccountEvent} (h : apply now entity event = .ok (some next)) :
    next.status = .Active ∨ event.event.sets next.status ∨
      ∃ account, entity = some account ∧ next.status = account.status := by
  obtain ⟨id, payload, version⟩ := event
  cases entity with
  | none =>
      have hcreated := apply_none h
      cases payload with
      | Created name isBot nanoid auth =>
          obtain ⟨account, happly, _, _, hstatus, _⟩ :=
            apply_created now id name isBot nanoid auth version
          rw [happly] at h
          cases h
          exact Or.inl hstatus
      | _ => cases hcreated
  | some account =>
      cases payload <;> simp only [apply, reject] at h
      all_goals first
        | (cases h; done)
        | (cases h; exact Or.inr (Or.inr ⟨account, rfl, rfl⟩))
        | (split_ifs at h; cases h; first
            | exact Or.inl rfl
            | exact Or.inr (Or.inl rfl)
            | exact Or.inr (Or.inr ⟨account, rfl, rfl⟩))

/-- A step keeps the deletion, ends it, or is a deactivation. -/
theorem apply_deletedAt {entity : Option Account} {next : Account}
    {event : EventEnvelope AccountEvent} (h : apply now entity event = .ok (some next)) :
    next.deletedAt = none ∨ event.event = .Deactivated ∨
      ∃ account, entity = some account ∧ next.deletedAt = account.deletedAt := by
  obtain ⟨id, payload, version⟩ := event
  cases entity with
  | none =>
      have hcreated := apply_none h
      cases payload with
      | Created name isBot nanoid auth =>
          obtain ⟨account, happly, _, _, _, hdeleted⟩ :=
            apply_created now id name isBot nanoid auth version
          rw [happly] at h
          cases h
          exact Or.inl hdeleted
      | _ => cases hcreated
  | some account =>
      cases payload <;> simp only [apply, reject] at h
      all_goals first
        | (cases h; done)
        | exact Or.inr (Or.inl rfl)
        | (cases h; exact Or.inr (Or.inr ⟨account, rfl, rfl⟩))
        | (split_ifs at h; cases h; first
            | exact Or.inl rfl
            | exact Or.inr (Or.inr ⟨account, rfl, rfl⟩))

/-- A folded account is active or has a status that one of its events set. -/
theorem fold_status {account : Account} (hok : fold now events = .ok (some account)) :
    account.status = .Active ∨ ∃ event ∈ events, event.event.sets account.status := by
  have hinvariant : ∀ last, some account = some last →
      last.status = .Active ∨ ∃ event ∈ events, event.event.sets last.status :=
    Fallible.foldlM_invariant (P := fun entity => ∀ last, entity = some last →
      last.status = .Active ∨ ∃ event ∈ events, event.event.sets last.status)
      (fun before event hevent after hbefore hstep last hlast => by
        subst hlast
        rcases apply_status hstep with hactive | hsets | ⟨previous, rfl, hkept⟩
        · exact Or.inl hactive
        · exact Or.inr ⟨event, hevent, hsets⟩
        · rw [hkept]
          exact hbefore previous rfl) (by simp) hok
  exact hinvariant account rfl

/-- Without a deactivation an account that is not deleted stays so. -/
theorem foldEvents_deletedAt {entity : Option Account} {account : Account}
    (hok : foldEvents (apply now) entity events = .ok (some account))
    (hentity : ∀ existing, entity = some existing → existing.deletedAt = none)
    (hnone : ∀ event ∈ events, event.event ≠ .Deactivated) : account.deletedAt = none := by
  have hinvariant : ∀ last, some account = some last → last.deletedAt = none :=
    Fallible.foldlM_invariant (P := fun entity => ∀ last, entity = some last →
      last.deletedAt = none) (fun before event hevent after hbefore hstep last hlast => by
        subst hlast
        rcases apply_deletedAt hstep with hdeleted | hevent' | ⟨previous, rfl, hkept⟩
        · exact hdeleted
        · exact absurd hevent' (hnone event hevent)
        · rw [hkept]
          exact hbefore previous rfl) hentity hok
  exact hinvariant account rfl

theorem fold_deletedAt {account : Account} (hok : fold now events = .ok (some account))
    (hnone : ∀ event ∈ events, event.event ≠ .Deactivated) : account.deletedAt = none :=
  foldEvents_deletedAt hok (by simp) hnone

/-- Nothing is created twice. -/
theorem foldEvents_not_created {account : Account} {result : Option Account}
    (hok : foldEvents (apply now) (some account) events = .ok result) :
    ∀ event ∈ events, event.event.isCreated = false := by
  induction events generalizing account with
  | nil => simp
  | cons first rest ih =>
      rw [foldEvents, List.foldlM_cons, Fallible.bind_eq_ok] at hok
      obtain ⟨middle, happly, hrest⟩ := hok
      obtain ⟨next, rfl, _⟩ := apply_ok happly
      intro event hevent
      rcases List.mem_cons.mp hevent with rfl | hmem
      · exact apply_some_not_created happly
      · exact ih hrest event hmem

end Account

end Emumet

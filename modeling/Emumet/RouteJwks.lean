import Emumet.LibRuns

/-! The cache of the issuer's signing keys. A key that is not cached makes `get_key` refresh the set, one
call at a time and not before an interval has passed since the last fetch. The time of the last fetch is
written when the key set is answered for, but not when the discovery before it fails. -/

namespace Emumet

namespace Jwks

/-- A monotonic clock, in nanoseconds. -/
abbrev Instant := Nat

abbrev Duration := Nat

inductive KeyAlgorithm where
  | RS256
  | other (name : String)
  deriving DecidableEq, Repr

/-- A key of the set; the decoding key is there if it can be built. -/
structure Jwk (κ : Type) where
  keyId : Option String
  keyAlgorithm : Option KeyAlgorithm
  decodingKey : Option κ

structure JwksCacheInner (κ : Type) where
  jwks : Option (List (Jwk κ))
  jwksUri : Option String
  lastFetch : Instant

variable {κ ι : Type} [DecidableEq ι]

def keyFromCache (inner : JwksCacheInner κ) (kid : String) : Option κ := do
  let jwks ← inner.jwks
  let jwk ← jwks.find? (·.keyId = some kid)
  match jwk.keyAlgorithm with
  | some algorithm => if algorithm ≠ .RS256 then none else jwk.decodingKey
  | none => jwk.decodingKey

/-- What a request meets. -/
inductive Response (α : Type) where
  | failed
  | unparsable
  | parsed (body : α)

/-- How far a call of `get_key` is. -/
inductive Phase (κ : Type) where
  | start
  | locking
  | rechecking
  | comparing
  | refetching
  | discovering
  | fetching (jwksUri : String) (discovered : Bool)
  | storing (jwksUri : String) (discovered : Bool) (jwks : List (Jwk κ))
  | noting (jwksUri : String) (discovered : Bool) (read : Instant)
  | storingUri (jwksUri : String)
  | lookingUp
  | returned (key : Option κ)

namespace Phase

/-- The call runs `try_init` or `fetch_jwks_inner`. -/
def refreshing : Phase κ → Bool
  | .discovering | .fetching .. | .storing .. | .noting .. | .storingUri _ => true
  | _ => false

/-- The call runs one of them and has not written the time of the fetch. -/
def unwritten : Phase κ → Bool
  | .discovering | .fetching .. | .storing .. | .noting .. => true
  | _ => false

/-- The call holds the refresh mutex. -/
def guarded : Phase κ → Bool
  | .start | .locking | .returned _ => false
  | _ => true

theorem guarded_of_unwritten {phase : Phase κ} (h : phase.unwritten = true) : phase.guarded = true := by
  cases phase <;> first | rfl | cases h

theorem guarded_of_refreshing {phase : Phase κ} (h : phase.refreshing = true) :
    phase.guarded = true := by
  cases phase <;> first | rfl | cases h

end Phase

/-- The attempts are the times at which calls began a refresh, the newest first. -/
structure State (κ ι : Type) where
  clock : Instant
  inner : JwksCacheInner κ
  holder : Option ι
  phase : ι → Phase κ
  attempts : List Instant

namespace State

def goto (s : State κ ι) (i : ι) (phase : Phase κ) : State κ ι :=
  { s with phase := Function.update s.phase i phase }

/-- The guard of the mutex is dropped on return. -/
def leave (s : State κ ι) (i : ι) (key : Option κ) : State κ ι :=
  { s.goto i (.returned key) with holder := none }

/-- Begin `try_init` or `fetch_jwks_inner`. -/
def begin (s : State κ ι) (i : ι) (phase : Phase κ) : State κ ι :=
  { s.goto i phase with attempts := s.clock :: s.attempts }

end State

/-- A step of a call, the time since the step before it, and the answer to a request. -/
structure Action (κ ι : Type) where
  call : ι
  delay : Duration
  discovery : Response String
  jwks : Response (List (Jwk κ))

/-- `try_init` goes on to write the URI that was discovered. -/
def afterFetch (jwksUri : String) (discovered : Bool) : Phase κ :=
  if discovered then .storingUri jwksUri else .lookingUp

/-- The next step of a call at the clock. -/
def next (minRefetchInterval : Duration) (kid : String) (s : State κ ι) (action : Action κ ι) :
    Phase κ → State κ ι
  | .start =>
      match keyFromCache s.inner kid with
      | some key => s.goto action.call (.returned (some key))
      | none => s.goto action.call .locking
  | .locking =>
      match s.holder with
      | none => { s.goto action.call .rechecking with holder := some action.call }
      | some _ => s
  | .rechecking =>
      match keyFromCache s.inner kid with
      | some key => s.leave action.call (some key)
      | none => s.goto action.call .comparing
  | .comparing =>
      if minRefetchInterval ≤ s.clock - s.inner.lastFetch then s.goto action.call .refetching
      else s.leave action.call none
  | .refetching =>
      match s.inner.jwksUri with
      | some uri => s.begin action.call (.fetching uri false)
      | none => s.begin action.call .discovering
  | .discovering =>
      match action.discovery with
      | .parsed uri => s.goto action.call (.fetching uri true)
      | .failed | .unparsable => s.goto action.call .lookingUp
  | .fetching uri discovered =>
      match action.jwks with
      | .parsed jwks => s.goto action.call (.storing uri discovered jwks)
      -- the time is read before the write lock is taken
      | .failed | .unparsable => s.goto action.call (.noting uri discovered s.clock)
  | .storing uri discovered jwks =>
      { s.goto action.call (afterFetch uri discovered) with
        inner := { s.inner with jwks := some jwks, lastFetch := s.clock } }
  | .noting uri discovered read =>
      { s.goto action.call (afterFetch uri discovered) with
        inner := { s.inner with lastFetch := read } }
  | .storingUri uri =>
      { s.goto action.call .lookingUp with inner := { s.inner with jwksUri := some uri } }
  | .lookingUp => s.leave action.call (keyFromCache s.inner kid)
  | .returned _ => s

/-- One call makes its next step. -/
def step (minRefetchInterval : Duration) (kids : ι → String) (s : State κ ι) (action : Action κ ι) :
    State κ ι :=
  next minRefetchInterval (kids action.call) { s with clock := s.clock + action.delay } action
    (s.phase action.call)

variable {minRefetchInterval : Duration} {kids : ι → String} {s : State κ ι} {action : Action κ ι} {i : ι}
  {phase : Phase κ}

/-! ### One refresh at a time -/

/-- A call that holds the mutex is its holder. -/
def Exclusive (s : State κ ι) : Prop := ∀ i, (s.phase i).guarded = true → s.holder = some i

theorem Exclusive.goto (h : Exclusive s) (hguard : phase.guarded = true → s.holder = some i) :
    Exclusive (s.goto i phase) := by
  intro j hguarded
  change (Function.update s.phase i phase j).guarded = true at hguarded
  by_cases hj : j = i
  · subst hj
    rw [Function.update_self] at hguarded
    exact hguard hguarded
  · rw [Function.update_of_ne hj] at hguarded
    exact h j hguarded

theorem Exclusive.leave (h : Exclusive s) (hholder : s.holder = some i) (key : Option κ) :
    Exclusive (s.leave i key) := by
  intro j hguarded
  change (Function.update s.phase i (.returned key) j).guarded = true at hguarded
  by_cases hj : j = i
  · subst hj
    rw [Function.update_self] at hguarded
    cases hguarded
  · rw [Function.update_of_ne hj] at hguarded
    exact absurd (Option.some.inj ((h j hguarded).symm.trans hholder)) hj

theorem Exclusive.acquire (h : Exclusive s) (hfree : s.holder = none) :
    Exclusive { s.goto i phase with holder := some i } := by
  intro j hguarded
  change (Function.update s.phase i phase j).guarded = true at hguarded
  by_cases hj : j = i
  · rw [hj]
  · rw [Function.update_of_ne hj] at hguarded
    exact absurd ((h j hguarded).symm.trans hfree) (Option.some_ne_none j)

theorem Exclusive.step (h : Exclusive s) (minRefetchInterval : Duration) (kids : ι → String)
    (action : Action κ ι) : Exclusive (step minRefetchInterval kids s action) := by
  have hself := h action.call
  unfold Jwks.step
  generalize htick : ({ s with clock := s.clock + action.delay } : State κ ι) = ticked
  have hticked : Exclusive ticked := by
    subst htick
    exact h
  have hholder : (s.phase action.call).guarded = true → ticked.holder = some action.call := by
    subst htick
    exact hself
  cases hphase : s.phase action.call with
  | start =>
      simp only [next]
      split <;> exact hticked.goto nofun
  | locking =>
      simp only [next]
      split
      · next hfree => exact hticked.acquire hfree
      · exact hticked
  | rechecking =>
      rw [hphase] at hholder
      simp only [next]
      split
      · exact hticked.leave (hholder rfl) _
      · exact hticked.goto fun _ => hholder rfl
  | comparing =>
      rw [hphase] at hholder
      simp only [next]
      split
      · exact hticked.goto fun _ => hholder rfl
      · exact hticked.leave (hholder rfl) _
  | refetching =>
      rw [hphase] at hholder
      simp only [next]
      split <;> exact hticked.goto fun _ => hholder rfl
  | discovering =>
      rw [hphase] at hholder
      simp only [next]
      split <;> exact hticked.goto fun _ => hholder rfl
  | fetching uri discovered =>
      rw [hphase] at hholder
      simp only [next]
      split <;> exact hticked.goto fun _ => hholder rfl
  | storing uri discovered jwks =>
      rw [hphase] at hholder
      exact hticked.goto fun _ => hholder rfl
  | noting uri discovered read =>
      rw [hphase] at hholder
      exact hticked.goto fun _ => hholder rfl
  | storingUri uri =>
      rw [hphase] at hholder
      exact hticked.goto fun _ => hholder rfl
  | lookingUp =>
      rw [hphase] at hholder
      exact hticked.leave (hholder rfl) _
  | returned key => exact hticked

omit [DecidableEq ι] in
theorem Exclusive.eq (h : Exclusive s) {i j : ι} (hi : (s.phase i).guarded = true)
    (hj : (s.phase j).guarded = true) : i = j :=
  Option.some.inj ((h i hi).symm.trans (h j hj))

/-! ### The interval between refreshes -/

/-- The newest refresh is in progress, or the time of the last fetch is not before it. -/
structure Rated (minRefetchInterval : Duration) (s : State κ ι) : Prop where
  past : ∀ t ∈ s.attempts.head?, t ≤ s.clock
  written : ∀ t ∈ s.attempts.head?, (∃ i, (s.phase i).unwritten = true) ∨ t ≤ s.inner.lastFetch
  noted : ∀ i uri discovered read, s.phase i = .noting uri discovered read →
    ∀ t ∈ s.attempts.head?, t ≤ read
  due : ∀ i, s.phase i = .refetching → ∀ t ∈ s.attempts.head?, t + minRefetchInterval ≤ s.clock
  separated : s.attempts.IsChain fun later earlier => earlier + minRefetchInterval ≤ later

omit [DecidableEq ι] in
theorem Rated.tick (h : Rated minRefetchInterval s) (delay : Duration) :
    Rated minRefetchInterval { s with clock := s.clock + delay } where
  past t ht := (h.past t ht).trans (Nat.le_add_right _ _)
  written := h.written
  noted := h.noted
  due i hphase t ht := (h.due i hphase t ht).trans (Nat.le_add_right _ _)
  separated := h.separated

/-- A step that begins no refresh. It ends one only if it writes a time that is not before it. -/
theorem Rated.move (h : Rated minRefetchInterval s) {inner : JwksCacheInner κ} {holder : Option ι}
    (hwritten : inner.lastFetch = s.inner.lastFetch ∧
        ((s.phase i).unwritten = true → phase.unwritten = true) ∨
      ∀ t ∈ s.attempts.head?, t ≤ inner.lastFetch)
    (hnoted : ∀ uri discovered read, phase = .noting uri discovered read →
      ∀ t ∈ s.attempts.head?, t ≤ read)
    (hdue : phase = .refetching → ∀ t ∈ s.attempts.head?, t + minRefetchInterval ≤ s.clock) :
    Rated minRefetchInterval
      { s with inner, holder, phase := Function.update s.phase i phase } where
  past := h.past
  written t ht := by
    rcases hwritten with ⟨hsame, hkept⟩ | hlater
    · rcases h.written t ht with ⟨j, hj⟩ | hbefore
      · refine .inl ⟨j, ?_⟩
        change (Function.update s.phase i phase j).unwritten = true
        by_cases hji : j = i
        · subst hji
          rw [Function.update_self]
          exact hkept hj
        · rw [Function.update_of_ne hji]
          exact hj
      · exact .inr (hsame ▸ hbefore)
    · exact .inr (hlater t ht)
  noted j uri discovered read hphase := by
    change Function.update s.phase i phase j = _ at hphase
    by_cases hji : j = i
    · subst hji
      rw [Function.update_self] at hphase
      exact hnoted uri discovered read hphase
    · rw [Function.update_of_ne hji] at hphase
      exact h.noted j uri discovered read hphase
  due j hphase := by
    change Function.update s.phase i phase j = _ at hphase
    by_cases hji : j = i
    · subst hji
      rw [Function.update_self] at hphase
      exact hdue hphase
    · rw [Function.update_of_ne hji] at hphase
      exact h.due j hphase
  separated := h.separated

/-- A refresh is begun by the holder of the mutex, when it is due. -/
theorem Rated.begin (h : Rated minRefetchInterval s) (hexclusive : Exclusive s)
    (hphase : s.phase i = .refetching) (hunwritten : phase.unwritten = true)
    (hnoting : ∀ uri discovered read, phase ≠ .noting uri discovered read) :
    Rated minRefetchInterval (s.begin i phase) := by
  have hguarded : (s.phase i).guarded = true := by
    rw [hphase]
    rfl
  have hothers : ∀ j, (Function.update s.phase i phase j).guarded = true →
      Function.update s.phase i phase j = phase := by
    intro j hj
    by_cases hji : j = i
    · subst hji
      exact Function.update_self ..
    · rw [Function.update_of_ne hji] at hj
      exact absurd (hexclusive.eq hj hguarded) hji
  refine ⟨?_, ?_, ?_, ?_, ?_⟩
  · rintro t ⟨⟩
    exact le_refl _
  · refine fun t _ => .inl ⟨i, ?_⟩
    change (Function.update s.phase i phase i).unwritten = true
    rw [Function.update_self]
    exact hunwritten
  · intro j uri discovered read hnoted
    change Function.update s.phase i phase j = _ at hnoted
    have hphase := hothers j (by rw [hnoted]; rfl)
    exact absurd (hphase.symm.trans hnoted) (hnoting uri discovered read)
  · intro j hdue
    change Function.update s.phase i phase j = _ at hdue
    have hphase := hothers j (by rw [hdue]; rfl)
    rw [← hphase, hdue] at hunwritten
    cases hunwritten
  · exact List.isChain_cons.mpr ⟨h.due i hphase, h.separated⟩

theorem add_le_of_elapsed {t interval last clock : Nat} (helapsed : interval ≤ clock - last)
    (hlast : t ≤ last) (hclock : t ≤ clock) : t + interval ≤ clock := by
  omega

omit [DecidableEq ι] in
/-- The time is compared by the holder of the mutex, so no refresh is in progress. -/
theorem Rated.due_of_elapsed (h : Rated minRefetchInterval s) (hexclusive : Exclusive s)
    (hphase : s.phase i = .comparing)
    (helapsed : minRefetchInterval ≤ s.clock - s.inner.lastFetch) :
    ∀ t ∈ s.attempts.head?, t + minRefetchInterval ≤ s.clock := by
  intro t ht
  have hpast := h.past t ht
  rcases h.written t ht with ⟨j, hj⟩ | hbefore
  · have hij : j = i := hexclusive.eq (Phase.guarded_of_unwritten hj) (by rw [hphase]; rfl)
    rw [hij, hphase] at hj
    cases hj
  · exact add_le_of_elapsed helapsed hbefore hpast

def Response.isParsed {α : Type} : Response α → Bool
  | .parsed _ => true
  | _ => false

def Phase.isDiscovering : Phase κ → Bool
  | .discovering => true
  | _ => false

/-- A discovery request of `get_key` is answered with a body that parses. -/
def Discovers (s : State κ ι) (action : Action κ ι) : Prop :=
  (s.phase action.call).isDiscovering = true → action.discovery.isParsed = true

theorem Rated.step (h : Rated minRefetchInterval s) (hexclusive : Exclusive s)
    (hdiscovers : Discovers s action) : Rated minRefetchInterval (step minRefetchInterval kids s action) := by
  unfold Jwks.step
  replace h := h.tick action.delay
  replace hexclusive : Exclusive { s with clock := s.clock + action.delay } := hexclusive
  replace hdiscovers : Discovers { s with clock := s.clock + action.delay } action := hdiscovers
  change Rated minRefetchInterval (next minRefetchInterval (kids action.call)
    { s with clock := s.clock + action.delay } action
    (({ s with clock := s.clock + action.delay } : State κ ι).phase action.call))
  generalize ({ s with clock := s.clock + action.delay } : State κ ι) = ticked at *
  -- a call that is not refreshing stays so
  have hquiet : ∀ {phase : Phase κ} {inner : JwksCacheInner κ} {holder : Option ι},
      (ticked.phase action.call).unwritten = false → inner.lastFetch = ticked.inner.lastFetch →
      (∀ uri discovered read, phase ≠ .noting uri discovered read) → phase ≠ .refetching →
      Rated minRefetchInterval { ticked with
        inner, holder, phase := Function.update ticked.phase action.call phase } :=
    fun hunwritten hsame hnoting hrefetching => h.move
      (.inl ⟨hsame, fun htrue => absurd htrue (Bool.eq_false_iff.mp hunwritten)⟩)
      (fun uri discovered read heq => absurd heq (hnoting uri discovered read))
      fun heq => absurd heq hrefetching
  cases hphase : ticked.phase action.call with
  | start =>
      rw [hphase] at hquiet
      simp only [next]
      split <;> exact hquiet rfl rfl nofun nofun
  | locking =>
      rw [hphase] at hquiet
      simp only [next]
      split
      · exact hquiet rfl rfl nofun nofun
      · exact h
  | rechecking =>
      rw [hphase] at hquiet
      simp only [next]
      split <;> exact hquiet rfl rfl nofun nofun
  | comparing =>
      simp only [next]
      split
      · next helapsed =>
          have hdue := h.due_of_elapsed hexclusive hphase helapsed
          exact h.move (.inl ⟨rfl, by rw [hphase]; exact nofun⟩) nofun fun _ => hdue
      · rw [hphase] at hquiet
        exact hquiet rfl rfl nofun nofun
  | refetching =>
      simp only [next]
      split <;> exact h.begin hexclusive hphase rfl nofun
  | discovering =>
      rw [Discovers, hphase] at hdiscovers
      simp only [next]
      split
      · exact h.move (.inl ⟨rfl, fun _ => rfl⟩) nofun nofun
      · next hfailed => rw [hfailed] at hdiscovers; cases hdiscovers rfl
      · next hfailed => rw [hfailed] at hdiscovers; cases hdiscovers rfl
  | fetching uri discovered =>
      simp only [next]
      split
      · exact h.move (.inl ⟨rfl, fun _ => rfl⟩) nofun nofun
      all_goals
        refine h.move (.inl ⟨rfl, fun _ => rfl⟩) (fun _ _ _ heq => ?_) nofun
        cases heq
        exact h.past
  | storing uri discovered jwks =>
      refine h.move (.inr h.past) (fun _ _ _ heq => ?_) fun heq => ?_
      all_goals
        unfold afterFetch at heq
        split_ifs at heq
  | noting uri discovered read =>
      refine h.move (.inr (h.noted action.call uri discovered read hphase)) (fun _ _ _ heq => ?_)
        fun heq => ?_
      all_goals
        unfold afterFetch at heq
        split_ifs at heq
  | storingUri uri =>
      rw [hphase] at hquiet
      exact hquiet rfl rfl nofun nofun
  | lookingUp =>
      rw [hphase] at hquiet
      exact hquiet rfl rfl nofun nofun
  | returned key => exact h

def Limited (minRefetchInterval : Duration) (s : State κ ι) : Prop :=
  Exclusive s ∧ Rated minRefetchInterval s

/-- No call has begun. -/
structure Fresh (s : State κ ι) : Prop where
  phase : ∀ i, s.phase i = .start
  attempts : s.attempts = []

/-- In every run of any number of calls at most one refreshes at a time, and if every discovery request
is answered, a refresh begins at least the interval after the one before it. -/
theorem refreshes_rate_limited (minRefetchInterval : Duration) (kids : ι → String) (start : State κ ι)
    (hfresh : Fresh start) (schedule : List (Action κ ι)) :
    let after := Runs.run (step minRefetchInterval kids) start schedule
    (∀ i j, (after.phase i).refreshing = true → (after.phase j).refreshing = true → i = j) ∧
      (Runs.Along (step minRefetchInterval kids) Discovers start schedule →
        after.attempts.IsChain fun later earlier => earlier + minRefetchInterval ≤ later) := by
  have hexclusive : Exclusive start := fun i hguarded => by
    rw [hfresh.phase i] at hguarded
    cases hguarded
  refine ⟨fun i j hi hj => ?_, fun hdiscovers => ?_⟩
  · have hafter : Exclusive (Runs.run (step minRefetchInterval kids) start schedule) :=
      Runs.run_invariant (fun s action h => h.step minRefetchInterval kids action) hexclusive schedule
    exact hafter.eq (Phase.guarded_of_refreshing hi) (Phase.guarded_of_refreshing hj)
  · have hrated : Rated minRefetchInterval start := by
      refine ⟨?_, ?_, ?_, ?_, ?_⟩
      all_goals simp [hfresh.attempts]
    have hafter : Limited minRefetchInterval (Runs.run (step minRefetchInterval kids) start schedule) :=
      hdiscovers.invariant (fun s action h hdiscover =>
        ⟨h.1.step minRefetchInterval kids action, h.2.step h.1 hdiscover⟩) ⟨hexclusive, hrated⟩
    exact hafter.2.separated

/-! ### Two calls with unknown keys -/

/-- The cache as it is before its first fetch, more than the interval ago. -/
def unfetched : State Nat (Fin 2) where
  clock := 61
  inner := { jwks := none, jwksUri := none, lastFetch := 0 }
  holder := none
  phase _ := .start
  attempts := []

/-- A step of a call one time unit later, with the given answer to the discovery and no key set. -/
def answered (discovery : Response String) (call : Fin 2) : Action Nat (Fin 2) :=
  { call, delay := 1, discovery, jwks := .failed }

/-- The refresh of each call fails when it fetches the key set; the second call begins a minute after the
first has ended, and refreshes. -/
theorem refreshes_rate_limited_failedFetch :
    let found := answered (.parsed "https://issuer.example/jwks")
    let schedule := List.replicate 10 (found 0) ++ { found 1 with delay := 60 } :: List.replicate 9 (found 1)
    let after := Runs.run (step 60 ![("a" : String), "b"]) unfetched schedule
    after.attempts = [135, 66] ∧
      after.attempts.IsChain fun later earlier => earlier + 60 ≤ later := by
  refine ⟨by decide +kernel, ?_⟩
  refine (refreshes_rate_limited 60 ![("a" : String), "b"] unfetched ⟨fun _ => rfl, rfl⟩ _).2 ?_
  unfold Discovers
  decide +kernel

/-- The discovery of each call fails, and the second refreshes seven time units after the first. -/
theorem failed_discovery_is_not_limited :
    let after := Runs.run (step 60 ![("a" : String), "b"]) unfetched
      ([0, 0, 0, 0, 0, 0, 0, 1, 1, 1, 1, 1].map (answered .failed))
    Fresh unfetched ∧ after.attempts = [73, 66] ∧
      ¬after.attempts.IsChain fun later earlier => earlier + 60 ≤ later := by
  refine ⟨⟨fun _ => rfl, rfl⟩, by decide +kernel, by decide +kernel⟩

end Jwks

end Emumet

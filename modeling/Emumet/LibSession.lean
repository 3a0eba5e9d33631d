import Mathlib

/-! Computations on a store that can fail. What a session wrote before it failed stays, unless it was
written atomically: an atomic block writes when it succeeds and not at all when it fails. -/

/-- A computation on a store of type `σ` with errors of type `ε`. -/
def Session (σ ε α : Type) : Type := σ → Except ε α × σ

namespace Session

variable {σ ε α β : Type}

instance : Monad (Session σ ε) where
  pure a := fun s => (.ok a, s)
  bind op f := fun s =>
    match op s with
    | (.ok a, s') => f a s'
    | (.error e, s') => (.error e, s')

/-- Fail or go on, without looking at the store. -/
def lift (x : Except ε α) : Session σ ε α := fun s => (x, s)

/-- A query. -/
def read (query : σ → Except ε α) : Session σ ε α := fun s => (query s, s)

/-- A block that takes effect as a whole or not at all. -/
def atomically (block : σ → Except ε (α × σ)) : Session σ ε α := fun s =>
  match block s with
  | .ok (a, s') => (.ok a, s')
  | .error e => (.error e, s)

/-- A block without a result. -/
def exec (block : σ → Except ε σ) : Session σ ε Unit :=
  atomically fun s => (block s).map fun s' => ((), s')

/-- Run a computation and go on with its outcome, whether it failed or not. -/
def attempt (op : Session σ ε α) : Session σ ε (Except ε α) := fun s =>
  match op s with
  | (result, s') => (.ok result, s')

theorem bind_assoc {γ : Type} (op : Session σ ε α) (f : α → Session σ ε β) (g : β → Session σ ε γ) :
    op >>= f >>= g = op >>= fun a => f a >>= g := by
  funext s
  change (match (match op s with
    | (.ok a, mid) => f a mid
    | (.error e, mid) => (.error e, mid)) with
    | (.ok b, mid) => g b mid
    | (.error e, mid) => (.error e, mid)) = match op s with
    | (.ok a, mid) => (f a >>= g) mid
    | (.error e, mid) => (.error e, mid)
  rcases op s with ⟨_ | a, mid⟩ <;> rfl

theorem bind_of_ok {op : Session σ ε α} {f : α → Session σ ε β} {s s' : σ} {a : α}
    (h : op s = (.ok a, s')) : (op >>= f) s = f a s' := by
  change (match op s with
    | (.ok a, mid) => f a mid
    | (.error e, mid) => (.error e, mid)) = _
  rw [h]

theorem bind_of_error {op : Session σ ε α} {f : α → Session σ ε β} {s s' : σ} {e : ε}
    (h : op s = (.error e, s')) : (op >>= f) s = (.error e, s') := by
  change (match op s with
    | (.ok a, mid) => f a mid
    | (.error e, mid) => (.error e, mid)) = _
  rw [h]

/-! ### Successful runs -/

theorem bind_eq_ok {op : Session σ ε α} {f : α → Session σ ε β} {s s' : σ} {b : β} :
    (op >>= f) s = (.ok b, s') ↔ ∃ a mid, op s = (.ok a, mid) ∧ f a mid = (.ok b, s') := by
  change (match op s with
    | (.ok a, mid) => f a mid
    | (.error e, mid) => (.error e, mid)) = _ ↔ _
  rcases op s with ⟨_ | a, mid⟩
  · simp
  · constructor
    · exact fun h => ⟨a, mid, rfl, h⟩
    · rintro ⟨_, _, ⟨⟩, h⟩
      exact h

theorem pure_eq_ok {a b : α} {s s' : σ} :
    (pure a : Session σ ε α) s = (.ok b, s') ↔ b = a ∧ s = s' := by
  change ((Except.ok a : Except ε α), s) = _ ↔ _
  simp [eq_comm]

theorem lift_eq_ok {x : Except ε α} {s s' : σ} {a : α} :
    lift x s = (.ok a, s') ↔ x = .ok a ∧ s = s' := by
  simp [lift]

theorem read_eq_ok {query : σ → Except ε α} {s s' : σ} {a : α} :
    read query s = (.ok a, s') ↔ query s = .ok a ∧ s = s' := by
  simp [read]

theorem atomically_eq_ok {block : σ → Except ε (α × σ)} {s s' : σ} {a : α} :
    atomically block s = (.ok a, s') ↔ block s = .ok (a, s') := by
  rcases hblock : block s with _ | ⟨_, _⟩ <;> simp [atomically, hblock]

theorem exec_eq_ok {block : σ → Except ε σ} {s s' : σ} {a : Unit} :
    exec block s = (.ok a, s') ↔ block s = .ok s' := by
  rcases hblock : block s with _ | _ <;> simp [exec, atomically, hblock, Except.map]

/-! ### Pre- and postconditions -/

/-- From a store with `P`, the computation ends with `Q` of its result, or fails with `E`. -/
def Triple (P : σ → Prop) (op : Session σ ε α) (Q : α → σ → Prop) (E : σ → Prop) : Prop :=
  ∀ s, P s →
    match op s with
    | (.ok a, s') => Q a s'
    | (.error _, s') => E s'

variable {P : σ → Prop} {Q : α → σ → Prop} {R : β → σ → Prop} {E : σ → Prop}
  {op : Session σ ε α} {f : α → Session σ ε β}

theorem Triple.pure {a : α} (h : ∀ s, P s → Q a s) : Triple P (pure a : Session σ ε α) Q E := h

theorem Triple.bind (hop : Triple P op Q E) (hf : ∀ a, Triple (Q a) (f a) R E) :
    Triple P (op >>= f) R E := by
  intro s hs
  have hfirst := hop s hs
  change match (match op s with
    | (.ok a, s') => f a s'
    | (.error e, s') => (.error e, s')) with
    | (.ok b, s') => R b s'
    | (.error _, s') => E s'
  rcases hrun : op s with ⟨_ | a, s'⟩
  · simpa [hrun] using hfirst
  · simp only [hrun] at hfirst
    exact hf a s' hfirst

theorem Triple.mono_error {E' : σ → Prop} (h : Triple P op Q E) (himp : ∀ s, E s → E' s) :
    Triple P op Q E' := by
  intro s hs
  have hop := h s hs
  rcases hrun : op s with ⟨_ | a, s'⟩
  · rw [hrun] at hop
    exact himp s' hop
  · rw [hrun] at hop
    exact hop

theorem Triple.assume {holds : Prop} (h : holds → Triple P op Q E) :
    Triple (fun s => P s ∧ holds) op Q E :=
  fun s hs => h hs.2 s hs.1

theorem Triple.lift {x : Except ε α} (hok : ∀ a s, x = .ok a → P s → Q a s)
    (herror : ∀ s, P s → E s) : Triple P (lift x) Q E := by
  intro s hs
  cases x with
  | error e => exact herror s hs
  | ok a => exact hok a s rfl hs

theorem Triple.read {query : σ → Except ε α} (hok : ∀ a s, P s → query s = .ok a → Q a s)
    (herror : ∀ s, P s → E s) : Triple P (read query) Q E := by
  intro s hs
  cases hquery : query s with
  | error e => simpa [Session.read, hquery] using herror s hs
  | ok a => simpa [Session.read, hquery] using hok a s hs hquery

theorem Triple.atomically {block : σ → Except ε (α × σ)}
    (hok : ∀ s a s', P s → block s = .ok (a, s') → Q a s') (herror : ∀ s, P s → E s) :
    Triple P (atomically block) Q E := by
  intro s hs
  rcases hblock : block s with _ | ⟨a, s'⟩
  · simpa [Session.atomically, hblock] using herror s hs
  · simpa [Session.atomically, hblock] using hok s a s' hs hblock

theorem Triple.exec {block : σ → Except ε σ} {Q : Unit → σ → Prop}
    (hok : ∀ s s', P s → block s = .ok s' → Q () s') (herror : ∀ s, P s → E s) :
    Triple P (exec block) Q E := by
  refine Triple.atomically ?_ herror
  intro s a s' hs hblock
  cases hresult : block s with
  | error e => simp [hresult, Except.map] at hblock
  | ok after =>
      simp only [hresult, Except.map, Except.ok.injEq, Prod.mk.injEq] at hblock
      exact hblock.2 ▸ hok s after hs hresult

/-- What holds of every outcome holds of the store after the run. -/
theorem Triple.run {Inv : σ → Prop} (h : Triple P op (fun _ => Inv) Inv) {s : σ} (hs : P s) :
    Inv (op s).2 := by
  have hop := h s hs
  rcases hrun : op s with ⟨_ | a, s'⟩ <;> simpa [hrun] using hop

/-! ### Relations between the stores before and after -/

/-- Every run moves the store along the relation, whether it fails or not. -/
def Moves (R : σ → σ → Prop) (op : Session σ ε α) : Prop := ∀ s, R s (op s).2

variable {R : σ → σ → Prop} [IsPreorder σ R]

theorem Moves.pure (a : α) : Moves R (pure a : Session σ ε α) := fun s => refl_of R s

theorem Moves.lift (x : Except ε α) : Moves R (lift x) := fun s => refl_of R s

theorem Moves.read (query : σ → Except ε α) : Moves R (read query) := fun s => refl_of R s

theorem Moves.bind (hop : Moves R op) (hf : ∀ a, Moves R (f a)) : Moves R (op >>= f) := by
  intro s
  have hfirst := hop s
  change R s (match op s with
    | (.ok a, s') => f a s'
    | (.error e, s') => (.error e, s')).2
  rcases hrun : op s with ⟨_ | a, s'⟩
  · simpa [hrun] using hfirst
  · simp only [hrun] at hfirst
    exact trans_of R hfirst (hf a s')

theorem Moves.atomically {block : σ → Except ε (α × σ)}
    (h : ∀ s a s', block s = .ok (a, s') → R s s') : Moves R (atomically block) := by
  intro s
  rcases hblock : block s with _ | ⟨a, s'⟩
  · simpa [Session.atomically, hblock] using refl_of R s
  · simpa [Session.atomically, hblock] using h s a s' hblock

theorem Moves.exec {block : σ → Except ε σ} (h : ∀ s s', block s = .ok s' → R s s') :
    Moves R (exec block) := by
  refine Moves.atomically ?_
  intro s a s' hblock
  cases hresult : block s with
  | error e => simp [hresult, Except.map] at hblock
  | ok after =>
      simp only [hresult, Except.map, Except.ok.injEq, Prod.mk.injEq] at hblock
      exact hblock.2 ▸ h s after hresult

theorem Moves.mono {R R' : σ → σ → Prop} (h : Moves R op) (himp : ∀ s s', R s s' → R' s s') :
    Moves R' op :=
  fun s => himp s _ (h s)

theorem Moves.attempt {R : σ → σ → Prop} (h : Moves R op) : Moves R (attempt op) := h

/-- What the relation preserves, a computation that moves along it preserves. -/
theorem Moves.triple {R : σ → σ → Prop} (h : Moves R op) (hclosed : ∀ s s', P s → R s s' → P s') :
    Triple P op (fun _ => P) P := by
  intro s hs
  have hafter := hclosed s _ hs (h s)
  rcases hrun : op s with ⟨_ | a, s'⟩ <;> simpa [hrun] using hafter

end Session

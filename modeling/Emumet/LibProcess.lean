import Emumet.LibRuns

/-! Processes that share a store. A process is a computation cut at its statements: each one reads and
writes the store at once, and between two of them any other process may run. What all the processes
guarantee of the store, each of them may rely on. -/

/-- A computation that has ended, or whose next statement writes the store and goes on. -/
inductive Process (σ α : Type) where
  | done (result : α)
  | statement (write : σ → σ) (next : σ → Process σ α)

namespace Process

variable {σ α β ι : Type}

/-- Run one statement. -/
def exec (op : σ → α × σ) : Process σ α := .statement (fun s => (op s).2) fun s => .done (op s).1

def bind : Process σ β → (β → Process σ α) → Process σ α
  | .done result, f => f result
  | .statement write next, f => .statement write fun s => bind (next s) f

instance : Monad (Process σ) where
  pure := done
  bind := bind

/-- Run all statements without another process in between. -/
def alone : Process σ α → σ → α × σ
  | .done result, s => (result, s)
  | .statement write next, s => alone (next s) (write s)

theorem alone_bind (process : Process σ β) (f : β → Process σ α) (s : σ) :
    alone (process >>= f) s = alone (f (alone process s).1) (alone process s).2 := by
  induction process generalizing s with
  | done result => rfl
  | statement write next ih => exact ih s (write s)

def result : Process σ α → Option α
  | .done result => some result
  | .statement _ _ => none

/-- However the others move the store along `R`, the process moves it along `R` too and ends with
`Post`. -/
def Safe (R : σ → σ → Prop) (Post : α → σ → Prop) : Process σ α → σ → Prop
  | .done result, s => ∀ s', R s s' → Post result s'
  | .statement write next, s => ∀ s', R s s' → R s' (write s') ∧ Safe R Post (next s') (write s')

variable {R : σ → σ → Prop} {Post : α → σ → Prop}

theorem Safe.pure {result : α} {s : σ} (h : ∀ s', R s s' → Post result s') :
    Safe R Post (pure result : Process σ α) s := h

theorem Safe.exec {op : σ → α × σ} {s : σ}
    (h : ∀ s', R s s' → R s' (op s').2 ∧ ∀ s'', R (op s').2 s'' → Post (op s').1 s'') :
    Safe R Post (exec op) s := h

theorem Safe.bind [Std.Refl R] {M : β → σ → Prop} {process : Process σ β} {f : β → Process σ α}
    {s : σ} (h : Safe R M process s) (hf : ∀ b s, M b s → Safe R Post (f b) s) :
    Safe R Post (process >>= f) s := by
  induction process generalizing s with
  | done b => exact hf b s (h s (refl_of R s))
  | statement write next ih =>
      intro s' hs'
      obtain ⟨hmoves, hnext⟩ := h s' hs'
      exact ⟨hmoves, ih s' hnext⟩

theorem Safe.later [IsTrans σ R] {process : Process σ α} {s s' : σ} (h : Safe R Post process s)
    (hlater : R s s') : Safe R Post process s' := by
  cases process with
  | done result => exact fun s'' hs'' => h s'' (trans_of R hlater hs'')
  | statement write next => exact fun s'' hs'' => h s'' (trans_of R hlater hs'')

/-- What no step along `R` destroys is still there at the end. -/
theorem Safe.frame {P : σ → Prop} (hP : ∀ s s', P s → R s s' → P s') {process : Process σ α} {s : σ}
    (h : Safe R Post process s) (hs : P s) : Safe R (fun a s => P s ∧ Post a s) process s := by
  induction process generalizing s with
  | done result => exact fun s' hs' => ⟨hP s s' hs hs', h s' hs'⟩
  | statement write next ih =>
      intro s' hs'
      obtain ⟨hmoves, hnext⟩ := h s' hs'
      exact ⟨hmoves, ih s' hnext (hP s' _ (hP s s' hs hs') hmoves)⟩

/-- The processes of a system and the store they share. -/
structure System (ι σ α : Type) where
  store : σ
  process : ι → Process σ α

variable [DecidableEq ι]

/-- One process runs its next statement. -/
def advance (system : System ι σ α) (i : ι) : System ι σ α :=
  match system.process i with
  | .done _ => system
  | .statement write next =>
      { store := write system.store
        process := Function.update system.process i (next system.store) }

theorem advance_safe [IsPreorder σ R] {Post : ι → α → σ → Prop} {system : System ι σ α}
    (h : ∀ i, Safe R (Post i) (system.process i) system.store) (i : ι) :
    (∀ j, Safe R (Post j) ((advance system i).process j) (advance system i).store) ∧
      R system.store (advance system i).store := by
  have hi := h i
  unfold advance
  cases hprocess : system.process i with
  | done result => exact ⟨h, refl_of R _⟩
  | statement write next =>
      rw [hprocess] at hi
      obtain ⟨hmoves, hnext⟩ := hi system.store (refl_of R _)
      refine ⟨fun j => ?_, hmoves⟩
      dsimp only
      by_cases hj : j = i
      · subst hj
        rw [Function.update_self]
        exact hnext
      · rw [Function.update_of_ne hj]
        exact (h j).later hmoves

/-- Processes that are safe at the start are safe after every schedule. -/
theorem run_safe [IsPreorder σ R] {Post : ι → α → σ → Prop} {system : System ι σ α}
    (h : ∀ i, Safe R (Post i) (system.process i) system.store) (schedule : List ι) (i : ι) :
    Safe R (Post i) ((Runs.run advance system schedule).process i)
      (Runs.run advance system schedule).store := by
  induction schedule generalizing system with
  | nil => exact h i
  | cons j rest ih => exact ih (advance_safe h j).1

/-- Safe processes move the store along `R`. -/
theorem run_moves [IsPreorder σ R] {Post : ι → α → σ → Prop} {system : System ι σ α}
    (h : ∀ i, Safe R (Post i) (system.process i) system.store) (schedule : List ι) :
    R system.store (Runs.run advance system schedule).store := by
  induction schedule generalizing system with
  | nil => exact refl_of R _
  | cons i rest ih => exact trans_of R (advance_safe h i).2 (ih (advance_safe h i).1)

/-- What a process that has ended returned meets its postcondition. -/
theorem post_of_result [IsPreorder σ R] {Post : ι → α → σ → Prop} {system : System ι σ α}
    (h : ∀ i, Safe R (Post i) (system.process i) system.store) {schedule : List ι} {i : ι} {a : α}
    (hresult : ((Runs.run advance system schedule).process i).result = some a) :
    Post i a (Runs.run advance system schedule).store := by
  have hsafe := run_safe h schedule i
  cases hprocess : (Runs.run advance system schedule).process i with
  | done result =>
      rw [hprocess] at hsafe hresult
      cases hresult
      exact hsafe _ (refl_of R _)
  | statement write next =>
      rw [hprocess] at hresult
      cases hresult

end Process

import Emumet.LibSession

/-! Stores that call each other. A call of one store runs up to the message it sends; the message is
handled elsewhere, and the call goes on with the answer. While it waits, any store may change, its own
included. -/

namespace Session

variable {ι σ ε μ α β : Type}

/-- A call after its first part: the message it sends, if any, and how it goes on with the answer. -/
structure Pending (σ ε μ α : Type) where
  message : Option μ
  resume : Option (Except ε Unit) → Session σ ε α

/-- The call when its message is answered at once. -/
def answered (deliver : μ → Except ε Unit) (call : Session σ ε (Pending σ ε μ α)) : Session σ ε α :=
  call >>= fun pending => pending.resume (pending.message.map deliver)

/-- A computation that sends nothing. -/
def silent (op : Session σ ε α) : Session σ ε (Pending σ ε μ α) :=
  op >>= fun a => pure { message := none, resume := fun _ => pure a }

theorem bind_pure (op : Session σ ε α) : (op >>= fun a => pure a) = op := by
  funext s
  rcases hop : op s with ⟨e | a, after⟩
  · exact bind_of_error hop
  · exact bind_of_ok hop

theorem answered_bind (deliver : μ → Except ε Unit) (op : Session σ ε β)
    (call : β → Session σ ε (Pending σ ε μ α)) :
    answered deliver (op >>= call) = op >>= fun b => answered deliver (call b) :=
  bind_assoc op call _

theorem answered_silent (deliver : μ → Except ε Unit) (op : Session σ ε α) :
    answered deliver (silent op) = op :=
  (bind_assoc op _ _).trans (bind_pure op)

variable [DecidableEq ι]

/-- A computation of one store among many. -/
def onStore (i : ι) (op : Session σ ε α) : Session (ι → σ) ε α := fun s =>
  ((op (s i)).1, Function.update s i (op (s i)).2)

/-- The call of one store among many, whose message is delivered by `send`. -/
def exchange (i : ι) (call : Session σ ε (Pending σ ε μ α)) (send : μ → Session (ι → σ) ε Unit) :
    Session (ι → σ) ε α :=
  onStore i call >>= fun pending =>
    match pending.message with
    | none => onStore i (pending.resume none)
    | some message => attempt (send message) >>= fun answer => onStore i (pending.resume (some answer))

variable {i : ι} {call : Session σ ε (Pending σ ε μ α)} {send : μ → Session (ι → σ) ε Unit}
  {s : ι → σ} {after : σ} {pending : Pending σ ε μ α}

theorem onStore_eq {op : Session σ ε α} {result : Except ε α} (h : op (s i) = (result, after)) :
    onStore i op s = (result, Function.update s i after) := by
  rw [onStore, h]

theorem exchange_of_error {e : ε} (h : call (s i) = (.error e, after)) :
    exchange i call send s = (.error e, Function.update s i after) :=
  bind_of_error (onStore_eq h)

theorem exchange_of_quiet (h : call (s i) = (.ok pending, after)) (hmessage : pending.message = none) :
    exchange i call send s = onStore i (pending.resume none) (Function.update s i after) := by
  refine (bind_of_ok (onStore_eq h)).trans ?_
  rw [hmessage]

theorem exchange_of_message {message : μ} {answer : Except ε Unit} {answered : ι → σ}
    (h : call (s i) = (.ok pending, after)) (hmessage : pending.message = some message)
    (hsend : send message (Function.update s i after) = (answer, answered)) :
    exchange i call send s = onStore i (pending.resume (some answer)) answered := by
  refine (bind_of_ok (onStore_eq h)).trans ?_
  rw [hmessage]
  refine bind_of_ok ?_
  rw [attempt, hsend]

/-- Where sending leaves the stores alone, the call goes on from where it was. -/
theorem exchange_of_ignored (h : call (s i) = (.ok pending, after))
    (hsend : ∀ message ∈ pending.message,
      (send message (Function.update s i after)).2 = Function.update s i after) :
    ∃ answer, exchange i call send s = onStore i (pending.resume answer) (Function.update s i after) := by
  cases hmessage : pending.message with
  | none => exact ⟨none, exchange_of_quiet h hmessage⟩
  | some message =>
      rcases hsent : send message (Function.update s i after) with ⟨answer, answered⟩
      have hsame := hsend message hmessage
      rw [hsent] at hsame
      obtain rfl : answered = _ := hsame
      exact ⟨some answer, exchange_of_message h hmessage hsent⟩

/-- Where every message is answered at once, the call is a computation of its store. -/
theorem exchange_lift (deliver : μ → Except ε Unit) (call : Session σ ε (Pending σ ε μ α)) :
    exchange i call (fun message => lift (deliver message)) s = onStore i (answered deliver call) s := by
  rcases hrun : call (s i) with ⟨e | pending, after⟩
  · have hanswered : answered deliver call (s i) = (.error e, after) := bind_of_error hrun
    rw [exchange_of_error hrun, onStore_eq hanswered]
  · have hanswered : answered deliver call (s i) =
        pending.resume (pending.message.map deliver) after := bind_of_ok hrun
    have hexchange : exchange i call (fun message => lift (deliver message)) s =
        onStore i (pending.resume (pending.message.map deliver)) (Function.update s i after) := by
      cases hmessage : pending.message with
      | none => exact exchange_of_quiet hrun hmessage
      | some message => exact exchange_of_message hrun hmessage rfl
    rw [hexchange, onStore, onStore, Function.update_self, Function.update_idem, hanswered]

theorem exchange_silent (op : Session σ ε α) : exchange i (silent op) send s = onStore i op s := by
  rcases hop : op (s i) with ⟨e | a, after⟩
  · have hsilent : (silent op : Session σ ε (Pending σ ε μ α)) (s i) = (.error e, after) :=
      bind_of_error hop
    exact (exchange_of_error hsilent).trans (onStore_eq hop).symm
  · have hsilent : (silent op : Session σ ε (Pending σ ε μ α)) (s i) =
        (.ok { message := none, resume := fun _ => pure a }, after) := bind_of_ok hop
    have hdone : (pure a : Session σ ε α) (Function.update s i after i) = (.ok a, after) := by
      rw [Function.update_self]
      rfl
    refine (exchange_of_quiet hsilent rfl).trans ((onStore_eq hdone).trans ?_)
    rw [Function.update_idem, onStore_eq hop]

/-- A call that fails wherever it is known to, and whose successful runs are known. -/
theorem Triple.of_ok {op : Session σ ε α} {P E : σ → Prop} {Q : α → σ → Prop}
    (hok : ∀ s a s', P s → op s = (.ok a, s') → Q a s') (herror : Triple P op (fun _ _ => True) E) :
    Triple P op Q E := by
  intro s hs
  have hop := herror s hs
  rcases hrun : op s with ⟨e | a, s'⟩
  · rw [hrun] at hop
    exact hop
  · exact hok s a s' hs hrun

variable {op : Session σ ε α} {f : α → Session σ ε β} {P E : σ → Prop} {Q : α → σ → Prop}
  {R : β → σ → Prop}

theorem Triple.lift_cases {x : Except ε α} (hok : ∀ a s, x = .ok a → P s → Q a s)
    (herror : ∀ e s, x = .error e → P s → E s) : Triple P (Session.lift x) Q E := by
  intro s hs
  cases x with
  | error e => exact herror e s rfl hs
  | ok a => exact hok a s rfl hs

theorem Triple.read_cases {query : σ → Except ε α} (hok : ∀ a s, query s = .ok a → P s → Q a s)
    (herror : ∀ e s, query s = .error e → P s → E s) : Triple P (Session.read query) Q E := by
  intro s hs
  cases hquery : query s with
  | error e => simpa [Session.read, hquery] using herror e s hquery hs
  | ok a => simpa [Session.read, hquery] using hok a s hquery hs

theorem Triple.exec_ok {change : σ → σ} {Q : Unit → σ → Prop} (h : ∀ s, P s → Q () (change s)) :
    Triple P (Session.exec fun s => (.ok (change s) : Except ε σ)) Q E := h

theorem Triple.mono {Q' : α → σ → Prop} {E' : σ → Prop} (h : Triple P op Q E) (hok : ∀ a s, Q a s → Q' a s)
    (herror : ∀ s, E s → E' s) : Triple P op Q' E' := by
  intro s hs
  have hop := h s hs
  rcases hrun : op s with ⟨e | a, s'⟩
  · rw [hrun] at hop
    exact herror s' hop
  · rw [hrun] at hop
    exact hok a s' hop

/-- A computation that fails only without a condition. -/
theorem Triple.exists_ok {op : Session σ ε Unit} {s : σ} {holds : Prop} {R E : σ → Prop}
    (h : Triple (· = s) op (fun _ => R) fun after => E after ∧ ¬holds) (hholds : holds) :
    ∃ last, op s = (.ok (), last) ∧ R last := by
  have hop := h s rfl
  rcases hrun : op s with ⟨e | a, last⟩
  · rw [hrun] at hop
    exact absurd hholds hop.2
  · rw [hrun] at hop
    exact ⟨last, rfl, hop⟩

end Session

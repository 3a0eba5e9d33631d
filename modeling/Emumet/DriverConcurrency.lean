import Emumet.DriverEventStore
import Emumet.LibRuns

/-! Concurrent appends to one stream under READ COMMITTED. A transaction is one insert and one commit.
The insert's sub-select sees the rows committed when it starts and takes no lock; a row becomes
visible to the others when its transaction commits. The key `(id, version)` cannot collide as long as
the generator returns no version twice. -/

namespace Emumet

namespace Concurrency

/-- What one transaction appends: its command and the values it draws. -/
structure Attempt (Event : Type) where
  command : CommandEnvelope Event
  version : EventVersion
  seq : Int

inductive Phase (Event : Type) where
  | idle
  | inserted (row : SeqEvent Event)
  | committed (row : SeqEvent Event)
  | failed (report : Report)
  deriving DecidableEq

/-- The row a transaction has added, committed or not. -/
def Phase.row {Event : Type} : Phase Event → Option (SeqEvent Event)
  | .inserted row => some row
  | .committed row => some row
  | _ => none

def Phase.isInserted {Event : Type} : Phase Event → Bool
  | .inserted _ => true
  | _ => false

structure State (ι Event : Type) where
  rows : List (SeqEvent Event)
  phase : ι → Phase Event

inductive Action (ι : Type) where
  | insert (i : ι)
  | commit (i : ι)

variable {ι : Type} [DecidableEq ι] {kind : Aggregate}

def State.setPhase {Event : Type} (s : State ι Event) (i : ι) (phase : Phase Event) :
    State ι Event :=
  { s with phase := Function.update s.phase i phase }

/-- Before any of the transactions has run. -/
def State.start {Event : Type} (rows : List (SeqEvent Event)) : State ι Event := ⟨rows, fun _ => .idle⟩

/-- A failed insert rolls its transaction back. -/
def step (attempts : ι → Attempt kind.Event) (s : State ι kind.Event) :
    Action ι → State ι kind.Event
  | .insert i =>
      match s.phase i with
      | .idle =>
          match kind.persistInternal s.rows (attempts i).command (attempts i).version
              (attempts i).seq with
          | .ok row => s.setPhase i (.inserted row)
          | .error report => s.setPhase i (.failed report)
      | _ => s
  | .commit i =>
      match s.phase i with
      | .inserted row => { s.setPhase i (.committed row) with rows := s.rows ++ [row] }
      | _ => s

/-- The transactions append to the same stream with the same expected version. -/
structure SameTarget (attempts : ι → Attempt kind.Event) (id : Int) (expected : ExpectedVersion) :
    Prop where
  id_eq : ∀ i, (attempts i).command.id = id
  expected_eq : ∀ i, (attempts i).command.prevVersion = some expected

/-- No version is drawn twice, and none is that of a row already stored. -/
structure FreshVersions (attempts : ι → Attempt kind.Event) (rows : List (SeqEvent kind.Event)) :
    Prop where
  injective : Function.Injective fun i => (attempts i).version
  unused : ∀ i, ∀ row ∈ rows, row.version ≠ (attempts i).version

/-- At most one transaction commits, and every other one that has run fails with a conflict. -/
def SingleWinner {Event : Type} (s : State ι Event) : Prop :=
  (∀ i row, s.phase i = .committed row →
      ∀ j, j ≠ i → s.phase j = .idle ∨
        ∃ report : Report, s.phase j = .failed report ∧ report.context = .Concurrency) ∧
    ∀ i report, s.phase i = .failed report → report.context = .Concurrency

/-- An insert starts while no other transaction holds an uncommitted row. -/
def InsertAlone {Event : Type} (s : State ι Event) : Action ι → Prop
  | .insert i => ∀ j, j ≠ i → (s.phase j).isInserted = false
  | .commit _ => True

instance {Event : Type} [Fintype ι] (s : State ι Event) :
    ∀ action, Decidable (InsertAlone s action)
  | .insert i => inferInstanceAs (Decidable (∀ j, j ≠ i → (s.phase j).isInserted = false))
  | .commit _ => isTrue trivial

/-! ### Inserts that start alone -/

variable {attempts : ι → Attempt kind.Event} {id : Int} {expected : ExpectedVersion}
  {rows : List (SeqEvent kind.Event)} {s : State ι kind.Event}

@[simp] theorem phase_setPhase {Event : Type} (s : State ι Event) (i j : ι) (phase : Phase Event) :
    (s.setPhase i phase).phase j = if j = i then phase else s.phase j := by
  simp [State.setPhase, Function.update_apply]

@[simp] theorem rows_setPhase {Event : Type} (s : State ι Event) (i : ι) (phase : Phase Event) :
    (s.setPhase i phase).rows = s.rows := rfl

omit [DecidableEq ι] in
/-- What holds between steps when no insert starts beside an uncommitted row. -/
structure Serial (attempts : ι → Attempt kind.Event) (id : Int) (expected : ExpectedVersion)
    (rows : List (SeqEvent kind.Event)) (s : State ι kind.Event) : Prop where
  /-- A row is one of those stored before, or was added by a transaction that committed it. -/
  origin : ∀ row ∈ s.rows, row ∈ rows ∨ ∃ i, s.phase i = .committed row
  drawn : ∀ i row, (s.phase i).row = some row → row.id = id ∧ row.version = (attempts i).version
  /-- Once a transaction has committed, the stream is no longer what the commands expect. -/
  closed : ∀ i row, s.phase i = .committed row →
    EventStore.guardHolds s.rows id (some expected) = false
  alone : ∀ i j, (s.phase i).row.isSome → (s.phase j).row.isSome → i = j
  failures : ∀ i report, s.phase i = .failed report → report = EventStore.conflict id

omit [DecidableEq ι] in
theorem Serial.start : Serial attempts id expected rows (State.start rows) := by
  refine ⟨fun row hrow => Or.inl hrow, ?_, ?_, ?_, ?_⟩
  · intro i row h
    cases h
  · intro i row h
    cases h
  · intro i j h
    cases h
  · intro i report h
    cases h

omit [DecidableEq ι] in
/-- A transaction that has not run yet cannot meet its own key in the table. -/
theorem Serial.key_unused (h : Serial attempts id expected rows s)
    (hfresh : FreshVersions attempts rows) {i : ι} (hidle : s.phase i = .idle) :
    ¬∃ row ∈ s.rows, row.id = (attempts i).command.id ∧ row.version = (attempts i).version := by
  rintro ⟨row, hrow, _, hversion⟩
  rcases h.origin row hrow with hold | ⟨j, hj⟩
  · exact hfresh.unused i row hold hversion
  · have hdrawn := (h.drawn j row (by simp [hj, Phase.row])).2
    have hij : j = i := hfresh.injective (hdrawn.symm.trans hversion)
    rw [hij, hidle] at hj
    cases hj

/-- What a step can do: nothing, fail with a conflict, insert while the guard holds, or commit. -/
theorem step_cases (h : Serial attempts id expected rows s) (hsame : SameTarget attempts id expected)
    (hfresh : FreshVersions attempts rows) (action : Action ι) :
    step attempts s action = s ∨
      (∃ i, action = .insert i ∧ s.phase i = .idle ∧
        step attempts s action = s.setPhase i (.failed (EventStore.conflict id))) ∨
      (∃ i row, action = .insert i ∧ s.phase i = .idle ∧ row.id = id ∧
        row.version = (attempts i).version ∧
        EventStore.guardHolds s.rows id (some expected) = true ∧
        step attempts s action = s.setPhase i (.inserted row)) ∨
      (∃ i row, action = .commit i ∧ s.phase i = .inserted row ∧
        step attempts s action = { s.setPhase i (.committed row) with rows := s.rows ++ [row] }) := by
  cases action with
  | insert i =>
      cases hphase : s.phase i with
      | idle =>
          have hcases := EventStore.persistInternal_cases s.rows (attempts i).command
            (attempts i).version (attempts i).seq
          rw [hsame.expected_eq i, ← kind.persistInternal_eq] at hcases
          rcases hcases with ⟨_, herror⟩ | ⟨hguard, hdup | hok⟩
          · refine Or.inr (Or.inl ⟨i, rfl, hphase, ?_⟩)
            simp only [step, hphase, herror, hsame.id_eq i]
          · exact absurd hdup (h.key_unused hfresh hphase)
          · refine Or.inr (Or.inr (Or.inl ⟨i, EventStore.insertedRow (attempts i).command
              (attempts i).version (attempts i).seq, rfl, hphase, hsame.id_eq i, rfl, ?_, ?_⟩))
            · rwa [hsame.id_eq i] at hguard
            · simp only [step, hphase, hok]
      | inserted row => exact Or.inl (by simp only [step, hphase])
      | committed row => exact Or.inl (by simp only [step, hphase])
      | failed report => exact Or.inl (by simp only [step, hphase])
  | commit i =>
      cases hphase : s.phase i with
      | inserted row =>
          exact Or.inr (Or.inr (Or.inr ⟨i, row, rfl, hphase, by simp only [step, hphase]⟩))
      | idle => exact Or.inl (by simp only [step, hphase])
      | committed row => exact Or.inl (by simp only [step, hphase])
      | failed report => exact Or.inl (by simp only [step, hphase])

omit [DecidableEq ι] in
/-- A row with a later version closes the guard of every command that expected the earlier state. -/
theorem guardHolds_append {row : SeqEvent kind.Event} (hid : row.id = id)
    (hlater : ∀ version, expected = .At version → version < row.version) :
    EventStore.guardHolds (rows ++ [row]) id (some expected) = false := by
  cases expected with
  | Nothing => simp [EventStore.guardHolds, hid]
  | At version =>
      have hne : EventStore.maxVersion (rows ++ [row]) id ≠ some version := by
        intro hmax
        have hle := EventStore.le_of_maxVersion hmax (by simp : row ∈ rows ++ [row]) hid
        exact absurd (hlater version rfl) hle.not_gt
      simpa [EventStore.guardHolds] using hne

theorem Serial.fail (h : Serial attempts id expected rows s) {i : ι} (hidle : s.phase i = .idle) :
    Serial attempts id expected rows (s.setPhase i (.failed (EventStore.conflict id))) := by
  refine ⟨?_, ?_, ?_, ?_, ?_⟩
  · intro row hrow
    refine (h.origin row hrow).imp_right ?_
    rintro ⟨j, hj⟩
    have hji : j ≠ i := by
      rintro rfl
      rw [hidle] at hj
      cases hj
    exact ⟨j, by simpa [hji] using hj⟩
  · intro j row hrow
    by_cases hji : j = i
    · simp [hji, Phase.row] at hrow
    · exact h.drawn j row (by simpa [hji] using hrow)
  · intro j row hj
    by_cases hji : j = i
    · simp [hji] at hj
    · exact h.closed j row (by simpa [hji] using hj)
  · intro j k hj hk
    by_cases hji : j = i
    · simp [hji, Phase.row] at hj
    · by_cases hki : k = i
      · simp [hki, Phase.row] at hk
      · exact h.alone j k (by simpa [hji] using hj) (by simpa [hki] using hk)
  · intro j report hj
    by_cases hji : j = i
    · simp only [phase_setPhase, hji, if_true, Phase.failed.injEq] at hj
      exact hj.symm
    · exact h.failures j report (by simpa [hji] using hj)

/-- The guard holds, so nobody has committed; nobody else has inserted; so the new row is alone. -/
theorem Serial.insert (h : Serial attempts id expected rows s) {i : ι} {row : SeqEvent kind.Event}
    (hidle : s.phase i = .idle) (hid : row.id = id) (hversion : row.version = (attempts i).version)
    (hguard : EventStore.guardHolds s.rows id (some expected) = true)
    (halone : InsertAlone s (.insert i)) :
    Serial attempts id expected rows (s.setPhase i (.inserted row)) := by
  have hnone : ∀ j, j ≠ i → (s.phase j).row = none := by
    intro j hji
    cases hphase : s.phase j with
    | idle => rfl
    | failed report => rfl
    | inserted other =>
        have hfalse := halone j hji
        rw [hphase] at hfalse
        cases hfalse
    | committed other =>
        rw [h.closed j other hphase] at hguard
        cases hguard
  have hcommitted : ∀ j other, s.phase j ≠ .committed other := by
    intro j other hj
    rw [h.closed j other hj] at hguard
    cases hguard
  have holder : ∀ j, ((s.setPhase i (.inserted row)).phase j).row.isSome → j = i := by
    intro j hj
    by_contra hji
    simp [hji, hnone j hji] at hj
  refine ⟨?_, ?_, ?_, ?_, ?_⟩
  · intro other hother
    refine (h.origin other hother).imp_right ?_
    rintro ⟨j, hj⟩
    exact absurd hj (hcommitted j other)
  · intro j other hother
    obtain rfl := holder j (by rw [hother, Option.isSome_some])
    simp only [phase_setPhase, if_true, Phase.row, Option.some.injEq] at hother
    exact hother ▸ ⟨hid, hversion⟩
  · intro j other hj
    by_cases hji : j = i
    · simp [hji] at hj
    · exact absurd (by simpa [hji] using hj) (hcommitted j other)
  · intro j k hj hk
    rw [holder j hj, holder k hk]
  · intro j report hj
    by_cases hji : j = i
    · simp [hji] at hj
    · exact h.failures j report (by simpa [hji] using hj)

theorem Serial.commit (h : Serial attempts id expected rows s)
    (hlater : ∀ i version, expected = .At version → version < (attempts i).version) {i : ι}
    {row : SeqEvent kind.Event} (hinserted : s.phase i = .inserted row) :
    Serial attempts id expected rows
      { s.setPhase i (.committed row) with rows := s.rows ++ [row] } := by
  obtain ⟨hid, hversion⟩ := h.drawn i row (by rw [hinserted, Phase.row])
  -- A commit moves the row from one phase to the other, so who holds which row stays as it was.
  have hrow : ∀ j, ((s.setPhase i (.committed row)).phase j).row = (s.phase j).row := by
    intro j
    by_cases hji : j = i
    · simp [hji, hinserted, Phase.row]
    · simp [hji]
  refine ⟨?_, ?_, ?_, ?_, ?_⟩
  · intro other hother
    rcases List.mem_append.mp hother with hold | hnew
    · refine (h.origin other hold).imp_right ?_
      rintro ⟨j, hj⟩
      have hji : j ≠ i := by
        rintro rfl
        rw [hinserted] at hj
        cases hj
      exact ⟨j, by simpa [hji] using hj⟩
    · exact Or.inr ⟨i, by simp [List.mem_singleton.mp hnew]⟩
  · intro j other hother
    exact h.drawn j other (hrow j ▸ hother)
  · intro _ _ _
    exact guardHolds_append hid fun version hexpected => hversion ▸ hlater i version hexpected
  · intro j k hj hk
    exact h.alone j k (hrow j ▸ hj) (hrow k ▸ hk)
  · intro j report hj
    by_cases hji : j = i
    · simp [hji] at hj
    · exact h.failures j report (by simpa [hji] using hj)

theorem Serial.step (hsame : SameTarget attempts id expected) (hfresh : FreshVersions attempts rows)
    (hlater : ∀ i version, expected = .At version → version < (attempts i).version)
    (s : State ι kind.Event) (action : Action ι) (h : Serial attempts id expected rows s)
    (halone : InsertAlone s action) :
    Serial attempts id expected rows (step attempts s action) := by
  rcases step_cases h hsame hfresh action with heq | ⟨i, rfl, hidle, heq⟩ |
    ⟨i, row, rfl, hidle, hid, hversion, hguard, heq⟩ | ⟨i, row, rfl, hinserted, heq⟩
  · rwa [heq]
  · rw [heq]
    exact h.fail hidle
  · rw [heq]
    exact h.insert hidle hid hversion hguard halone
  · rw [heq]
    exact h.commit hlater hinserted

omit [DecidableEq ι] in
theorem Serial.singleWinner (h : Serial attempts id expected rows s) : SingleWinner s := by
  have hconflict : ∀ i report, s.phase i = .failed report → report.context = .Concurrency := by
    intro i report hi
    rw [h.failures i report hi]
    rfl
  refine ⟨?_, hconflict⟩
  intro i row hi j hji
  have hnone : (s.phase j).row.isSome → False := fun hj =>
    hji (h.alone j i hj (by rw [hi, Phase.row, Option.isSome_some]))
  cases hj : s.phase j with
  | idle => exact Or.inl rfl
  | failed report => exact Or.inr ⟨report, rfl, hconflict j report hj⟩
  | inserted other => exact absurd (by rw [hj]; rfl) hnone
  | committed other => exact absurd (by rw [hj]; rfl) hnone

/-- Appends to one stream with one expected version have a single winner in every state of every run
whose inserts start alone, provided versions are drawn in increasing order. -/
theorem appends_have_single_winner (kind : Aggregate) (attempts : ι → Attempt kind.Event) (id : Int)
    (expected : ExpectedVersion) (rows : List (SeqEvent kind.Event))
    (hsame : SameTarget attempts id expected) (hfresh : FreshVersions attempts rows)
    (hlater : ∀ i version, expected = .At version → version < (attempts i).version)
    (actions : List (Action ι))
    (halone : Runs.Along (step attempts) InsertAlone (State.start rows) actions) :
    SingleWinner (Runs.run (step attempts) (State.start rows) actions) :=
  (halone.invariant (Serial.step hsame hfresh hlater) Serial.start).singleWinner

/-! ### The race -/

/-- One account, created at version 10. -/
def raceRows : List (SeqEvent (Aggregate.Event .account)) :=
  [⟨1, ⟨7, .Created "alice" false "alice-nanoid" 3, 10⟩⟩]

/-- Two updates of it that were both loaded at version 10. -/
def raceAttempts (i : Bool) : Attempt (Aggregate.Event .account) :=
  ⟨Account.update 7 i 10, bif i then 21 else 20, bif i then 3 else 2⟩

theorem sameTarget_raceAttempts : SameTarget raceAttempts 7 (.At 10) := ⟨by decide, by decide⟩

theorem freshVersions_raceAttempts : FreshVersions raceAttempts raceRows := by
  refine ⟨?_, by decide⟩
  intro i j hij
  revert i j
  decide

/-- One transaction after the other: the second meets the first one's version. -/
theorem serial_appends_have_single_winner :
    Runs.Along (step raceAttempts) InsertAlone (State.start raceRows)
        [.insert false, .commit false, .insert true, .commit true] ∧
      SingleWinner (Runs.run (step raceAttempts) (State.start raceRows)
        [.insert false, .commit false, .insert true, .commit true]) := by
  have hlater : ∀ i version, ExpectedVersion.At 10 = .At version →
      version < (raceAttempts i).version := by
    rintro i version ⟨rfl⟩
    cases i <;> decide
  exact ⟨by decide, appends_have_single_winner .account raceAttempts 7 (.At 10) raceRows
    sameTarget_raceAttempts freshVersions_raceAttempts hlater _ (by decide)⟩

/-- Both updates read version 10 as the last one before either commits, and both commit. -/
theorem racing_appends_both_commit :
    SameTarget raceAttempts 7 (.At 10) ∧ FreshVersions raceAttempts raceRows ∧
      ¬SingleWinner (Runs.run (step raceAttempts) (State.start raceRows)
        [.insert false, .insert true, .commit false, .commit true]) := by
  refine ⟨sameTarget_raceAttempts, freshVersions_raceAttempts, ?_⟩
  rintro ⟨hwinner, _⟩
  rcases hwinner false ⟨2, ⟨7, .Updated false, 20⟩⟩ rfl true (by decide) with hidle | ⟨_, hfailed, _⟩
  · cases hidle
  · cases hfailed

end Concurrency

end Emumet

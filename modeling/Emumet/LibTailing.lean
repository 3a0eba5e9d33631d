import Mathlib

/-! Tailing a log by a sequence number. A poll reads the rows above `checkpoint - margin` in sequence
order, at most `limit` of them, and moves the checkpoint to the last row read. Sequence numbers are
handed out before rows become visible, so a row may appear below the checkpoint; the margin is what
lets a later poll still read it. -/

namespace Tailing

variable {ρ : Type} (seq : ρ → Int)

/-- The rows above `low` in sequence order. -/
def above (log : List ρ) (low : Int) : List ρ :=
  (log.filter fun row => low < seq row).insertionSort fun a b => seq a ≤ seq b

/-- The first `limit` rows above `low` in sequence order. -/
def window (log : List ρ) (low : Int) (limit : Nat) : List ρ := (above seq log low).take limit

/-- The sequence number of the last row read, or a default when nothing was read. -/
def lastSeq (rows : List ρ) (default : Int) : Int := (rows.getLast?.map seq).getD default

/-- Rows have pairwise different sequence numbers. -/
def Distinct (log : List ρ) : Prop := (log.map seq).Nodup

instance (log : List ρ) : Decidable (Distinct seq log) :=
  inferInstanceAs (Decidable (log.map seq).Nodup)

theorem mem_above {log : List ρ} {low : Int} {row : ρ} :
    row ∈ above seq log low ↔ row ∈ log ∧ low < seq row := by
  rw [above, List.mem_insertionSort, List.mem_filter, decide_eq_true_eq]

theorem mem_of_mem_window {log : List ρ} {low : Int} {limit : Nat} {row : ρ}
    (h : row ∈ window seq log low limit) : row ∈ log ∧ low < seq row :=
  (mem_above seq).mp (List.mem_of_mem_take h)

theorem above_sorted {log : List ρ} (hlog : Distinct seq log) (low : Int) :
    (above seq log low).Pairwise fun a b => seq a < seq b := by
  have hle : (above seq log low).Pairwise fun a b => seq a ≤ seq b := by
    have : Std.Total fun a b : ρ => seq a ≤ seq b := ⟨fun a b => le_total (seq a) (seq b)⟩
    have : IsTrans ρ fun a b : ρ => seq a ≤ seq b := ⟨fun _ _ _ => le_trans⟩
    exact List.pairwise_insertionSort _ _
  have hne : (above seq log low).Pairwise fun a b => seq a ≠ seq b := by
    rw [← List.pairwise_map (f := seq) (R := fun x y => x ≠ y)]
    have hperm : ((above seq log low).map seq).Perm ((log.filter fun row => low < seq row).map seq) :=
      (List.perm_insertionSort _ _).map seq
    exact hperm.nodup_iff.mpr (hlog.sublist (List.filter_sublist.map seq))
  exact (hle.and hne).imp fun h => lt_of_le_of_ne h.1 h.2

theorem window_sorted {log : List ρ} (hlog : Distinct seq log) (low : Int) (limit : Nat) :
    (window seq log low limit).Pairwise fun a b => seq a < seq b :=
  (above_sorted seq hlog low).sublist (List.take_sublist _ _)

/-- A row above `low` that is not read is left out by the limit alone, after every row that is. -/
theorem window_full_of_not_mem {log : List ρ} (hlog : Distinct seq log) {low : Int} {limit : Nat}
    {row : ρ} (hrow : row ∈ log) (hlow : low < seq row) (hnot : row ∉ window seq log low limit) :
    (window seq log low limit).length = limit ∧
      ∀ read ∈ window seq log low limit, seq read < seq row := by
  have hmem : row ∈ (above seq log low).take limit ++ (above seq log low).drop limit := by
    rw [List.take_append_drop]
    exact (mem_above seq).mpr ⟨hrow, hlow⟩
  have hdrop : row ∈ (above seq log low).drop limit :=
    (List.mem_append.mp hmem).resolve_left hnot
  constructor
  · have hpos := List.length_pos_of_mem hdrop
    rw [List.length_drop] at hpos
    rw [window, List.length_take]
    omega
  · intro read hread
    have hsorted := above_sorted seq hlog low
    rw [← List.take_append_drop limit (above seq log low), List.pairwise_append] at hsorted
    exact hsorted.2.2 read hread row hdrop

theorem le_lastSeq {rows : List ρ} (hrows : rows.Pairwise fun a b => seq a < seq b) (default : Int)
    {row : ρ} (hrow : row ∈ rows) : seq row ≤ lastSeq seq rows default := by
  obtain ⟨front, last, rfl⟩ : ∃ front last, rows = front ++ [last] := by
    rcases List.eq_nil_or_concat rows with rfl | ⟨front, last, h⟩
    · cases hrow
    · exact ⟨front, last, by simpa using h⟩
  have hlast : lastSeq seq (front ++ [last]) default = seq last := by simp [lastSeq]
  rw [hlast]
  rcases List.mem_append.mp hrow with hfront | heq
  · exact ((List.pairwise_append.mp hrows).2.2 row hfront last (by simp)).le
  · rw [List.mem_singleton.mp heq]

theorem exists_lastSeq {rows : List ρ} (hrows : rows ≠ []) (default : Int) :
    ∃ row ∈ rows, lastSeq seq rows default = seq row :=
  ⟨rows.getLast hrows, List.getLast_mem hrows, by simp [lastSeq, List.getLast?_eq_getLast_of_ne_nil hrows]⟩

/-- Distinct integers above `low` in increasing order end at least their number above it. -/
theorem add_length_le_lastSeq {rows : List ρ} (hrows : rows.Pairwise fun a b => seq a < seq b)
    {low : Int} (hlow : ∀ row ∈ rows, low < seq row) {default : Int} (hdefault : low ≤ default) :
    low + rows.length ≤ lastSeq seq rows default := by
  induction rows generalizing low default with
  | nil => simpa [lastSeq] using hdefault
  | cons row rows ih =>
      obtain ⟨hhead, htail⟩ := List.pairwise_cons.mp hrows
      have hrow := hlow row (by simp)
      have hrest := ih htail hhead (le_refl (seq row))
      have hlast : lastSeq seq (row :: rows) default = lastSeq seq rows (seq row) := by
        cases rows with
        | nil => simp [lastSeq]
        | cons next rest => simp [lastSeq, List.getLast?_cons]
      rw [hlast]
      push_cast [List.length_cons]
      omega

/-- A row at most `limit` above `low` is always read: fewer than `limit` rows stand before it. -/
theorem mem_window_of_le {log : List ρ} (hlog : Distinct seq log) {low : Int} {limit : Nat} {row : ρ}
    (hrow : row ∈ log) (hlow : low < seq row) (hle : seq row ≤ low + limit) :
    row ∈ window seq log low limit := by
  by_contra hnot
  obtain ⟨hlength, hbefore⟩ := window_full_of_not_mem seq hlog hrow hlow hnot
  have hcount := add_length_le_lastSeq seq (window_sorted seq hlog low limit)
    (fun read hread => (mem_of_mem_window seq hread).2) (le_refl low)
  rw [hlength] at hcount
  by_cases hempty : window seq log low limit = []
  · rw [hempty, List.length_nil] at hlength
    omega
  · obtain ⟨last, hlast, heq⟩ := exists_lastSeq seq hempty low
    have := hbefore last hlast
    omega

/-- What a poll reads is an interval of the log: everything above `low` up to its last row. -/
theorem mem_window_iff {log : List ρ} (hlog : Distinct seq log) {low : Int} {limit : Nat} {row : ρ}
    (hrow : row ∈ log) (hne : window seq log low limit ≠ []) (default : Int) :
    row ∈ window seq log low limit ↔
      low < seq row ∧ seq row ≤ lastSeq seq (window seq log low limit) default := by
  constructor
  · intro h
    exact ⟨(mem_of_mem_window seq h).2, le_lastSeq seq (window_sorted seq hlog low limit) default h⟩
  · rintro ⟨hlow, hle⟩
    by_contra hnot
    obtain ⟨last, hlast, heq⟩ := exists_lastSeq seq hne default
    have := (window_full_of_not_mem seq hlog hrow hlow hnot).2 last hlast
    omega

/-! ### Polling -/

/-- A log with the stored position of its reader; a position that was never stored counts as 0. -/
structure Log (ρ : Type) where
  rows : List ρ
  checkpoint : Option Int

namespace Log

def position (log : Log ρ) : Int := log.checkpoint.getD 0

/-- The rows a poll reads. -/
def batch (margin limit : Nat) (log : Log ρ) : List ρ :=
  window seq log.rows (log.position - margin) limit

/-- Store a position unless a greater one is stored. -/
def advance (checkpoint : Option Int) (last : Int) : Int :=
  match checkpoint with
  | none => last
  | some stored => max stored last

/-- One poll: the log after it and the position it returns. -/
def poll (margin limit : Nat) (log : Log ρ) : Log ρ × Int :=
  let rows := batch seq margin limit log
  if rows.isEmpty then (log, log.position)
  else
    let last := lastSeq seq rows log.position
    ({ log with checkpoint := some (advance log.checkpoint last) }, last)

/-- Sequence numbers are distinct and positive, and the stored position is that of a visible row. -/
structure Sound (log : Log ρ) : Prop where
  distinct : Distinct seq log.rows
  positive : ∀ row ∈ log.rows, 0 < seq row
  attained : ∀ stored, log.checkpoint = some stored → ∃ row ∈ log.rows, seq row = stored

variable {seq} {margin limit : Nat} {log : Log ρ}

/-- The row of the stored position is read again, so a poll never ends below it. -/
theorem Sound.position_le_lastSeq (h : Sound seq log) (hpos : 0 < margin) (hle : margin ≤ limit)
    (hne : batch seq margin limit log ≠ []) :
    log.position ≤ lastSeq seq (batch seq margin limit log) log.position := by
  cases hstored : log.checkpoint with
  | none =>
      obtain ⟨row, hrow, heq⟩ := exists_lastSeq seq hne log.position
      have := h.positive row (mem_of_mem_window seq hrow).1
      simp only [position, hstored, Option.getD_none] at heq ⊢
      omega
  | some stored =>
      obtain ⟨row, hrow, hseq⟩ := h.attained stored hstored
      have hposition : log.position = seq row := by simp [position, hstored, hseq]
      have hmem : row ∈ batch seq margin limit log := by
        apply mem_window_of_le seq h.distinct hrow <;> omega
      rw [hposition]
      exact le_lastSeq seq (window_sorted seq h.distinct _ _) _ hmem

theorem position_poll_of_ne_nil (hne : batch seq margin limit log ≠ []) :
    (poll seq margin limit log).1.position =
      advance log.checkpoint (lastSeq seq (batch seq margin limit log) log.position) := by
  simp [poll, hne, position]

/-- After a poll that read something the stored position is the last row read. -/
theorem Sound.position_poll (h : Sound seq log) (hpos : 0 < margin) (hle : margin ≤ limit)
    (hne : batch seq margin limit log ≠ []) :
    (poll seq margin limit log).1.position =
      lastSeq seq (batch seq margin limit log) log.position := by
  have hlast := h.position_le_lastSeq hpos hle hne
  rw [position_poll_of_ne_nil hne]
  cases hstored : log.checkpoint with
  | none => rfl
  | some stored =>
      have hposition : log.position = stored := by simp [position, hstored]
      exact max_eq_right (hposition ▸ hlast)

/-- A poll returns the position stored after it. -/
theorem Sound.poll_returns (h : Sound seq log) (hpos : 0 < margin) (hle : margin ≤ limit) :
    (poll seq margin limit log).2 = (poll seq margin limit log).1.position := by
  by_cases hne : batch seq margin limit log = []
  · simp [poll, hne]
  · rw [h.position_poll hpos hle hne]
    simp [poll, hne]

theorem Sound.position_le_poll (h : Sound seq log) (hpos : 0 < margin) (hle : margin ≤ limit) :
    log.position ≤ (poll seq margin limit log).1.position := by
  by_cases hne : batch seq margin limit log = []
  · simp [poll, hne]
  · rw [h.position_poll hpos hle hne]
    exact h.position_le_lastSeq hpos hle hne

/-- A visible row above the margin is read, or the batch is full and ends below it. -/
theorem Sound.covered (h : Sound seq log) (hpos : 0 < margin) (hle : margin ≤ limit) {row : ρ}
    (hrow : row ∈ log.rows) (hlow : log.position - margin < seq row) :
    row ∈ batch seq margin limit log ∨
      ((batch seq margin limit log).length = limit ∧
        (poll seq margin limit log).1.position < seq row) := by
  by_cases hmem : row ∈ batch seq margin limit log
  · exact Or.inl hmem
  · obtain ⟨hlength, hbefore⟩ := window_full_of_not_mem seq h.distinct hrow hlow hmem
    have hne : batch seq margin limit log ≠ [] := by
      intro hempty
      rw [show window seq log.rows (log.position - margin) limit = [] from hempty,
        List.length_nil] at hlength
      omega
    obtain ⟨last, hlast, heq⟩ := exists_lastSeq seq hne log.position
    refine Or.inr ⟨hlength, ?_⟩
    rw [h.position_poll hpos hle hne, heq]
    exact hbefore last hlast

/-- A full batch moves the position by at least what it holds beyond the margin. -/
theorem Sound.full_advance (h : Sound seq log) (hpos : 0 < margin) (hle : margin ≤ limit)
    (hfull : (batch seq margin limit log).length = limit) :
    log.position + (limit - margin) ≤ (poll seq margin limit log).1.position := by
  have hne : batch seq margin limit log ≠ [] := by
    intro hempty
    rw [hempty, List.length_nil] at hfull
    omega
  rw [h.position_poll hpos hle hne]
  have hcount := add_length_le_lastSeq seq
    (window_sorted seq h.distinct (log.position - margin) limit)
    (fun read hread => (mem_of_mem_window seq hread).2)
    (show log.position - margin ≤ log.position by omega)
  rw [show (window seq log.rows (log.position - margin) limit).length = limit from hfull] at hcount
  simp only [batch]
  omega

/-- A poll that does not move the position has read the log to its end. -/
theorem Sound.drained (h : Sound seq log) (hpos : 0 < margin) (hlt : margin < limit)
    (hstays : (poll seq margin limit log).1.position = log.position) {row : ρ}
    (hrow : row ∈ log.rows) : seq row ≤ log.position := by
  by_contra habove
  rcases h.covered hpos hlt.le hrow (by omega) with hread | ⟨hfull, _⟩
  · have hne : batch seq margin limit log ≠ [] := List.ne_nil_of_mem hread
    have hlast := le_lastSeq seq (window_sorted seq h.distinct _ _) log.position hread
    rw [h.position_poll hpos hlt.le hne, batch] at hstays
    omega
  · have hadvance := h.full_advance hpos hlt.le hfull
    omega

theorem Sound.poll (h : Sound seq log) : Sound seq (poll seq margin limit log).1 := by
  by_cases hne : batch seq margin limit log = []
  · simpa [Log.poll, hne] using h
  · refine ⟨by simpa [Log.poll, hne] using h.distinct, by simpa [Log.poll, hne] using h.positive, ?_⟩
    intro stored hstored
    obtain ⟨last, hlast, heq⟩ := exists_lastSeq seq hne log.position
    have hlastRow := (mem_of_mem_window seq hlast).1
    simp only [Log.poll, List.isEmpty_iff, hne, if_false, Option.some.injEq] at hstored ⊢
    rw [heq] at hstored
    cases hold : log.checkpoint with
    | none =>
        simp only [hold, advance] at hstored
        exact ⟨last, hlastRow, hstored⟩
    | some old =>
        simp only [hold, advance] at hstored
        rcases max_choice old (seq last) with hmax | hmax
        · obtain ⟨row, hrow, hrowSeq⟩ := h.attained old hold
          exact ⟨row, hrow, by rw [hrowSeq, ← hstored, hmax]⟩
        · exact ⟨last, hlastRow, by rw [← hstored, hmax]⟩

/-- A new visible row with a fresh positive sequence number. -/
theorem Sound.reveal (h : Sound seq log) {row : ρ} (hpos : 0 < seq row)
    (hfresh : ∀ other ∈ log.rows, seq other ≠ seq row) :
    Sound seq { log with rows := row :: log.rows } := by
  refine ⟨?_, ?_, ?_⟩
  · rw [Distinct, List.map_cons, List.nodup_cons]
    refine ⟨?_, h.distinct⟩
    rintro hmem
    obtain ⟨other, hother, heq⟩ := List.mem_map.mp hmem
    exact hfresh other hother heq
  · intro other hother
    rcases List.mem_cons.mp hother with rfl | hmem
    · exact hpos
    · exact h.positive other hmem
  · intro stored hstored
    obtain ⟨other, hother, heq⟩ := h.attained stored hstored
    exact ⟨other, List.mem_cons_of_mem _ hother, heq⟩

end Log

end Tailing

import Emumet.LibTailing
import Emumet.LibRuns

/-! Keyed projections of a tailed log. Every event belongs to a key and has a version; the row of a
key is brought up to date from the events of that key that a poll reads. The rule at the end reduces
"the row represents the stream of its key" to one obligation about a single update. -/

namespace Projection

variable {ε κ : Type} [DecidableEq κ] (key : ε → κ) (seq version : ε → Int)

/-! ### Streams -/

/-- The events of one key in version order. -/
def stream (log : List ε) (k : κ) : List ε :=
  (log.filter fun event => key event = k).insertionSort fun a b => version a ≤ version b

/-- Sequence numbers are distinct and, within one key, ordered as the versions are. -/
structure Ordered (log : List ε) : Prop where
  distinct : Tailing.Distinct seq log
  agree : ∀ a ∈ log, ∀ b ∈ log, key a = key b → seq a < seq b → version a < version b

variable {key seq version} {log : List ε} {k : κ}

@[simp] theorem mem_stream {event : ε} :
    event ∈ stream key version log k ↔ event ∈ log ∧ key event = k := by
  simp [stream, List.mem_insertionSort]

/-- Lists in strict version order with the same elements are equal. -/
theorem eq_of_sorted (version : ε → Int) {left right : List ε}
    (hleft : left.Pairwise fun a b => version a < version b)
    (hright : right.Pairwise fun a b => version a < version b)
    (hmem : ∀ event, event ∈ left ↔ event ∈ right) : left = right := by
  have hnodup : ∀ {l : List ε}, (l.Pairwise fun a b => version a < version b) → l.Nodup :=
    fun h => h.imp fun hlt => by
      rintro rfl
      exact lt_irrefl _ hlt
  have hperm : left.Perm right :=
    (List.perm_ext_iff_of_nodup (hnodup hleft) (hnodup hright)).mpr hmem
  exact hperm.eq_of_pairwise (fun a b _ _ hab hba => absurd hab hba.asymm) hleft hright

omit [DecidableEq κ] in
theorem Ordered.seq_ne (h : Ordered key seq version log) {a b : ε} (ha : a ∈ log) (hb : b ∈ log)
    (hne : a ≠ b) : seq a ≠ seq b :=
  fun heq => hne (List.inj_on_of_nodup_map h.distinct ha hb heq)

omit [DecidableEq κ] in
theorem Ordered.seq_lt_of_version_lt (h : Ordered key seq version log) {a b : ε} (ha : a ∈ log)
    (hb : b ∈ log) (hkey : key a = key b) (hlt : version a < version b) : seq a < seq b := by
  have hne : seq a ≠ seq b := h.seq_ne ha hb (fun heq => absurd hlt (heq ▸ lt_irrefl _))
  rcases lt_or_gt_of_ne hne with hab | hba
  · exact hab
  · exact absurd (h.agree b hb a ha hkey.symm hba) hlt.asymm

theorem Ordered.stream_version (h : Ordered key seq version log) (k : κ) :
    (stream key version log k).Pairwise fun a b => version a < version b := by
  have hle : (stream key version log k).Pairwise fun a b => version a ≤ version b := by
    have : Std.Total fun a b : ε => version a ≤ version b :=
      ⟨fun a b => le_total (version a) (version b)⟩
    have : IsTrans ε fun a b : ε => version a ≤ version b := ⟨fun _ _ _ => le_trans⟩
    exact List.pairwise_insertionSort _ _
  have hnodup : (stream key version log k).Nodup := by
    refine (List.perm_insertionSort _ _).nodup_iff.mpr (List.Nodup.filter _ ?_)
    exact List.Nodup.of_map seq h.distinct
  refine (hle.and hnodup).imp_of_mem ?_
  rintro a b ha hb ⟨hab, hne⟩
  obtain ⟨halog, hakey⟩ := mem_stream.mp ha
  obtain ⟨hblog, hbkey⟩ := mem_stream.mp hb
  have hkey : key a = key b := hakey.trans hbkey.symm
  rcases lt_or_gt_of_ne (h.seq_ne halog hblog hne) with hlt | hgt
  · exact h.agree a halog b hblog hkey hlt
  · exact absurd (h.agree b hblog a halog hkey.symm hgt) hab.not_gt

theorem Ordered.stream_seq (h : Ordered key seq version log) (k : κ) :
    (stream key version log k).Pairwise fun a b => seq a < seq b := by
  refine (h.stream_version k).imp_of_mem ?_
  intro a b ha hb hlt
  obtain ⟨halog, hakey⟩ := mem_stream.mp ha
  obtain ⟨hblog, hbkey⟩ := mem_stream.mp hb
  exact h.seq_lt_of_version_lt halog hblog (hakey.trans hbkey.symm) hlt

omit [DecidableEq κ] in
theorem Ordered.of_subset (h : Ordered key seq version log) {part : List ε}
    (hpart : ∀ event ∈ part, event ∈ log) (hdistinct : Tailing.Distinct seq part) :
    Ordered key seq version part :=
  ⟨hdistinct, fun a ha b hb => h.agree a (hpart a ha) b (hpart b hb)⟩

/-- An event later than those of its key goes to the end of its stream. -/
theorem stream_cons_self {event : ε} (h : Ordered key seq version (event :: log))
    (hlater : ∀ other ∈ log, key other = key event → version other < version event) :
    stream key version (event :: log) (key event) = stream key version log (key event) ++ [event] := by
  have htail : Ordered key seq version log :=
    h.of_subset (fun _ hmem => List.mem_cons_of_mem _ hmem) (List.Nodup.of_cons h.distinct)
  refine eq_of_sorted version (h.stream_version _) ?_ ?_
  · rw [List.pairwise_append]
    refine ⟨htail.stream_version _, List.pairwise_singleton _ _, ?_⟩
    intro a ha b hb
    obtain ⟨halog, hakey⟩ := mem_stream.mp ha
    rw [List.mem_singleton.mp hb]
    exact hlater a halog hakey
  · intro other
    simp only [mem_stream, List.mem_cons, List.mem_append, List.not_mem_nil, or_false]
    constructor
    · rintro ⟨rfl | hmem, hkey⟩
      · exact Or.inr rfl
      · exact Or.inl ⟨hmem, hkey⟩
    · rintro (⟨hmem, hkey⟩ | rfl)
      · exact ⟨Or.inr hmem, hkey⟩
      · exact ⟨Or.inl rfl, rfl⟩

theorem stream_cons_of_ne {event : ε} (hk : key event ≠ k) :
    stream key version (event :: log) k = stream key version log k := by
  simp [stream, hk]

/-! ### What a poll reads of one stream -/

omit [DecidableEq κ] in
/-- A list that meets a condition up to some point and not after it is cut in two there. -/
theorem filter_append_filter_not {p : ε → Bool} {l : List ε}
    (h : l.Pairwise fun a b => p b = true → p a = true) :
    l.filter p ++ l.filter (fun event => !p event) = l := by
  induction l with
  | nil => rfl
  | cons event l ih =>
      obtain ⟨hhead, htail⟩ := List.pairwise_cons.mp h
      cases hp : p event with
      | true => simp [hp, ih htail]
      | false =>
          have hnone : ∀ other ∈ l, p other = false := by
            intro other hother
            by_contra hne
            exact absurd (hhead other hother (by simpa using hne)) (by simp [hp])
          have hfilter : l.filter p = [] := by simpa using hnone
          have hall : l.filter (fun event => !p event) = l := by
            simpa using hnone
          simp [hp, hfilter, hall]

omit [DecidableEq κ] in
/-- What meets a condition from some point of a list on is an end of it. -/
theorem suffix_filter {p : ε → Bool} {l : List ε}
    (h : l.Pairwise fun a b => p a = true → p b = true) : l.filter p <:+ l := by
  have hcut := filter_append_filter_not (p := fun event => !p event) (l := l) <|
    h.imp fun {a b} hab hb => by
      cases ha : p a with
      | false => rfl
      | true => simp [hab ha] at hb
  simp only [Bool.not_not] at hcut
  exact ⟨_, hcut⟩

variable {low last : Int}

/-- The events of a key read by a poll are those of its stream between two sequence numbers. -/
theorem stream_window (h : Ordered key seq version log) (limit : Nat) (default : Int)
    (hne : Tailing.window seq log low limit ≠ []) :
    stream key version (Tailing.window seq log low limit) k =
      (stream key version log k).filter fun event =>
        low < seq event && seq event ≤ Tailing.lastSeq seq (Tailing.window seq log low limit) default := by
  have hpart : Ordered key seq version (Tailing.window seq log low limit) := by
    refine h.of_subset (fun event hevent => (Tailing.mem_of_mem_window seq hevent).1) ?_
    exact (List.pairwise_map.mpr
      ((Tailing.window_sorted seq h.distinct low limit).imp fun hlt => hlt.ne))
  refine eq_of_sorted version (hpart.stream_version k) ((h.stream_version k).filter _) ?_
  intro event
  simp only [mem_stream, List.mem_filter, Bool.and_eq_true, decide_eq_true_eq]
  constructor
  · rintro ⟨hmem, hkey⟩
    have hlog := (Tailing.mem_of_mem_window seq hmem).1
    exact ⟨⟨hlog, hkey⟩, (Tailing.mem_window_iff seq h.distinct hlog hne default).mp hmem⟩
  · rintro ⟨⟨hlog, hkey⟩, hbetween⟩
    exact ⟨(Tailing.mem_window_iff seq h.distinct hlog hne default).mpr hbetween, hkey⟩

omit [DecidableEq κ] in
/-- Reading a stream between `low` and `last`, when what is applied is not above `last` and the rest
is above `low`: an end of what is applied, then the next events up to `last`. -/
theorem read_split {applied rest : List ε}
    (hseq : (applied ++ rest).Pairwise fun a b => seq a < seq b)
    (happlied : ∀ event ∈ applied, seq event ≤ last) (hrest : ∀ event ∈ rest, low < seq event) :
    ∃ overlap new remaining, overlap <:+ applied ∧ rest = new ++ remaining ∧
      ((applied ++ rest).filter fun event => low < seq event && seq event ≤ last) = overlap ++ new ∧
      (∀ event ∈ new, seq event ≤ last) ∧ ∀ event ∈ remaining, last < seq event := by
  obtain ⟨hseqApplied, hseqRest, _⟩ := List.pairwise_append.mp hseq
  have hlow := suffix_filter (p := fun event => decide (low < seq event)) <|
    hseqApplied.imp fun {a b} hab ha => by
      simp only [decide_eq_true_eq] at ha ⊢
      omega
  have hlast := filter_append_filter_not (p := fun event => decide (seq event ≤ last)) <|
    hseqRest.imp fun {a b} hab hb => by
      simp only [decide_eq_true_eq] at hb ⊢
      omega
  refine ⟨applied.filter fun event => low < seq event, rest.filter fun event => seq event ≤ last,
    rest.filter fun event => !decide (seq event ≤ last), hlow, hlast.symm, ?_, ?_, ?_⟩
  · rw [List.filter_append]
    congr 1
    · refine List.filter_congr fun event hevent => ?_
      simp [happlied event hevent]
    · refine List.filter_congr fun event hevent => ?_
      simp [hrest event hevent]
  · intro event hevent
    simpa using (List.mem_filter.mp hevent).2
  · intro event hevent
    simpa using (List.mem_filter.mp hevent).2

/-! ### What a reader has read -/

variable (key seq version) in
/-- The events of a key that are not above the reader's position. -/
def read (log : Tailing.Log ε) (k : κ) : List ε :=
  (stream key version log.rows k).filter fun event => seq event ≤ log.position

variable {reader : Tailing.Log ε}

theorem mem_read {event : ε} :
    event ∈ read key seq version reader k ↔
      event ∈ reader.rows ∧ key event = k ∧ seq event ≤ reader.position := by
  simp [read, and_assoc]

/-- What is read is a beginning of the stream. -/
theorem read_append_unread (h : Ordered key seq version reader.rows) (k : κ) :
    read key seq version reader k ++
      (stream key version reader.rows k).filter (fun event => !decide (seq event ≤ reader.position)) =
        stream key version reader.rows k := by
  refine filter_append_filter_not ((h.stream_seq k).imp fun {a b} hab hb => ?_)
  simp only [decide_eq_true_eq] at hb ⊢
  omega

theorem read_eq_stream (hdrained : ∀ event ∈ reader.rows, seq event ≤ reader.position) (k : κ) :
    read key seq version reader k = stream key version reader.rows k :=
  List.filter_eq_self.mpr fun event hevent => by simpa using hdrained event (mem_stream.mp hevent).1

/-- A poll reads the events of a key that are still within the margin, and the next ones. -/
theorem read_poll {margin limit : Nat} (hsound : reader.Sound seq)
    (h : Ordered key seq version reader.rows) (hmargin : 0 < margin) (hlimit : margin ≤ limit) (k : κ) :
    ∃ new, read key seq version (reader.poll seq margin limit).1 k =
        read key seq version reader k ++ new ∧
      stream key version (reader.batch seq margin limit) k =
        (read key seq version reader k).filter (fun event => reader.position - margin < seq event) ++
          new ∧
      ∀ event ∈ new, reader.position < seq event := by
  by_cases hempty : reader.batch seq margin limit = []
  · have hlog : (reader.poll seq margin limit).1 = reader := by simp [Tailing.Log.poll, hempty]
    have hnone : (read key seq version reader k).filter
        (fun event => reader.position - margin < seq event) = [] := by
      refine List.filter_eq_nil_iff.mpr fun event hevent hwithin => ?_
      obtain ⟨hrow, _, hle⟩ := mem_read.mp hevent
      have hread : event ∈ reader.batch seq margin limit :=
        Tailing.mem_window_of_le seq hsound.distinct hrow (by simpa using hwithin) (by omega)
      rw [hempty] at hread
      cases hread
    refine ⟨[], by rw [hlog, List.append_nil], ?_, by simp⟩
    rw [hempty, hnone]
    rfl
  · have hlast := hsound.position_le_lastSeq hmargin hlimit hempty
    have hposition := hsound.position_poll hmargin hlimit hempty
    have hrows : (reader.poll seq margin limit).1.rows = reader.rows := by
      simp [Tailing.Log.poll, hempty]
    have hbatch : stream key version (reader.batch seq margin limit) k = _ :=
      stream_window h limit reader.position hempty
    rw [← read_append_unread h k, List.filter_append] at hbatch
    refine ⟨((stream key version reader.rows k).filter fun event =>
      !decide (seq event ≤ reader.position)).filter fun event =>
        seq event ≤ Tailing.lastSeq seq (reader.batch seq margin limit) reader.position, ?_, ?_, ?_⟩
    · rw [read, hrows, hposition, ← read_append_unread h k, List.filter_append]
      congr 1
      · refine List.filter_eq_self.mpr fun event hevent => ?_
        have := (mem_read.mp hevent).2.2
        simp only [decide_eq_true_eq]
        omega
      · rw [read_append_unread h k]
    · rw [hbatch]
      congr 1
      · refine List.filter_congr fun event hevent => ?_
        have := (mem_read.mp hevent).2.2
        have hle : seq event ≤ Tailing.lastSeq seq (reader.batch seq margin limit) reader.position := by
          omega
        simpa [Tailing.Log.batch] using fun _ => hle
      · refine List.filter_congr fun event hevent => ?_
        have habove := (List.mem_filter.mp hevent).2
        simp only [Bool.not_eq_true', decide_eq_false_iff_not] at habove
        have hlow : reader.position - margin < seq event := by omega
        simp only [hlow, decide_true, Bool.true_and]
        rfl
    · intro event hevent
      have habove := (List.mem_filter.mp (List.mem_filter.mp hevent).1).2
      simpa using habove

/-! ### Keys one after another -/

/-- Steps that each update what is seen of their own key only, on keys without duplicates. -/
theorem foldl_keyed {σ ι ρ : Type} [DecidableEq ι] (view : σ → ι → ρ) (update : ι → ρ → ρ)
    (Ok : σ → Prop) {step : σ → ι → σ}
    (hstep : ∀ s k, Ok (step s k) → Ok s ∧ ∀ other,
      view (step s k) other = if other = k then update other (view s other) else view s other)
    {keys : List ι} (hnodup : keys.Nodup) {s : σ} (hok : Ok (keys.foldl step s)) :
    Ok s ∧ ∀ k, view (keys.foldl step s) k =
      if k ∈ keys then update k (view s k) else view s k := by
  induction keys generalizing s with
  | nil => exact ⟨hok, fun k => by simp⟩
  | cons first rest ih =>
      obtain ⟨hnot, hrest⟩ := List.nodup_cons.mp hnodup
      obtain ⟨hfirst, hviews⟩ := ih hrest hok
      obtain ⟨hstart, hview⟩ := hstep s first hfirst
      refine ⟨hstart, fun k => ?_⟩
      rw [List.foldl_cons, hviews k, hview k]
      by_cases hk : k = first
      · subst hk
        rw [if_neg hnot, if_pos rfl, if_pos List.mem_cons_self]
      · simp only [hk, if_false, List.mem_cons, false_or]

/-! ### The machine -/

variable {ρ τ : Type} (key seq version) (margin limit : Nat) (update : τ → κ → ρ → List ε → ρ)

/-- The visible log with its reader's position, the projected rows, and what the last poll ran in. -/
structure State (ε κ ρ τ : Type) where
  log : Tailing.Log ε
  rows : κ → ρ
  last : τ

inductive Action (ε τ : Type) where
  | reveal (event : ε)
  | poll (env : τ)

namespace State

/-- The events of a key that a poll would read now. -/
def pending (s : State ε κ ρ τ) (k : κ) : List ε :=
  stream key version (s.log.batch seq margin limit) k

def reveal (s : State ε κ ρ τ) (event : ε) : State ε κ ρ τ :=
  { s with log := { s.log with rows := event :: s.log.rows } }

/-- Every key with an event in the batch is updated from its events. -/
def poll (s : State ε κ ρ τ) (env : τ) : State ε κ ρ τ where
  log := (s.log.poll seq margin limit).1
  rows k :=
    let events := pending key seq version margin limit s k
    if events.isEmpty then s.rows k else update env k (s.rows k) events
  last := env

end State

/-- The obligation on an update. `represents env row events` says that the row stands for these
events after a poll in `env`; `admits` is what is known of every stream, and `guard` what is known of
a poll for one key. -/
structure Correct (represents : τ → ρ → List ε → Prop) (admits : List ε → Prop)
    (guard : τ → κ → ρ → List ε → Prop) (follows : τ → τ → Prop) : Prop where
  keep : ∀ {before env row events}, represents before row events → follows before env →
    represents env row events
  update : ∀ {before env k row applied overlap new}, represents before row applied →
    follows before env → overlap <:+ applied → overlap ++ new ≠ [] →
    (applied ++ new).Pairwise (fun a b => version a < version b) →
    (∀ event ∈ applied ++ new, key event = k) → admits (applied ++ new) →
    guard env k row (overlap ++ new) →
    represents env (update env k row (overlap ++ new)) (applied ++ new)

/-! ### The invariant -/

variable {key seq version} {represents : τ → ρ → List ε → Prop} {admits : List ε → Prop}
  {guard : τ → κ → ρ → List ε → Prop} {follows : τ → τ → Prop} {whole : List ε} {slack : Int}
  {s : State ε κ ρ τ}

variable (key seq version represents whole slack) in
/-- The visible part of every stream is a beginning of the whole one, the row of a key represents a
beginning of the visible part, and what it does not represent yet is less than `slack` behind the
stored position. -/
structure Tracks (s : State ε κ ρ τ) : Prop where
  sound : s.log.Sound seq
  ordered : Ordered key seq version s.log.rows
  visible : ∀ k, stream key version s.log.rows k <+: stream key version whole k
  rows : ∀ k, ∃ applied rest, stream key version s.log.rows k = applied ++ rest ∧
    represents s.last (s.rows k) applied ∧ (∀ event ∈ applied, seq event ≤ s.log.position) ∧
    ∀ event ∈ rest, s.log.position - slack < seq event

variable (key seq version whole slack) in
/-- An event of the whole log becomes visible after those of its stream before it. -/
structure Reveals (s : State ε κ ρ τ) (event : ε) : Prop where
  mem : event ∈ whole
  hidden : event ∉ s.log.rows
  previous : ∀ other ∈ whole, key other = key event → version other < version event →
    other ∈ s.log.rows
  inTime : s.log.position - slack < seq event

/-- Before anything is visible. -/
theorem Tracks.start {rows : κ → ρ} {env : τ} (hrows : ∀ k, represents env (rows k) []) :
    Tracks key seq version represents whole slack ⟨⟨[], none⟩, rows, env⟩ := by
  refine ⟨⟨List.nodup_nil, by simp, by simp⟩, ⟨List.nodup_nil, by simp⟩, ?_, ?_⟩
  · intro k
    exact List.nil_prefix
  · intro k
    exact ⟨[], [], rfl, hrows k, by simp, by simp⟩

theorem Tracks.mono (h : Tracks key seq version represents whole slack s) {wider : Int}
    (hle : slack ≤ wider) : Tracks key seq version represents whole wider s := by
  refine ⟨h.sound, h.ordered, h.visible, fun k => ?_⟩
  obtain ⟨applied, rest, hsplit, hrep, happlied, hrest⟩ := h.rows k
  refine ⟨applied, rest, hsplit, hrep, happlied, fun event hevent => ?_⟩
  have := hrest event hevent
  omega

theorem Tracks.mem_whole (h : Tracks key seq version represents whole slack s) {event : ε}
    (hevent : event ∈ s.log.rows) : event ∈ whole :=
  (mem_stream.mp ((h.visible (key event)).subset (mem_stream.mpr ⟨hevent, rfl⟩))).1

/-- Once nothing visible is above the position and nothing is behind it, rows stand for streams. -/
theorem Tracks.drained (h : Tracks key seq version represents whole 0 s)
    (hdrained : ∀ event ∈ s.log.rows, seq event ≤ s.log.position) (k : κ) :
    represents s.last (s.rows k) (stream key version s.log.rows k) := by
  obtain ⟨applied, rest, hsplit, hrep, _, hrest⟩ := h.rows k
  have hnil : rest = [] := by
    refine List.eq_nil_iff_forall_not_mem.mpr fun event hevent => ?_
    have hmem : event ∈ stream key version s.log.rows k := hsplit ▸ List.mem_append_right _ hevent
    have := hrest event hevent
    have := hdrained event (mem_stream.mp hmem).1
    omega
  rw [hsplit, hnil, List.append_nil]
  exact hrep

/-- The whole stream goes on after its visible part with the event that is revealed next. -/
theorem Tracks.reveal_visible (h : Tracks key seq version represents whole slack s)
    (hwhole : Ordered key seq version whole) {event : ε}
    (hreveals : Reveals key seq version whole slack s event) :
    (stream key version s.log.rows (key event) ++ [event]) <+: stream key version whole (key event) := by
  obtain ⟨tail, htail⟩ := h.visible (key event)
  have hsorted := hwhole.stream_version (key event)
  rw [← htail] at hsorted
  obtain ⟨_, htailSorted, hbefore⟩ := List.pairwise_append.mp hsorted
  have hnotVisible : event ∉ stream key version s.log.rows (key event) := fun hmem =>
    hreveals.hidden (mem_stream.mp hmem).1
  have hmem : event ∈ tail := by
    have : event ∈ stream key version whole (key event) := mem_stream.mpr ⟨hreveals.mem, rfl⟩
    rw [← htail] at this
    exact (List.mem_append.mp this).resolve_left hnotVisible
  cases tail with
  | nil => cases hmem
  | cons first rest =>
      -- Were another event first, it would have to be visible already.
      have hfirst : first = event := by
        by_contra hne
        have hrest : event ∈ rest := (List.mem_cons.mp hmem).resolve_left (Ne.symm hne)
        have hfirstMem : first ∈ stream key version whole (key event) := by
          rw [← htail]
          simp
        obtain ⟨hfirstWhole, hfirstKey⟩ := mem_stream.mp hfirstMem
        have hvisible := hreveals.previous first hfirstWhole hfirstKey
          ((List.pairwise_cons.mp htailSorted).1 event hrest)
        have := hbefore first (mem_stream.mpr ⟨hvisible, hfirstKey⟩) first (by simp)
        exact lt_irrefl _ this
      refine ⟨rest, ?_⟩
      rw [← htail, hfirst, List.append_assoc, List.singleton_append]

theorem Tracks.reveal (h : Tracks key seq version represents whole slack s)
    (hwhole : Ordered key seq version whole) (hpos : ∀ event ∈ whole, 0 < seq event) {event : ε}
    (hreveals : Reveals key seq version whole slack s event) :
    Tracks key seq version represents whole slack (s.reveal event) := by
  have hfresh : ∀ other ∈ s.log.rows, seq other ≠ seq event := by
    intro other hother
    refine hwhole.seq_ne (h.mem_whole hother) hreveals.mem ?_
    rintro rfl
    exact hreveals.hidden hother
  have hsound : (s.reveal event).log.Sound seq := h.sound.reveal (hpos event hreveals.mem) hfresh
  have hordered : Ordered key seq version (event :: s.log.rows) := by
    refine hwhole.of_subset ?_ hsound.distinct
    intro other hother
    rcases List.mem_cons.mp hother with rfl | hmem
    · exact hreveals.mem
    · exact h.mem_whole hmem
  have hbegins := h.reveal_visible hwhole hreveals
  have hlater : ∀ other ∈ s.log.rows, key other = key event → version other < version event := by
    intro other hother hkey
    have hsorted := (hwhole.stream_version (key event)).sublist hbegins.sublist
    exact (List.pairwise_append.mp hsorted).2.2 other (mem_stream.mpr ⟨hother, hkey⟩) event (by simp)
  have hself := stream_cons_self hordered hlater
  refine ⟨hsound, hordered, ?_, ?_⟩
  · intro k
    by_cases hk : key event = k
    · subst hk
      exact hself ▸ hbegins
    · exact (stream_cons_of_ne hk : stream key version (event :: s.log.rows) k = _) ▸ h.visible k
  · intro k
    obtain ⟨applied, rest, hsplit, hrep, happlied, hrest⟩ := h.rows k
    by_cases hk : key event = k
    · subst hk
      refine ⟨applied, rest ++ [event], ?_, hrep, happlied, ?_⟩
      · rw [← List.append_assoc, ← hsplit]
        exact hself
      · intro other hother
        rcases List.mem_append.mp hother with hmem | hmem
        · exact hrest other hmem
        · rw [List.mem_singleton.mp hmem]
          exact hreveals.inTime
    · exact ⟨applied, rest, (stream_cons_of_ne hk).trans hsplit, hrep, happlied, hrest⟩

/-- A log that is appended to in sequence order. -/
theorem Tracks.append (h : Tracks key seq version represents whole 0 s)
    (hwhole : Ordered key seq version whole) (hpos : ∀ event ∈ whole, 0 < seq event) {event : ε}
    (hmem : event ∈ whole) (hbefore : ∀ other ∈ whole, other ∈ s.log.rows ↔ seq other < seq event) :
    Tracks key seq version represents whole 0 (s.reveal event) := by
  refine h.reveal hwhole hpos ⟨hmem, ?_, ?_, ?_⟩
  · intro hvisible
    exact lt_irrefl _ ((hbefore event hmem).mp hvisible)
  · intro other hother hkey hversion
    exact (hbefore other hother).mpr (hwhole.seq_lt_of_version_lt hother hmem hkey hversion)
  · rw [sub_zero, Tailing.Log.position]
    cases hstored : s.log.checkpoint with
    | none => exact hpos event hmem
    | some stored =>
        obtain ⟨row, hrow, rfl⟩ := h.sound.attained stored hstored
        exact (hbefore row (h.mem_whole hrow)).mp hrow

variable {margin limit update}

/-- A poll leaves nothing behind the position it stores. -/
theorem Tracks.poll (hcorrect : Correct key version update represents admits guard follows)
    (h : Tracks key seq version represents whole margin s) (hmargin : 0 < margin)
    (hlimit : margin ≤ limit) (hadmits : ∀ k, admits (stream key version s.log.rows k))
    (hclosed : ∀ {front back : List ε}, admits (front ++ back) → admits front) {env : τ}
    (hfollows : follows s.last env)
    (hguard : ∀ k, s.pending key seq version margin limit k ≠ [] →
      guard env k (s.rows k) (s.pending key seq version margin limit k)) :
    Tracks key seq version represents whole 0
      (s.poll key seq version margin limit update env) := by
  by_cases hempty : s.log.batch seq margin limit = []
  · have hlog : (s.log.poll seq margin limit).1 = s.log := by simp [Tailing.Log.poll, hempty]
    refine ⟨h.sound.poll, by simpa [State.poll, hlog] using h.ordered,
      by simpa [State.poll, hlog] using h.visible, fun k => ?_⟩
    obtain ⟨applied, rest, hsplit, hrep, happlied, hrest⟩ := h.rows k
    have hnil : rest = [] := by
      refine List.eq_nil_iff_forall_not_mem.mpr fun event hevent => ?_
      have hmem : event ∈ stream key version s.log.rows k := hsplit ▸ List.mem_append_right _ hevent
      rcases h.sound.covered hmargin hlimit (mem_stream.mp hmem).1 (hrest event hevent) with
        hread | ⟨hfull, _⟩
      · rw [hempty] at hread
        cases hread
      · rw [hempty, List.length_nil] at hfull
        omega
    refine ⟨applied, [], ?_, ?_, ?_, by simp⟩
    · simpa [State.poll, hlog, hnil] using hsplit
    · have hrows : (s.poll key seq version margin limit update env).rows k = s.rows k := by
        simp [State.poll, State.pending, hempty, stream]
      rw [hrows]
      exact hcorrect.keep hrep hfollows
    · simpa [State.poll, hlog] using happlied
  · have hlast := h.sound.position_le_lastSeq hmargin hlimit hempty
    have hposition := h.sound.position_poll hmargin hlimit hempty
    have hrowsLog : (s.log.poll seq margin limit).1.rows = s.log.rows := by
      simp [Tailing.Log.poll, hempty]
    refine ⟨h.sound.poll, by simpa [State.poll, hrowsLog] using h.ordered,
      by simpa [State.poll, hrowsLog] using h.visible, fun k => ?_⟩
    obtain ⟨applied, rest, hsplit, hrep, happlied, hrest⟩ := h.rows k
    obtain ⟨overlap, new, remaining, hoverlap, hnew, hread, hnewSeq, hremaining⟩ :=
      read_split (hsplit ▸ h.ordered.stream_seq k)
        (fun event hevent => (happlied event hevent).trans hlast) hrest
    have hpending : s.pending key seq version margin limit k = overlap ++ new :=
      (stream_window h.ordered limit s.log.position hempty).trans (hsplit ▸ hread)
    have hstream : stream key version s.log.rows k = (applied ++ new) ++ remaining := by
      rw [hsplit, hnew, List.append_assoc]
    refine ⟨applied ++ new, remaining, ?_, ?_, ?_, ?_⟩
    · simpa [State.poll, hrowsLog] using hstream
    · simp only [State.poll, hpending]
      by_cases hnone : overlap ++ new = []
      · obtain ⟨rfl, rfl⟩ := List.append_eq_nil_iff.mp hnone
        simpa using hcorrect.keep hrep hfollows
      · rw [if_neg (by simpa using hnone)]
        have hsorted := h.ordered.stream_version k
        rw [hstream] at hsorted
        refine hcorrect.update hrep hfollows hoverlap hnone
          (List.pairwise_append.mp hsorted).1 ?_ (hclosed (hstream ▸ hadmits k)) ?_
        · intro event hevent
          have hmem : event ∈ stream key version s.log.rows k :=
            hstream ▸ List.mem_append_left _ hevent
          exact (mem_stream.mp hmem).2
        · exact hpending ▸ hguard k (hpending ▸ hnone)
    · intro event hevent
      simp only [State.poll, hposition]
      rcases List.mem_append.mp hevent with hmem | hmem
      · exact (happlied event hmem).trans hlast
      · exact hnewSeq event hmem
    · intro event hevent
      simp only [State.poll, hposition, sub_zero]
      exact hremaining event hevent

end Projection

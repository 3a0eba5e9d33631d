import Emumet.DriverTables

/-! The event stores of the three aggregates. They run the same statements on their own tables, so
each is the generic store at its event type. A function that inserts takes the rows its statement can
see and returns the row it adds. -/

namespace Emumet

/-- A statement rejected by a uniqueness constraint, as `convert_error` reports it. -/
def uniqueViolation {α : Type} : Result α :=
  reject .Internal "duplicate key value violates unique constraint"

namespace EventStore

variable {Event : Type}

/-- The events of one stream in version order, after `since` if it is given. -/
def findById (rows : List (SeqEvent Event)) (id : Int) (since : Option EventVersion) :
    List (EventEnvelope Event) :=
  let stream := rows.filter fun row => row.id = id && since.all (· < row.version)
  (stream.map SeqEvent.envelope).insertionSort fun a b => a.version ≤ b.version

/-- An event newer than those of its stream is the last of it. -/
theorem findById_cons_newest {rows : List (SeqEvent Event)} {row : SeqEvent Event}
    (hnewest : ∀ other ∈ rows, other.id = row.id → other.version < row.version) :
    findById (row :: rows) row.id none = findById rows row.id none ++ [row.envelope] := by
  have hinsert : ∀ l : List (EventEnvelope Event), (∀ other ∈ l, other.version < row.version) →
      l.orderedInsert (fun a b => a.version ≤ b.version) row.envelope = l ++ [row.envelope] := by
    intro l hl
    induction l with
    | nil => rfl
    | cons other l ih =>
        obtain ⟨hother, htail⟩ := List.forall_mem_cons.mp hl
        have hnot : ¬row.envelope.version ≤ other.version := not_le.mpr hother
        rw [List.orderedInsert_cons, if_neg hnot, ih htail, List.cons_append]
  have hsorted : findById (row :: rows) row.id none =
      (findById rows row.id none).orderedInsert (fun a b => a.version ≤ b.version) row.envelope := by
    simp [findById]
  rw [hsorted]
  refine hinsert _ fun other hother => ?_
  simp only [findById, List.mem_insertionSort, List.mem_map, List.mem_filter] at hother
  obtain ⟨stored, ⟨hstored, hkept⟩, rfl⟩ := hother
  exact hnewest stored hstored (by simpa using hkept)

theorem findById_cons_of_ne {rows : List (SeqEvent Event)} {row : SeqEvent Event} {id : Int}
    (hid : row.id ≠ id) : findById (row :: rows) id none = findById rows id none := by
  simp [findById, hid]

theorem id_of_mem_findById {rows : List (SeqEvent Event)} {id : Int} {event : EventEnvelope Event}
    (h : event ∈ findById rows id none) : event.id = id := by
  simp only [findById, List.mem_insertionSort] at h
  obtain ⟨row, hrow, rfl⟩ := List.mem_map.mp h
  have hid := (List.mem_filter.mp hrow).2
  simp only [Option.all_none, Bool.and_true, decide_eq_true_eq] at hid
  exact hid

theorem envelope_mem_findById {rows : List (SeqEvent Event)} {id : Int} {row : SeqEvent Event}
    (hrow : row ∈ rows) (hid : row.id = id) : row.envelope ∈ findById rows id none := by
  simp only [findById, List.mem_insertionSort]
  exact List.mem_map_of_mem (List.mem_filter.mpr ⟨hrow, by simpa using hid⟩)

/-- The last event of a stream is the newest. -/
theorem le_of_findById_getLast {rows : List (SeqEvent Event)} {id : Int} {version : EventVersion}
    (h : (findById rows id none).getLast?.map EventEnvelope.version = some version)
    {row : SeqEvent Event} (hrow : row ∈ rows) (hid : row.id = id) : row.version ≤ version := by
  have hmem := envelope_mem_findById hrow hid
  have hsorted : (findById rows id none).Pairwise fun a b => a.version ≤ b.version := by
    have : Std.Total fun a b : EventEnvelope Event => a.version ≤ b.version := ⟨fun _ _ => le_total _ _⟩
    have : IsTrans (EventEnvelope Event) fun a b => a.version ≤ b.version := ⟨fun _ _ _ => le_trans⟩
    exact List.pairwise_insertionSort _ _
  generalize findById rows id none = stream at h hmem hsorted
  rcases stream.eq_nil_or_concat' with rfl | ⟨front, last, rfl⟩
  · cases hmem
  · rw [List.getLast?_concat, Option.map_some, Option.some.injEq] at h
    subst h
    rcases List.mem_append.mp hmem with hfront | hlast
    · exact (List.pairwise_append.mp hsorted).2.2 _ hfront last (List.mem_singleton_self last)
    · exact le_of_eq (congrArg EventEnvelope.version (List.mem_singleton.mp hlast))

/-- `SELECT MAX(version) ... WHERE id`, null on an empty stream. -/
def maxVersion (rows : List (SeqEvent Event)) (id : Int) : Option EventVersion :=
  ((rows.filter fun row => row.id = id).map SeqEvent.version).max?

/-- The `WHERE` clause of the insert. -/
def guardHolds (rows : List (SeqEvent Event)) (id : Int) : Option ExpectedVersion → Bool
  | some .Nothing => !rows.any fun row => row.id = id
  | some (.At prev) => maxVersion rows id = some prev
  | none => true

def insertedRow (command : CommandEnvelope Event) (version : EventVersion) (seq : Int) :
    SeqEvent Event :=
  ⟨seq, ⟨command.id, command.event, version⟩⟩

/-- The error of a command whose expected version is not the stream's. -/
def conflict (id : Int) : Report :=
  ⟨.Concurrency, "Concurrency conflict for event " ++ toString id⟩

/-- The row inserted for a command, `seq` being the next value of the table's sequence. Only a
command with an expected version can insert nothing. -/
def persistInternal (rows : List (SeqEvent Event)) (command : CommandEnvelope Event)
    (version : EventVersion) (seq : Int) : Result (SeqEvent Event) :=
  if !guardHolds rows command.id command.prevVersion then .error (conflict command.id)
  else if rows.any fun row => row.id = command.id && row.version = version then uniqueViolation
  else .ok (insertedRow command version seq)

/-- A stream that is expected to be missing has no events. -/
theorem findById_of_nothing {rows : List (SeqEvent Event)} {id : Int}
    (h : guardHolds rows id (some .Nothing) = true) : findById rows id none = [] := by
  have hnone : rows.filter (fun row => row.id = id && (none : Option EventVersion).all (· < row.version)) =
      [] := by
    rw [List.filter_eq_nil_iff]
    intro row hrow
    simp only [guardHolds, Bool.not_eq_true', List.any_eq_false, decide_eq_true_eq] at h
    simpa using h row hrow
  simp only [findById, hnone, List.map_nil, List.insertionSort_nil]

theorem le_of_maxVersion {rows : List (SeqEvent Event)} {id : Int} {version : EventVersion}
    (h : maxVersion rows id = some version) {row : SeqEvent Event} (hrow : row ∈ rows)
    (hid : row.id = id) : row.version ≤ version := by
  refine (List.max?_eq_some_iff.mp h).2 _ (List.mem_map_of_mem ?_)
  simpa [hid] using hrow

/-- The insert of a command fails with a conflict, with a duplicate key, or adds its row. -/
theorem persistInternal_cases (rows : List (SeqEvent Event)) (command : CommandEnvelope Event)
    (version : EventVersion) (seq : Int) :
    (guardHolds rows command.id command.prevVersion = false ∧
        persistInternal rows command version seq = .error (conflict command.id)) ∨
      (guardHolds rows command.id command.prevVersion = true ∧
        ((∃ row ∈ rows, row.id = command.id ∧ row.version = version) ∨
          persistInternal rows command version seq = .ok (insertedRow command version seq))) := by
  cases hguard : guardHolds rows command.id command.prevVersion with
  | false => exact Or.inl ⟨rfl, by simp [persistInternal, hguard]⟩
  | true =>
      refine Or.inr ⟨rfl, ?_⟩
      by_cases hdup : ∃ row ∈ rows, row.id = command.id ∧ row.version = version
      · exact Or.inl hdup
      · have hany : (rows.any fun row => row.id = command.id && row.version = version) = false := by
          simpa using hdup
        exact Or.inr (by simp only [persistInternal, hguard, hany]; rfl)

end EventStore

/-! ### The three stores -/

/-- The type of the events an aggregate's table holds. -/
abbrev Aggregate.Event : Aggregate → Type
  | .account => AccountEvent
  | .profile => ProfileEvent
  | .metadata => MetadataEvent

def AccountEventStore.persistInternal : List (SeqEvent AccountEvent) →
    CommandEnvelope AccountEvent → EventVersion → Int → Result (SeqEvent AccountEvent) :=
  EventStore.persistInternal

def ProfileEventStore.persistInternal : List (SeqEvent ProfileEvent) →
    CommandEnvelope ProfileEvent → EventVersion → Int → Result (SeqEvent ProfileEvent) :=
  EventStore.persistInternal

def MetadataEventStore.persistInternal : List (SeqEvent MetadataEvent) →
    CommandEnvelope MetadataEvent → EventVersion → Int → Result (SeqEvent MetadataEvent) :=
  EventStore.persistInternal

/-- The insert of the aggregate's own store. -/
def Aggregate.persistInternal : (kind : Aggregate) → List (SeqEvent kind.Event) →
    CommandEnvelope kind.Event → EventVersion → Int → Result (SeqEvent kind.Event)
  | .account => AccountEventStore.persistInternal
  | .profile => ProfileEventStore.persistInternal
  | .metadata => MetadataEventStore.persistInternal

theorem Aggregate.persistInternal_eq (kind : Aggregate) :
    kind.persistInternal = EventStore.persistInternal := by
  cases kind <;> rfl

end Emumet

import Emumet.DriverRelations
import Emumet.LibProjection

/-! The poll that the three projectors share. It is one transaction: it reads the window of the event
log, handles the events of each aggregate behind a savepoint and stores the position. What the program
does not decide is an argument: the clock, the iteration order of the hash map of groups, and writes
that fail for reasons outside the database's contents. -/

namespace Emumet

/-- What a poll runs in. -/
structure PollEnv where
  now : OffsetDateTime
  order : List Int → List Int
  order_perm : ∀ ids, (order ids).Perm ids
  writeFails : Int → Bool

/-- What handling one group of events does. The owner relation is what the permission service is
asked to create; it touches no table and its failure is only logged. -/
inductive GroupResult where
  | skipped
  | written (db : Db) (owner : Option (AccountId × AuthAccountId))
  | rolledBack

/-- The database between two groups, the groups whose write was rolled back so far and the owner
relations asked for. -/
structure Progress where
  db : Db
  rolledBack : List Int
  owners : List (AccountId × AuthAccountId)

structure PollResult where
  progress : Progress
  position : Int

namespace Projector

def window : Nat := 100

def batchLimit : Nat := 1000

variable {Event : Type}

/-- `find_by_seq_window`. -/
def findBySeqWindow (rows : List (SeqEvent Event)) (fromSeqExclusive : Int) (limit : Nat) :
    List (SeqEvent Event) :=
  Tailing.window SeqEvent.seq rows fromSeqExclusive limit

/-- The events of one group in version order. -/
def groupOf (events : List (SeqEvent Event)) (id : Int) : List (SeqEvent Event) :=
  Projection.stream SeqEvent.id SeqEvent.version events id

theorem mem_groupOf {events : List (SeqEvent Event)} {event : SeqEvent Event} {id : Int} :
    event ∈ groupOf events id ↔ event ∈ events ∧ event.id = id :=
  Projection.mem_stream

/-- Handle one group; a failed write leaves the database as it was at the savepoint. -/
def handle (project : Db → Int → List (SeqEvent Event) → GroupResult)
    (events : List (SeqEvent Event)) (progress : Progress) (id : Int) : Progress :=
  match project progress.db id (groupOf events id) with
  | .skipped => progress
  | .written db owner => { progress with db, owners := owner.toList ++ progress.owners }
  | .rolledBack => { progress with rolledBack := id :: progress.rolledBack }

/-- `GREATEST(last_seq, EXCLUDED.last_seq)`. -/
def storePosition (db : Db) (kind : Aggregate) (seq : Int) : Db :=
  { db with checkpoints :=
      Function.update db.checkpoints kind (some (Tailing.Log.advance (db.checkpoints kind) seq)) }

/-- One poll of the projector of an aggregate over its event table. -/
def pollBatch (kind : Aggregate) (rows : List (SeqEvent Event)) (env : PollEnv)
    (project : Db → Int → List (SeqEvent Event) → GroupResult) (db : Db) : PollResult :=
  let checkpoint := (db.checkpoints kind).getD 0
  let events := findBySeqWindow rows (checkpoint - window) batchLimit
  if events.isEmpty then ⟨⟨db, [], []⟩, checkpoint⟩
  else
    let maxSeq := Tailing.lastSeq SeqEvent.seq events checkpoint
    let ids := env.order (events.map SeqEvent.id).dedup
    let progress := ids.foldl (handle project events) ⟨db, [], []⟩
    ⟨{ progress with db := storePosition progress.db kind maxSeq }, maxSeq⟩

end Projector

end Emumet

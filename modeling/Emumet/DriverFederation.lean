import Emumet.DriverReadModel

/-! The repositories of remote accounts and of outbox activities. -/

namespace Emumet

namespace RemoteAccountRepository

def findById (db : Db) (id : RemoteAccountId) : Option RemoteAccount := db.remoteAccounts.get id

def findByUrl (db : Db) (url : String) : Option RemoteAccount :=
  db.remoteAccounts.rows.find? fun row => row.url = url

/-- Another remote account holds the handle or the URL. -/
def conflict (db : Db) (account : RemoteAccount) : Bool :=
  db.remoteAccounts.rows.any fun other =>
    other.id ≠ account.id && (other.acct = account.acct || other.url = account.url)

def create (db : Db) (account : RemoteAccount) : Result Db :=
  if db.remoteAccounts.contains account.id || conflict db account then uniqueViolation
  else if account.iconId.all db.images.contains then
    .ok { db with remoteAccounts := db.remoteAccounts.put account }
  else foreignKeyViolation

def update (db : Db) (account : RemoteAccount) : Result Db :=
  if !db.remoteAccounts.contains account.id then
    reject .NotFound "Target remote account not found for update"
  else if conflict db account then uniqueViolation
  else if account.iconId.all db.images.contains then
    .ok { db with remoteAccounts := db.remoteAccounts.put account }
  else foreignKeyViolation

end RemoteAccountRepository

namespace OutboxActivityRepository

/-- The id is the next value of the table's sequence, not the one of the activity. -/
def create (db : Db) (nextId : OutboxActivityId) (activity : OutboxActivity) :
    Result (OutboxActivityId × Db) :=
  if db.outboxActivities.contains nextId ||
      db.outboxActivities.rows.any (·.activityId = activity.activityId) then uniqueViolation
  else .ok (nextId, { db with
    outboxActivities := db.outboxActivities.put { activity with id := nextId } })

def markDelivered (db : Db) (now : OffsetDateTime) (id : OutboxActivityId) : Db :=
  match db.outboxActivities.get id with
  | some row => { db with outboxActivities :=
      db.outboxActivities.put { row with deliveredAt := some now, attemptedAt := none, error := none } }
  | none => db

def markDeliveryAttempt (db : Db) (now : OffsetDateTime) (id : OutboxActivityId)
    (error : Option String) : Db :=
  match db.outboxActivities.get id with
  | some row => { db with outboxActivities :=
      db.outboxActivities.put { row with attemptedAt := some now, error } }
  | none => db

/-- What recording the outcome of a delivery may do: nothing, or replace a row by one with the same id,
activity and object. -/
def Marks (before after : Db) : Prop :=
  after = before ∨ ∃ row ∈ before.outboxActivities.rows, ∃ marked : OutboxActivity,
    marked.id = row.id ∧ marked.activityId = row.activityId ∧ marked.objectJson = row.objectJson ∧
      after = { before with outboxActivities := before.outboxActivities.put marked }

theorem marks_markDelivered (db : Db) (now : OffsetDateTime) (id : OutboxActivityId) :
    Marks db (markDelivered db now id) := by
  unfold markDelivered
  split
  · next row hrow =>
      exact .inr ⟨row, (Table.get_eq_some_iff.mp hrow).1,
        { row with deliveredAt := some now, attemptedAt := none, error := none }, rfl, rfl, rfl, rfl⟩
  · exact .inl rfl

theorem marks_markDeliveryAttempt (db : Db) (now : OffsetDateTime) (id : OutboxActivityId)
    (error : Option String) : Marks db (markDeliveryAttempt db now id error) := by
  unfold markDeliveryAttempt
  split
  · next row hrow =>
      exact .inr ⟨row, (Table.get_eq_some_iff.mp hrow).1, { row with attemptedAt := some now, error },
        rfl, rfl, rfl, rfl⟩
  · exact .inl rfl

end OutboxActivityRepository

end Emumet

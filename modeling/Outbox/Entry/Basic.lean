import Outbox.Clock
import Outbox.Entry.Status
import Outbox.Text.Blank
import Outbox.Uuid

/-!
# Outbox entries

An entry is one row of the outbox: a message to deliver, how far its delivery has come, and the
lease of the worker that handles it. A new entry is checked field by field, in column order.
-/

namespace Outbox

/-- What an event contributes to its entry. -/
structure Draft where
  aggregateType : String
  aggregateId : String
  eventType : String
  topic : String
  payload : String
  deriving DecidableEq, Repr, Inhabited

/-- One row of the outbox. -/
structure Entry where
  id : Uuid
  aggregateType : String
  aggregateId : String
  eventType : String
  topic : String
  payload : String
  status : Status
  retryCount : Int
  createdAt : Instant
  publishedAt : Option Instant
  lastError : Option String
  claimedBy : Option String
  claimedAt : Option Instant
  deriving DecidableEq, Inhabited

/-- The lease of a worker on an entry. An outcome is recorded only while the entry still carries
this worker and this time. -/
structure Claim where
  entryId : Uuid
  worker : String
  claimedAt : Instant
  deriving DecidableEq, Inhabited

/-- A column of text of a new entry. -/
inductive Entry.Column
  | aggregateType
  | aggregateId
  | eventType
  | topic
  | payload
  deriving DecidableEq, Repr

namespace Entry.Column

def name : Column → String
  | aggregateType => "aggregate_type"
  | aggregateId => "aggregate_id"
  | eventType => "event_type"
  | topic => "topic"
  | payload => "payload"

/-- How many characters fit; the payload is not bounded. -/
def capacity : Column → Option Nat
  | aggregateType => some 50
  | aggregateId => some 36
  | eventType => some 100
  | topic => some 100
  | payload => none

end Entry.Column

namespace Draft

def text (d : Draft) : Entry.Column → String
  | .aggregateType => d.aggregateType
  | .aggregateId => d.aggregateId
  | .eventType => d.eventType
  | .topic => d.topic
  | .payload => d.payload

end Draft

/-- Why a new entry is refused. -/
inductive FieldError
  | blank (column : Entry.Column)
  | tooLong (column : Entry.Column) (capacity actual : Nat)
  deriving DecidableEq, Repr

def FieldError.message : FieldError → String
  | blank c => s!"{c.name} must not be blank"
  | tooLong c capacity actual =>
    s!"{c.name} is {actual} characters long, at most {capacity} allowed"

namespace Entry

/-- The first fault of the text for a column: a text must not be blank and must fit. -/
def checkColumn (d : Draft) (c : Column) : Except FieldError Unit :=
  if Text.isBlank (d.text c) then .error (.blank c)
  else
    match c.capacity with
    | none => .ok ()
    | some n => if (d.text c).length > n then .error (.tooLong c n (d.text c).length) else .ok ()

/-- The columns in the order in which they are checked. -/
def columns : List Column := [.aggregateType, .aggregateId, .eventType, .topic, .payload]

/-- A pending entry that was never tried and that nobody holds. -/
def fresh (id : Uuid) (d : Draft) (now : Instant) : Entry :=
  { id
    aggregateType := d.aggregateType
    aggregateId := d.aggregateId
    eventType := d.eventType
    topic := d.topic
    payload := d.payload
    status := .pending
    retryCount := 0
    createdAt := now
    publishedAt := none
    lastError := none
    claimedBy := none
    claimedAt := none }

/-- A new entry, if every column accepts its text. -/
def create (id : Uuid) (d : Draft) (now : Instant) : Except FieldError Entry := do
  columns.forM (checkColumn d)
  return fresh id d now

/-- The lease recorded on the entry. -/
def currentClaim (e : Entry) : Option Claim :=
  match e.claimedBy, e.claimedAt with
  | some w, some t => some ⟨e.id, w, t⟩
  | _, _ => none

/-- Entries are handled by age, those of one age by id. -/
def before (a b : Entry) : Bool :=
  a.createdAt < b.createdAt || (a.createdAt = b.createdAt && a.id.toNat ≤ b.id.toNat)

end Entry
end Outbox

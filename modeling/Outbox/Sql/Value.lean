import Outbox.Entry.Basic

/-!
# Cells of a table

A cell holds a value or null, and null compares with nothing. A time has whole microseconds,
counted from the beginning of 2000. A row gives each column its cell.
-/

namespace Outbox.Sql

/-- The type of a value. -/
inductive Kind
  | uuid
  | text
  | int4
  | int8
  | instant
  | status
  deriving DecidableEq, Repr

def Kind.name : Kind → String
  | uuid => "uuid"
  | text => "text"
  | int4 => "int4"
  | int8 => "int8"
  | instant => "timestamptz"
  | status => "outbox_status"

/-- The content of a cell, or a truth value; null stands for an unknown one. -/
inductive Value
  | null
  | uuid (u : Uuid)
  | text (s : String)
  | integer (i : Int)
  | instant (microseconds : Int)
  | status (s : Status)
  | truth (b : Bool)
  deriving DecidableEq

namespace Value

/-- The place of a status in its type. -/
def statusRank (s : Status) : Nat := Status.all.idxOf s

/-- The order of two values of one type. -/
def order? : Value → Value → Option Ordering
  | uuid a, uuid b => some (compare a.toNat b.toNat)
  | text a, text b => some (compare a b)
  | integer a, integer b => some (compare a b)
  | instant a, instant b => some (compare a b)
  | status a, status b => some (compare (statusRank a) (statusRank b))
  | _, _ => none

/-- The order in which rows are sorted; null comes after every value. -/
def sortOrder : Value → Value → Ordering
  | null, null => .eq
  | null, _ => .gt
  | _, null => .lt
  | a, b => (order? a b).getD .eq

/-- Both hold: false if either is false, else unknown if either is unknown. -/
def and : Value → Value → Value
  | truth false, _ => truth false
  | _, truth false => truth false
  | truth true, truth true => truth true
  | _, _ => null

/-- One holds: true if either is true, else unknown if either is unknown. -/
def or : Value → Value → Value
  | truth true, _ => truth true
  | _, truth true => truth true
  | truth false, truth false => truth false
  | _, _ => null

/-- The sum of two integers. -/
def add : Value → Value → Value
  | integer a, integer b => integer (a + b)
  | _, _ => null

def ofInstant (t : Instant) : Value := instant t.microseconds

def ofOption {α : Type} (f : α → Value) : Option α → Value
  | none => null
  | some a => f a

end Value

/-- A column of the table. -/
inductive Column
  | id
  | aggregateType
  | aggregateId
  | eventType
  | topic
  | payload
  | status
  | retryCount
  | createdAt
  | publishedAt
  | lastError
  | claimedBy
  | claimedAt
  deriving DecidableEq, Repr

def Column.name : Column → String
  | id => "id"
  | aggregateType => "aggregate_type"
  | aggregateId => "aggregate_id"
  | eventType => "event_type"
  | topic => "topic"
  | payload => "payload"
  | status => "status"
  | retryCount => "retry_count"
  | createdAt => "created_at"
  | publishedAt => "published_at"
  | lastError => "last_error"
  | claimedBy => "claimed_by"
  | claimedAt => "claimed_at"

abbrev Row := Column → Value

namespace Row

/-- The row with one cell changed. -/
def set (r : Row) (c : Column) (v : Value) : Row := fun d => if d = c then v else r d

/-- A row of which nothing is given; pending, and never tried. -/
def empty : Row
  | .status => .status .pending
  | .retryCount => .integer 0
  | _ => .null

def ofEntry (e : Entry) : Row
  | .id => .uuid e.id
  | .aggregateType => .text e.aggregateType
  | .aggregateId => .text e.aggregateId
  | .eventType => .text e.eventType
  | .topic => .text e.topic
  | .payload => .text e.payload
  | .status => .status e.status
  | .retryCount => .integer e.retryCount
  | .createdAt => .ofInstant e.createdAt
  | .publishedAt => .ofOption .ofInstant e.publishedAt
  | .lastError => .ofOption .text e.lastError
  | .claimedBy => .ofOption .text e.claimedBy
  | .claimedAt => .ofOption .ofInstant e.claimedAt

def text? (r : Row) (c : Column) : Option String :=
  match r c with
  | .text s => some s
  | _ => none

def instant? (r : Row) (c : Column) : Option Instant :=
  match r c with
  | .instant n => some (.ofMicroseconds n)
  | _ => none

/-- The content of a cell that may be null. -/
def nullable {α : Type} (get : Row → Column → Option α) (r : Row) (c : Column) :
    Option (Option α) :=
  match r c with
  | .null => some none
  | _ => (get r c).map some

def id? (r : Row) : Option Uuid :=
  match r .id with
  | .uuid u => some u
  | _ => none

def status? (r : Row) : Option Status :=
  match r .status with
  | .status s => some s
  | _ => none

def count? (r : Row) : Option Int :=
  match r .retryCount with
  | .integer i => some i
  | _ => none

/-- The entry of a row whose cells hold what their columns ask for. -/
def entry? (r : Row) : Option Entry := do
  return {
    id := ← r.id?
    aggregateType := ← r.text? .aggregateType
    aggregateId := ← r.text? .aggregateId
    eventType := ← r.text? .eventType
    topic := ← r.text? .topic
    payload := ← r.text? .payload
    status := ← r.status?
    retryCount := ← r.count?
    createdAt := ← r.instant? .createdAt
    publishedAt := ← nullable instant? r .publishedAt
    lastError := ← nullable text? r .lastError
    claimedBy := ← nullable text? r .claimedBy
    claimedAt := ← nullable instant? r .claimedAt }

end Row
end Outbox.Sql

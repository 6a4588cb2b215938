import Outbox.Admin.Query

/-!
# Requests of administrators

A request is routed by its path, segment by segment, and then by its method. A segment that stands
for an id is decoded; all others stand for themselves.
-/

namespace Outbox.Admin

/-- A request. -/
structure Request where
  method : String
  /-- The path, and after a question mark the query. -/
  target : String
  /-- The secret that the request shows. -/
  secret : Option String
  deriving DecidableEq, Repr

/-- A response. -/
structure Response where
  status : Nat
  body : String
  deriving DecidableEq, Repr

namespace Request

/-- The target without what follows a number sign. -/
def address (r : Request) : List Char := r.target.toList.takeWhile (· ≠ '#')

def path (r : Request) : List Char := r.address.takeWhile (· ≠ '?')

/-- The text behind the question mark. -/
def query (r : Request) : List Char := (r.address.dropWhile (· ≠ '?')).drop 1

end Request

/-- A place that requests go to. -/
inductive Resource
  | health
  | entries
  /-- One entry, by the segment that names it. -/
  | entry (segment : List Char)
  | replay (segment : List Char)
  | stats
  deriving DecidableEq, Repr

namespace Resource

/-- The place that a path leads to. -/
def ofPath? (path : List Char) : Option Resource :=
  match (path.splitOn '/').map String.ofList with
  | ["", "health"] => some health
  | ["", "admin", "stats"] => some stats
  | ["", "admin", "entries"] => some entries
  | ["", "admin", "entries", id] => if id.isEmpty then none else some (entry id.toList)
  | ["", "admin", "entries", id, "replay"] => if id.isEmpty then none else some (replay id.toList)
  | _ => none

/-- The method that a place answers to. -/
def method : Resource → String
  | replay _ => "POST"
  | _ => "GET"

/-- The place answers to a method; asking only for the head is a way of getting. -/
def allows (r : Resource) (method : String) : Bool :=
  method = r.method || (method = "HEAD" && r.method = "GET")

/-- The place is open to everybody. -/
def isOpen : Resource → Bool
  | health => true
  | _ => false

end Resource

/-- The id that a segment names. -/
def segmentId? (segment : List Char) : Option Uuid := do
  let cs ← Text.ofUtf8? (Text.percentDecode segment)
  Uuid.parse? (String.ofList cs)

end Outbox.Admin

import Outbox.Json.Writer
import Outbox.Log.Filter

/-!
# How log lines are written

As plain text, with the level in a column of its own, or as JSON.
-/

namespace Outbox.Log

/-- The width of the column of levels. -/
def levelWidth : Nat := 5

/-- A text moved to the right of a column. -/
def padLeft (width : Nat) (s : String) : String :=
  String.ofList (List.replicate (width - s.length) ' ') ++ s

namespace Line

def text (l : Line) : String :=
  padLeft levelWidth l.level.name ++ " " ++ l.target ++ ": " ++ l.message

def toJson (l : Line) : Json :=
  .record [("level", .text l.level.name), ("fields", .record [("message", .text l.message)]),
    ("target", .text l.target)]

/-- A line in the form asked for. -/
def render (json : Bool) (l : Line) : String := if json then l.toJson.render else l.text

end Line
end Outbox.Log

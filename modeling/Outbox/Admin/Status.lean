import Outbox.Entry.Status
import Outbox.Json.Decoder

/-!
# The status that administrators name

Requests and responses have a status of their own, by its name. Each one stands for a status of
entries.
-/

namespace Outbox.Admin

/-- Delivery status as administrators see it. -/
inductive StatusView
  | pending
  | published
  | failed
  deriving DecidableEq, Repr

namespace StatusView

def all : List StatusView := [pending, published, failed]

/-- The name used in requests and responses. -/
def name : StatusView → String
  | pending => "pending"
  | published => "published"
  | failed => "failed"

def names : List (String × StatusView) := all.map fun s => (s.name, s)

def ofName? (s : String) : Option StatusView := names.lookup s

/-- Reads a status by its name. -/
def decode : Json.Decoder StatusView := Json.decodeChoice names

/-- The JSON text of a status. -/
def toJson (s : StatusView) : Json := .text s.name

def ofStatus : Status → StatusView
  | .pending => pending
  | .published => published
  | .failed => failed

/-- The status of entries that it stands for. -/
def toStatus : StatusView → Status
  | pending => .pending
  | published => .published
  | failed => .failed

@[simp] theorem ofName?_name (s : StatusView) : ofName? s.name = some s := by
  cases s <;> decide

@[simp] theorem toStatus_ofStatus (t : Status) : (ofStatus t).toStatus = t := by
  cases t <;> rfl

@[simp] theorem ofStatus_toStatus (s : StatusView) : ofStatus s.toStatus = s := by
  cases s <;> rfl

end StatusView
end Outbox.Admin

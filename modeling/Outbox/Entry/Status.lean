/-!
# Delivery status

An entry waits, is delivered, or is given up. The last two are terminal: no delivery attempt leaves
them.
-/

namespace Outbox

/-- Delivery status of an entry. -/
inductive Status
  | pending
  | published
  | failed
  deriving DecidableEq, Repr, Inhabited

namespace Status

def all : List Status := [pending, published, failed]

/-- The name used in tables. -/
def name : Status → String
  | pending => "pending"
  | published => "published"
  | failed => "failed"

def title : Status → String
  | pending => "Pending"
  | published => "Published"
  | failed => "Failed"

/-- Delivery attempts never leave the status. -/
def isTerminal : Status → Bool
  | pending => false
  | _ => true

@[simp] theorem isTerminal_eq_false {s : Status} : s.isTerminal = false ↔ s = pending := by
  cases s <;> decide

end Status
end Outbox

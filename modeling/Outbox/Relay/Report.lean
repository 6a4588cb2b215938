/-!
# Reports of ticks

A tick counts what became of each candidate.
-/

namespace Outbox.Relay

/-- What became of a candidate. -/
inductive Outcome
  | published
  /-- The attempt failed and another one will follow. -/
  | retried
  /-- The attempt failed and was the last one. -/
  | exhausted
  /-- The broker rejected the message. -/
  | rejected
  /-- Another worker was faster. -/
  | contended
  /-- The entry moved on before the outcome was recorded. -/
  | leaseLost
  /-- The store failed. -/
  | error
  deriving DecidableEq, Repr

/-- What became of the candidates of a tick. -/
structure Report where
  candidates : Nat
  published : Nat
  retried : Nat
  /-- Candidates that failed for good, and the entries that were retired before. -/
  failed : Nat
  contended : Nat
  leaseLost : Nat
  errors : Nat
  deriving DecidableEq, Repr

namespace Report

/-- The report before the first candidate. -/
def start (candidates retired : Nat) : Report :=
  { candidates, published := 0, retried := 0, failed := retired, contended := 0, leaseLost := 0,
    errors := 0 }

/-- Counts what became of one more candidate. -/
def add (r : Report) : Outcome → Report
  | .published => { r with published := r.published + 1 }
  | .retried => { r with retried := r.retried + 1 }
  | .exhausted | .rejected => { r with failed := r.failed + 1 }
  | .contended => { r with contended := r.contended + 1 }
  | .leaseLost => { r with leaseLost := r.leaseLost + 1 }
  | .error => { r with errors := r.errors + 1 }

end Report
end Outbox.Relay

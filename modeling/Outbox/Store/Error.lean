import Outbox.Uuid

/-!
# What can go wrong in a store

A store reports faults of the database, and refuses a claim or an outcome for which somebody else
was faster. A database that gave up waiting for a lock is told apart from all its other faults.
-/

namespace Outbox

/-- A fault of the database or of the way to it. -/
inductive DatabaseError
  /-- The database refused a statement, with a code of five characters if it gave one. -/
  | refused (code : Option String) (message : String)
  | noRow
  | poolClosed
  | poolTimedOut
  /-- The connection failed. -/
  | unreachable (detail : String)
  /-- The address of the database is none. -/
  | misconfigured (detail : String)
  deriving DecidableEq, Repr

namespace DatabaseError

/-- The code of a database that gave up waiting for a lock. -/
def lockNotAvailable : String := "55P03"

/-- The database gave up waiting for a lock. -/
def isLockTimeout : DatabaseError → Bool
  | refused (some code) _ => code = lockNotAvailable
  | _ => false

def message : DatabaseError → String
  | refused _ m => "error returned from database: " ++ m
  | noRow => "no rows returned by a query that expected to return at least one row"
  | poolClosed => "attempted to acquire a connection on a closed pool"
  | poolTimedOut => "pool timed out while waiting for an open connection"
  | unreachable detail => "error communicating with database: " ++ detail
  | misconfigured detail => "error with configuration: " ++ detail

/-- There is no way to the database at all. -/
def noNetwork : DatabaseError := unreachable "Network is unreachable (os error 101)"

end DatabaseError

/-- Why a store did not do what it was asked. -/
inductive StoreError
  | database (e : DatabaseError)
  /-- Another worker claimed the entry first, or it can no longer be claimed. -/
  | claimContention (id : Uuid)
  /-- The entry moved on before its outcome was recorded. -/
  | leaseLost (id : Uuid)
  | lockTimeout
  deriving DecidableEq

namespace StoreError

/-- The error of a store for a fault of its database. -/
def ofDatabase (e : DatabaseError) : StoreError :=
  if e.isLockTimeout then lockTimeout else database e

def message : StoreError → String
  | database e => "database error: " ++ e.message
  | claimContention id => s!"entry {id} was claimed by another worker"
  | leaseLost id => s!"lease on entry {id} was lost before the outcome was recorded"
  | lockTimeout => "lock timeout while purging outbox entries"

end StoreError
end Outbox

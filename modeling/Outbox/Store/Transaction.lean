import Outbox.Event.Basic
import Outbox.Store.Table

/-!
# Transactions

Entries are staged in an open transaction and enter the table together when it is committed. A
transaction that is rolled back or replaced takes its entries with it.
-/

namespace Outbox

/-- A table and the transactions open on it, by name. -/
structure Store where
  table : Table
  openTransactions : List (String × List Entry)
  deriving Inhabited

namespace Store

/-- A store with no transaction open. -/
def ofTable (t : Table) : Store := ⟨t, []⟩

/-- The entries staged in an open transaction. -/
def staged? (s : Store) (tx : String) : Option (List Entry) := s.openTransactions.lookup tx

/-- The transactions other than one. -/
def others (s : Store) (tx : String) : List (String × List Entry) :=
  s.openTransactions.filter fun p => p.1 ≠ tx

/-- Opens a transaction; one already open under the name is dropped. -/
def begin (s : Store) (tx : String) : Store :=
  { s with openTransactions := (tx, []) :: s.others tx }

def insert? (s : Store) (tx : String) (e : Entry) : Option Store := do
  let es ← s.staged? tx
  return { s with openTransactions := (tx, es ++ [e]) :: s.others tx }

/-- Moves the staged entries to the end of the table. -/
def commit? (s : Store) (tx : String) : Option Store := do
  let es ← s.staged? tx
  return ⟨s.table ++ es, s.others tx⟩

def rollback? (s : Store) (tx : String) : Option Store := do
  let _ ← s.staged? tx
  return { s with openTransactions := s.others tx }

end Store

/-- Why an event was not recorded. -/
inductive AppendError
  | serialization (e : Event.NonFinite)
  | invalid (kind : Event.Kind) (e : FieldError)
  | store (e : StoreError)

def AppendError.message : AppendError → String
  | serialization e => e.message
  | invalid k e => s!"invalid outbox entry for {k.name}: {e.message}"
  | store e => "failed to write outbox entry: " ++ e.message

/-- The entry that records an event. -/
def Event.entry (e : Event) (id : Uuid) (now : Instant) : Except AppendError Entry := do
  let d ← e.draft.mapError AppendError.serialization
  (Entry.create id d now).mapError (AppendError.invalid e.kind)

/-- Records an event in an open transaction. -/
def Store.append? (s : Store) (tx : String) (e : Event) (id : Uuid) (now : Instant) :
    Option (Except AppendError Entry × Store) := do
  let _ ← s.staged? tx
  match e.entry id now with
  | .error err => return (.error err, s)
  | .ok row =>
    let s ← s.insert? tx row
    return (.ok row, s)

end Outbox

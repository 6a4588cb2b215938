import Outbox.Entry.Transition
import Outbox.Store.Remote

/-!
# The declaration of the table

What each column of the table takes, the checks on each row, and the guard of its changes. What
comes in with an entry never changes, a published row never changes, and a failed one is only put
back.
-/

namespace Outbox.Sql

/-- The database takes any text but one with the character of code zero. -/
def IsPlain (s : String) : Prop := Char.ofNat 0 ∉ s.toList

namespace Column

/-- How many characters a column takes, if their number is bounded. -/
def capacity : Column → Option Nat
  | aggregateType => some 50
  | aggregateId => some 36
  | eventType => some 100
  | topic => some 100
  | claimedBy => some 100
  | _ => none

/-- The column may be null. -/
def isOptional : Column → Bool
  | publishedAt | lastError | claimedBy | claimedAt => true
  | _ => false

/-- A text for a column of text. -/
def Fits (c : Column) (s : String) : Prop := IsPlain s ∧ ∀ n, c.capacity = some n → s.length ≤ n

/-- The column takes the value. -/
def Takes (c : Column) (v : Value) : Prop :=
  match Remote.kindOf c, v with
  | _, .null => c.isOptional
  | .uuid, .uuid _ | .status, .status _ | .instant, .instant _ => True
  | .text, .text s => c.Fits s
  | .int4, .integer i => -Entry.greatestCount - 1 ≤ i ∧ i ≤ Entry.greatestCount
  | _, _ => False

/-- The columns that come in with an entry and never change. -/
def creation : List Column := [id, aggregateType, aggregateId, eventType, topic, payload, createdAt]

end Column

/-- The row passes the checks of the table. -/
structure Row.Allowed (r : Row) : Prop where
  takes : ∀ c : Column, c.Takes (r c)
  count : ∀ i, r .retryCount = .integer i → 0 ≤ i
  published : r .status = .status .published ↔ r .publishedAt ≠ .null
  claim : r .claimedBy = .null ↔ r .claimedAt = .null

/-- The guard lets a row be replaced by another one. -/
structure Row.Passes (old new : Row) : Prop where
  creation : ∀ c ∈ Column.creation, new c = old c
  published : old .status ≠ .status .published
  failed : old .status = .status .failed →
    new .status = .status .pending ∧ new .retryCount = .integer 0
  pending : old .status = .status .pending →
    ∀ i j, old .retryCount = .integer i → new .retryCount = .integer j → i ≤ j

end Outbox.Sql

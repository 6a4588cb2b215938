import Outbox.Admin.Status
import Outbox.Store.Table
import Outbox.Text.Percent

/-!
# Queries for listings

A query asks for a page of entries, filtered by status and event type. However much it asks for, a
page and its offset are bounded.
-/

namespace Outbox.Admin

open Json (Decoder Field decodeText decodeInt decodeRecord)

/-- A query for a page of entries. -/
structure ListQuery where
  limit : Int
  offset : Int
  status : Option StatusView
  eventType : Option String
  deriving DecidableEq

namespace ListQuery

/-- Entries on a page that asks for no number of its own. -/
def defaultLimit : Int := 20

/-- The most entries on a page. -/
def greatestLimit : Int := 200

/-- The most entries left out before a page. -/
def greatestOffset : Int := 100000

/-- The nearest number from `low` to `high`. -/
def clamp (low high n : Int) : Int := max low (min high n)

/-- The limit and the offset brought into their bounds. -/
def clampPage (limit offset : Int) : Int × Int :=
  (clamp 1 greatestLimit limit, clamp 0 greatestOffset offset)

def filter (q : ListQuery) : Filter :=
  let (limit, offset) := clampPage q.limit q.offset
  { status := q.status.map StatusView.toStatus, eventType := q.eventType, limit, offset }

def fields : List Field :=
  [.defaulted "limit" (decodeInt 64 "i64") defaultLimit,
    .defaulted "offset" (decodeInt 64 "i64") 0, .optional "status" StatusView.decode,
    .optional "event_type" decodeText]

def decode : Decoder ListQuery := fun v =>
  decodeRecord "struct ListEntriesQuery" fields v |>.map fun (l, o, s, e, _) => ⟨l, o, s, e⟩

/-- The whole number of 64 bits that a text writes, with or without a sign. -/
def int64? (s : String) : Option Int := do
  let cs := s.toList
  let (negative, ds) := match cs with
    | '-' :: ds => (true, ds)
    | '+' :: ds => (false, ds)
    | ds => (false, ds)
  if ds.isEmpty ∨ ¬ds.all Char.isDigit then none
  let n : Int := ds.foldl (fun a c => a * 10 + Json.digit c) 0
  let i := if negative then -n else n
  if -(Nat.pow 2 63 : Int) ≤ i ∧ i < Nat.pow 2 63 then some i else none

/-- The only value of a name; twice is a fault. -/
def once? (pairs : List (String × String)) (name : String) : Option (Option String) :=
  match pairs.filter (·.1 = name) with
  | [] => some none
  | [p] => some (some p.2)
  | _ => none

/-- Reads a value that may be absent. -/
def read? {α : Type} (pairs : List (String × String)) (name : String) (f : String → Option α) :
    Option (Option α) := do
  match ← once? pairs name with
  | none => some none
  | some s => some (some (← f s))

/-- Reads a query from the text behind the question mark of an address. -/
def ofForm? (cs : List Char) : Option ListQuery := do
  let pairs := Text.formPairs cs
  let limit ← read? pairs "limit" int64?
  let offset ← read? pairs "offset" int64?
  let status ← read? pairs "status" StatusView.ofName?
  let eventType ← read? pairs "event_type" some
  return { limit := limit.getD defaultLimit, offset := offset.getD 0, status, eventType }

end ListQuery
end Outbox.Admin

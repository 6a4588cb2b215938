import Outbox.Decimal.Binary64

/-!
# TOML values

A document is a table of named values. A record is read from a table by the names of its fields, or
from an array by their order.
-/

namespace Outbox

open Decimal

/-- A value of a document. -/
inductive Toml
  | text (s : String)
  | integer (i : Int)
  | float (x : Binary64)
  | boolean (b : Bool)
  /-- A date, a time of day or both, as written. -/
  | moment (s : String)
  | array (items : List Toml)
  | table (members : List (String × Toml))
  deriving Repr, Inhabited

namespace Toml

def leastInteger : Int := -Nat.pow 2 63

def greatestInteger : Int := Nat.pow 2 63 - 1

/-! ### Records -/

/-- A decoder of one value; `none` if the value is of another kind or out of range. -/
abbrev Decoder (α : Type) : Type := Toml → Option α

/-- A value as the members of a record with the fields given. A moment is a record without any of
them. -/
def members? (fields : List String) : Toml → Option (List (String × Toml))
  | table members => some members
  | array items => some (fields.zip items)
  | moment _ => some []
  | _ => none

/-- A field that must be present. -/
def required {α : Type} (decode : Decoder α) (members : List (String × Toml)) (field : String) :
    Option α :=
  (members.lookup field).bind decode

def optional {α : Type} (decode : Decoder α) (default : α) (members : List (String × Toml))
    (field : String) : Option α :=
  match members.lookup field with
  | some v => decode v
  | none => some default

def text? : Decoder String
  | text s => some s
  | _ => none

/-- An integer within bounds. -/
def integer? (least greatest : Int) : Decoder Int
  | integer i => if least ≤ i ∧ i ≤ greatest then some i else none
  | _ => none

/-- An integer that is not negative. -/
def natural? : Decoder Nat
  | integer i => if 0 ≤ i then some i.toNat else none
  | _ => none

end Toml
end Outbox

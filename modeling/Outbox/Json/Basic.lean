import Outbox.Decimal.Shortest

/-!
# JSON values as they are read

A text that is not JSON still has a value: what could be read of it, with the place of the fault
marked in the tree. Whoever walks the tree in document order therefore meets the first fault
first, be it a fault of the text or of the content.
-/

namespace Outbox

open Decimal

/-- A number of a JSON text. -/
inductive Json.Number
  /-- A whole number without fraction and exponent that fits 64 bits. -/
  | integer (i : Int)
  /-- Any other number. -/
  | real (x : Binary64)
  /-- A number beyond the range of double precision. -/
  | outOfRange
  deriving DecidableEq, Repr, Inhabited

/-- A JSON text as far as it could be read. -/
inductive Json
  | null
  | bool (b : Bool)
  | number (n : Json.Number)
  /-- `none` if an escape names half of a surrogate pair. -/
  | string (s : Option String)
  /-- Not closed if the text is at fault before the closing bracket. -/
  | array (items : List Json) (closed : Bool)
  /-- The members in order. A key that is no text ends the reading of the object. -/
  | object (members : List (Json × Json)) (closed : Bool)
  /-- The text is at fault here. -/
  | broken
  deriving Repr, Inhabited

namespace Json

/-- The text holds a value here, whatever the value is. -/
def isWhole : Json → Bool
  | broken => false
  | array _ closed => closed
  | object _ closed => closed
  | _ => true

def text (s : String) : Json := string (some s)

def int (i : Int) : Json := number (.integer i)

/-- An object with the fields given, in order. -/
def record (fields : List (String × Json)) : Json :=
  object (fields.map fun f => (text f.1, f.2)) true

/-- An array with the items given. -/
def list (items : List Json) : Json := array items true

def option {α : Type} (f : α → Json) : Option α → Json
  | none => null
  | some a => f a

/-- Numbers stand without an exponent from `1e-5` up to below `1e16`, whole ones with `.0`. -/
def numberLayout : Layout :=
  { positionalFrom := -5, exponentFrom := 16, wholeSuffix := ".0", plusMark := "e+",
    minusMark := "e-" }

/-- The text of a number; null stands for one that is not finite. -/
def Number.render : Number → String
  | integer i => toString i
  | real x => (numberLayout.text x).getD "null"
  | outOfRange => "null"

end Json
end Outbox

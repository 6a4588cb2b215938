import Outbox.Json.Decoder
import Outbox.Json.Writer

/-!
# Ids

An id is a number of 128 bits, written as 32 hexadecimal digits in groups of 8, 4, 4, 4 and 12. Ids
are ordered as numbers, which is the order of their bytes.
-/

namespace Outbox

/-- An id of 128 bits. -/
structure Uuid where
  toNat : Nat
  isLt : toNat < Nat.pow 2 128
  deriving DecidableEq

namespace Uuid

/-- The id with all bits zero. -/
def nil : Uuid := ⟨0, by decide⟩

instance : Inhabited Uuid := ⟨nil⟩

/-- The id of the low 128 bits of a number. -/
def ofNat (n : Nat) : Uuid := ⟨n % Nat.pow 2 128, Nat.mod_lt _ (by decide)⟩

/-- The low `k` hexadecimal digits of a number, most significant first. -/
def hexDigits : Nat → Nat → List Nat
  | 0, _ => []
  | k + 1, n => n / Nat.pow 16 k % 16 :: hexDigits k n

/-- The 32 digits of an id. -/
def digits (u : Uuid) : List Char := (hexDigits 32 u.toNat).map Text.lowerHexDigit

def simple (u : Uuid) : String := String.ofList u.digits

/-- The characters of the text with its groups separated by dashes. -/
def chars (u : Uuid) : List Char :=
  let d := u.digits
  d.take 8 ++ '-' :: ((d.drop 8).take 4 ++ '-' :: ((d.drop 12).take 4 ++ '-' ::
    ((d.drop 16).take 4 ++ '-' :: d.drop 20)))

/-- The text with its groups separated by dashes. -/
def text (u : Uuid) : String := String.ofList u.chars

instance : ToString Uuid := ⟨text⟩

/-- The number that the digits write after `n`. -/
def ofDigits? : List Char → Nat → Option Nat
  | [], n => some n
  | c :: cs, n => do
    let d ← Text.hexValue? c
    ofDigits? cs (n * 16 + d)

def ofSimple? (cs : List Char) : Option Uuid := do
  if cs.length ≠ 32 then none
  let n ← ofDigits? cs 0
  if h : n < Nat.pow 2 128 then some ⟨n, h⟩ else none

/-- The id of 32 digits in groups separated by dashes. -/
def ofGroups? (cs : List Char) : Option Uuid :=
  if cs.length = 36 ∧ cs[8]? = some '-' ∧ cs[13]? = some '-' ∧ cs[18]? = some '-' ∧
      cs[23]? = some '-' then
    ofSimple? (cs.take 8 ++ (cs.drop 9).take 4 ++ (cs.drop 14).take 4 ++ (cs.drop 19).take 4 ++
      cs.drop 24)
  else none

/-- Stands in front of an id written as a name. -/
def urn : List Char := "urn:uuid:".toList

/-- Reads an id: its 32 digits, or its groups alone, in braces or behind `urn:uuid:`. All letters
may be of either case. -/
def parse? (s : String) : Option Uuid :=
  let cs := s.toList
  if cs.length = 32 then ofSimple? cs
  else if cs.length = 38 ∧ cs.head? = some '\x7b' ∧ cs.getLast? = some '\x7d' then
    ofGroups? ((cs.drop 1).take 36)
  else if urn.isPrefixOf (cs.map Char.toLower) then ofGroups? (cs.drop urn.length)
  else ofGroups? cs

/-- Reads an id from a JSON text. -/
def decode : Json.Decoder Uuid
  | .string (some s) =>
    match parse? s with
    | some u => .ok u
    | none => .error .invalidUuid
  | v => Json.refuse "a formatted UUID string" v

/-- The JSON text of an id. -/
def toJson (u : Uuid) : Json := .text u.text

/-- The version digit, the first of the third group. -/
def version (u : Uuid) : Nat := u.toNat / Nat.pow 16 19 % 16

/-- The id made from 48 bits of time and 74 random bits; ids of later times are greater. -/
def timed (millis random : Nat) : Uuid :=
  let stamp := millis % Nat.pow 2 48 * 16 + 7
  let front := stamp * Nat.pow 2 12 + random / Nat.pow 2 62 % Nat.pow 2 12
  ofNat ((front * 4 + 2) * Nat.pow 2 62 + random % Nat.pow 2 62)

@[ext] theorem ext {u v : Uuid} (h : u.toNat = v.toNat) : u = v := by
  cases u; cases v; simp_all

end Uuid
end Outbox

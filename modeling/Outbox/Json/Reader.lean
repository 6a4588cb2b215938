import Outbox.Json.Basic
import Outbox.Text.Digit

/-!
# Reading JSON

Each reader takes the characters that remain and gives what it read with the characters after it, or
with nothing after it if the text is at fault. `Document.read` reads a whole text.
-/

namespace Outbox.Json

open Decimal

/-- White space between the tokens of a text. -/
def isBlank (c : Char) : Bool :=
  c = ' ' || c = '\n' || c = '\t' || c = '\r'

def skipBlank (cs : List Char) : List Char := cs.dropWhile isBlank

/-- The value of a decimal digit. -/
def digit (c : Char) : Nat := c.toNat - '0'.toNat

/-- The value of four hexadecimal digits. -/
def hex4? (a b c d : Char) : Option Nat := Text.digits? 16 [a, b, c, d]

/-! ### Numbers -/

/-- The greatest significand: what 64 bits hold. -/
def significandLimit : Nat := Nat.pow 2 64 - 1

/-- Appends digits to a significand as long as it fits 64 bits; how many digits were left over. -/
def appendDigits : List Char → Nat → Nat × Nat
  | [], n => (n, 0)
  | c :: cs, n =>
    if n * 10 + digit c > significandLimit then (n, (c :: cs).length)
    else appendDigits cs (n * 10 + digit c)

/-- The greatest exponent that is read as a number. -/
def exponentLimit : Nat := Nat.pow 2 31 - 1

/-- The parts of a number as written. -/
structure Numeral where
  negative : Bool
  whole : List Char
  fraction : Option (List Char)
  /-- The sign, negative if true, and the digits. -/
  exponent : Option (Bool × List Char)

/-- A number with a fraction, an exponent, or more digits than fit. -/
def Numeral.real (n : Numeral) : Number :=
  let (m, excess) := appendDigits n.whole 0
  let fraction := n.fraction.getD []
  let (m, left) := appendDigits fraction m
  let shift : Int := (excess : Int) - ((fraction.length : Int) - (left : Int))
  let result (e : Int) : Number :=
    match Binary64.scaled n.negative m e with
    | some x => .real x
    | none => .outOfRange
  match n.exponent with
  | none => result shift
  | some (down, ds) =>
    let e := ds.foldl (fun a c => a * 10 + digit c) 0
    if e > exponentLimit then
      if m ≠ 0 ∧ ¬down then .outOfRange
      else .real (.finite n.negative 0 Binary64.leastExponent)
    else result (if down then shift - e else shift + e)

/-- The value of a number: a whole one that fits 64 bits stays whole, negative zero excepted. -/
def Numeral.value (n : Numeral) : Number :=
  match n.fraction, n.exponent, appendDigits n.whole 0 with
  | none, none, (m, 0) =>
    if ¬n.negative then .integer m
    else if 1 ≤ m ∧ m ≤ Nat.pow 2 63 then .integer (-(m : Int))
    else .real (Binary64.ofNat true m)
  | _, _, _ => n.real

/-- Reads the part of a number behind the point, if there is one. -/
def readFraction : List Char → Option (Option (List Char) × List Char)
  | '.' :: r =>
    let ds := r.takeWhile Char.isDigit
    if ds.isEmpty then none else some (some ds, r.dropWhile Char.isDigit)
  | r => some (none, r)

/-- Reads the exponent of a number, if there is one. -/
def readExponent : List Char → Option (Option (Bool × List Char) × List Char)
  | c :: r =>
    if c = 'e' ∨ c = 'E' then
      let (down, r) := match r with
        | '+' :: r => (false, r)
        | '-' :: r => (true, r)
        | r => (false, r)
      let ds := r.takeWhile Char.isDigit
      if ds.isEmpty then none else some (some (down, ds), r.dropWhile Char.isDigit)
    else some (none, c :: r)
  | [] => some (none, [])

/-- Reads a number behind its sign. -/
def readNumber (negative : Bool) (cs : List Char) : Option (Number × List Char) := do
  let whole := cs.takeWhile Char.isDigit
  if whole.isEmpty ∨ (whole.head? = some '0' ∧ whole.length > 1) then none
  let (fraction, r) ← readFraction (cs.dropWhile Char.isDigit)
  let (exponent, r) ← readExponent r
  return ((Numeral.mk negative whole fraction exponent).value, r)

/-! ### Texts -/

/-- The character of an escape of one letter. -/
def shortEscape? (c : Char) : Option Char :=
  if c = '"' ∨ c = '\\' ∨ c = '/' then some c
  else if c = 'b' then some (Char.ofNat 0x08)
  else if c = 'f' then some (Char.ofNat 0x0C)
  else if c = 'n' then some '\n'
  else if c = 'r' then some '\r'
  else if c = 't' then some '\t'
  else none

/-- First half of a surrogate pair. -/
def isLead (n : Nat) : Bool := 0xD800 ≤ n && n ≤ 0xDBFF

/-- Second half of a surrogate pair. -/
def isTrail (n : Nat) : Bool := 0xDC00 ≤ n && n ≤ 0xDFFF

/-- Puts a character in front of a text that was read. -/
def consText (c : Char) : Option (Option (List Char) × List Char) →
    Option (Option (List Char) × List Char) :=
  Option.map fun (s, r) => (s.map (c :: ·), r)

/-- Reads a text behind its opening quote. The text itself is missing if an escape names half of a
surrogate pair; all else at fault ends the reading. -/
def readText : List Char → Option (Option (List Char) × List Char)
  | [] => none
  | '"' :: r => some (some [], r)
  | '\\' :: 'u' :: a :: b :: c :: d :: r =>
    match hex4? a b c d with
    | none => none
    | some n =>
      if isLead n then
        match r with
        | '\\' :: 'u' :: a' :: b' :: c' :: d' :: r' =>
          match hex4? a' b' c' d' with
          | none => none
          | some n' =>
            if isTrail n' then
              consText (Char.ofNat (0x10000 + (n - 0xD800) * 0x400 + (n' - 0xDC00))) (readText r')
            else (readText ('\\' :: 'u' :: a' :: b' :: c' :: d' :: r')).map fun (_, q) => (none, q)
        | r => (readText r).map fun (_, q) => (none, q)
      else if isTrail n then (readText r).map fun (_, q) => (none, q)
      else consText (Char.ofNat n) (readText r)
  | '\\' :: c :: r =>
    match shortEscape? c with
    | none => none
    | some c => consText c (readText r)
  | c :: r => if c.toNat < 0x20 then none else consText c (readText r)
termination_by cs => cs.length

/-! ### Values -/

/-- Reads the rest of a literal name. -/
def readName (name : List Char) (v : Json) (cs : List Char) : Json × Option (List Char) :=
  if name.isPrefixOf cs then (v, some (cs.drop name.length)) else (broken, none)

mutual

/-- Reads a value. The first argument bounds the depth of the calls. -/
def readValue : Nat → List Char → Json × Option (List Char)
  | 0, _ => (broken, none)
  | fuel + 1, cs =>
    match skipBlank cs with
    | 'n' :: r => readName "ull".toList null r
    | 't' :: r => readName "rue".toList (bool true) r
    | 'f' :: r => readName "alse".toList (bool false) r
    | '"' :: r =>
      match readText r with
      | none => (broken, none)
      | some (s, r) => (string (s.map String.ofList), some r)
    | '[' :: r =>
      match skipBlank r with
      | ']' :: r => (array [] true, some r)
      | r =>
        let (items, rest) := readItems fuel r
        (array items rest.isSome, rest)
    | '\x7b' :: r =>
      match skipBlank r with
      | '\x7d' :: r => (object [] true, some r)
      | r =>
        let (members, rest) := readMembers fuel r
        (object members rest.isSome, rest)
    | '-' :: r =>
      match readNumber true r with
      | none => (broken, none)
      | some (n, r) => (number n, some r)
    | r =>
      match readNumber false r with
      | none => (broken, none)
      | some (n, r) => (number n, some r)

/-- Reads the items of an array that holds at least one. -/
def readItems : Nat → List Char → List Json × Option (List Char)
  | 0, _ => ([], none)
  | fuel + 1, cs =>
    match readValue fuel cs with
    | (v, none) => ([v], none)
    | (v, some r) =>
      match skipBlank r with
      | ',' :: r =>
        let (vs, rest) := readItems fuel r
        (v :: vs, rest)
      | ']' :: r => ([v], some r)
      | _ => ([v], none)

/-- Reads the members of an object that holds at least one. -/
def readMembers : Nat → List Char → List (Json × Json) × Option (List Char)
  | 0, _ => ([], none)
  | fuel + 1, cs =>
    match readValue fuel cs with
    | (string k, some r) =>
      match skipBlank r with
      | ':' :: r =>
        match readValue fuel r with
        | (v, none) => ([(string k, v)], none)
        | (v, some r) =>
          match skipBlank r with
          | ',' :: r =>
            let (ms, rest) := readMembers fuel r
            ((string k, v) :: ms, rest)
          | '\x7d' :: r => ([(string k, v)], some r)
          | _ => ([(string k, v)], none)
      | _ => ([(string k, broken)], none)
    | (k, _) => ([(k, broken)], none)

end

/-- A text read as one value. -/
structure Document where
  root : Json
  /-- Nothing but white space follows the value. -/
  clean : Bool

def Document.read (s : String) : Document :=
  let cs := s.toList
  match readValue (2 * cs.length + 2) cs with
  | (v, none) => ⟨v, false⟩
  | (v, some r) => ⟨v, (skipBlank r).isEmpty⟩

end Outbox.Json

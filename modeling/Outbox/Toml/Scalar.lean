import Outbox.Toml.Lexeme

/-!
# Numbers, truth values, dates and times

Such a value is one word without blanks, except that a blank can stand between a date and a time.
-/

namespace Outbox.Toml

open Decimal

/-! ### Numbers -/

/-- The digits of a numeral without the underscores between them; `none` if an underscore stands
elsewhere. -/
def grouped? (cs : List Char) : Option (List Char) :=
  let groups := cs.splitOn '_'
  if groups.all fun g => !g.isEmpty then some groups.flatten else none

/-- The value of a numeral in groups. -/
def numeral? (base : Nat) (cs : List Char) : Option Nat := do
  Text.digits? base (← grouped? cs)

/-- Takes off a sign, negative if true. -/
def takeSign : List Char → Bool × List Char
  | '+' :: r => (false, r)
  | '-' :: r => (true, r)
  | r => (false, r)

/-- A numeral in base ten without leading zeros. -/
def decimal? (cs : List Char) : Option Nat :=
  if cs.head? = some '0' ∧ cs.length > 1 then none else numeral? 10 cs

/-- An integer that fits. -/
def fitting? (i : Int) : Option Int :=
  if leastInteger ≤ i ∧ i ≤ greatestInteger then some i else none

def integerOf? : List Char → Option Int
  | '0' :: 'x' :: r => do fitting? (← numeral? 16 r)
  | '0' :: 'o' :: r => do fitting? (← numeral? 8 r)
  | '0' :: 'b' :: r => do fitting? (← numeral? 2 r)
  | cs => do
    let (negative, r) := takeSign cs
    let n ← decimal? r
    fitting? (if negative then -(n : Int) else n)

/-- The fraction of a number with the point before it; empty if there is none. -/
def fractionOf? : List Char → Option (List Char)
  | [] => some []
  | _ :: r => do
    let ds ← grouped? r
    if ds.all Char.isDigit then some ds else none

/-- The exponent of a number with the letter before it; zero if there is none. -/
def exponentOf? : List Char → Option Int
  | [] => some 0
  | _ :: r => do
    let (negative, r) := takeSign r
    let n ← numeral? 10 r
    return if negative then -(n : Int) else n

/-- A number named by a word. -/
def namedFloat? (negative : Bool) (cs : List Char) : Option Binary64 :=
  if cs = "inf".toList then some (.infinite negative)
  else if cs = "nan".toList then some .nan
  else none

/-- A float. One that is too great is refused; one that is too small becomes infinite. -/
def floatOf? (cs : List Char) : Option Binary64 := do
  let (negative, cs) := takeSign cs
  match namedFloat? negative cs with
  | some x => return x
  | none =>
    let isExponent (c : Char) := c = 'e' || c = 'E'
    let body := cs.takeWhile fun c => !isExponent c
    let whole := body.takeWhile (· ≠ '.')
    if whole.length = cs.length then none
    let n ← decimal? whole
    let fraction ← fractionOf? (body.dropWhile (· ≠ '.'))
    let exponent ← exponentOf? (cs.dropWhile fun c => !isExponent c)
    let m ← if fraction.isEmpty then some 0 else Text.digits? 10 fraction
    let digits := n * Nat.pow 10 fraction.length + m
    let x := Binary64.ofDecimal negative digits (exponent - fraction.length)
    if x = .infinite false then none else return x

/-! ### Dates and times -/

/-- The value of two digits within bounds. -/
def pair? (least greatest : Nat) (a b : Char) : Option Nat := do
  let n ← Text.digits? 10 [a, b]
  if least ≤ n ∧ n ≤ greatest then some n else none

def daysOf (year month : Nat) : Nat :=
  if month = 2 then
    if year % 4 = 0 ∧ (year % 100 ≠ 0 ∨ year % 400 = 0) then 29 else 28
  else if month = 4 ∨ month = 6 ∨ month = 9 ∨ month = 11 then 30
  else 31

def takeDate? : List Char → Option (List Char)
  | a :: b :: c :: d :: '-' :: e :: f :: '-' :: g :: h :: r => do
    let year ← Text.digits? 10 [a, b, c, d]
    let month ← pair? 1 12 e f
    let _ ← pair? 1 (daysOf year month) g h
    return r
  | _ => none

/-- Takes off a time of day. -/
def takeTime? : List Char → Option (List Char)
  | a :: b :: ':' :: c :: d :: ':' :: e :: f :: r => do
    let _ ← pair? 0 23 a b
    let _ ← pair? 0 59 c d
    let _ ← pair? 0 60 e f
    match r with
    | '.' :: r =>
      if (r.takeWhile Char.isDigit).isEmpty then none else return r.dropWhile Char.isDigit
    | r => return r
  | _ => none

/-- The distance of a clock from universal time. -/
def isOffset : List Char → Bool
  | ['Z'] | ['z'] => true
  | [s, a, b, ':', c, d] =>
    (s = '+' || s = '-') && (pair? 0 23 a b).isSome && (pair? 0 59 c d).isSome
  | _ => false

/-- A time of day behind a date. -/
def isTimeOfDate (cs : List Char) : Bool :=
  match takeTime? cs with
  | some r => r.isEmpty || isOffset r
  | none => false

/-- A date, a time of day, or a date with the time behind a letter. -/
def isMoment (cs : List Char) : Bool :=
  match takeDate? cs with
  | some [] => true
  | some (c :: r) => (c = 'T' || c = 't') && isTimeOfDate r
  | none => takeTime? cs = some []

/-! ### Words -/

def isWordChar (c : Char) : Bool :=
  c.isAlphanum || c = '_' || c = '+' || c = '-' || c = '.' || c = ':'

/-- The value that a word stands for. -/
def ofWord? (cs : List Char) : Option Toml :=
  if cs = "true".toList then some (boolean true)
  else if cs = "false".toList then some (boolean false)
  else if isMoment cs then some (moment (String.ofList cs))
  else
    match floatOf? cs with
    | some x => some (float x)
    | none => (integerOf? cs).map integer

/-- A time of day that follows a date behind one blank. -/
def readTimeOfDate (date cs : List Char) : Option (Toml × List Char) :=
  let t := cs.takeWhile isWordChar
  if isTimeOfDate t then
    some (moment (String.ofList (date ++ ' ' :: t)), cs.dropWhile isWordChar)
  else none

def readWord (cs : List Char) : Option (Toml × List Char) :=
  let w := cs.takeWhile isWordChar
  match cs.dropWhile isWordChar with
  | ' ' :: c :: r =>
    if takeDate? w = some [] ∧ c.isDigit then readTimeOfDate w (c :: r)
    else (ofWord? w).map (·, ' ' :: c :: r)
  | r => (ofWord? w).map (·, r)

end Outbox.Toml

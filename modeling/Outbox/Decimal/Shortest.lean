import Outbox.Decimal.Binary64

/-!
# The shortest decimal that reads back

The decimals that round to a number form an interval around it. `digits` finds the fewest digits
with which a decimal lies in it, and of those decimals the one nearest to the number; `Layout` says
how the digits are written.
-/

namespace Outbox.Decimal

/-- The digits of a natural number, most significant first. -/
def natDigits (n : Nat) : List Nat :=
  (Nat.toDigits 10 n).map fun c => c.toNat - '0'.toNat

/-- The decimals that round to `significand · 2 ^ exponent`: all numbers from `low / unit` to
`high / unit` around `mid / unit`, the ends included if `closed`. -/
structure Neighbourhood where
  low : Nat
  mid : Nat
  high : Nat
  unit : Nat
  closed : Bool

namespace Neighbourhood

/-- The neighbourhood of a number; below a power of two the gap is half as wide. -/
def of (significand : Nat) (exponent : Int) : Neighbourhood :=
  let narrow := significand = Nat.pow 2 52 ∧ exponent > Binary64.leastExponent
  let low := if narrow then 4 * significand - 1 else 4 * significand - 2
  let e := exponent - 2
  let (f, u) := if e ≥ 0 then (Nat.pow 2 e.toNat, 1) else (1, Nat.pow 2 (-e).toNat)
  { low := low * f, mid := 4 * significand * f, high := (4 * significand + 2) * f, unit := u,
    closed := significand % 2 = 0 }

/-- The decimal `q · 10 ^ p` as a multiple of `1 / unit`, over the denominator beside it. -/
def place (b : Neighbourhood) (q : Nat) (p : Int) : Nat × Nat :=
  if p ≥ 0 then (q * Nat.pow 10 p.toNat * b.unit, 1) else (q * b.unit, Nat.pow 10 (-p).toNat)

/-- The decimal `q · 10 ^ p` rounds to the number. -/
def holds (b : Neighbourhood) (q : Nat) (p : Int) : Bool :=
  let (n, d) := b.place q p
  if b.closed then b.low * d ≤ n && n ≤ b.high * d else b.low * d < n && n < b.high * d

/-- How far `q · 10 ^ p` is from the number, over the denominator of `place`. -/
def distance (b : Neighbourhood) (q : Nat) (p : Int) : Nat :=
  let (n, d) := b.place q p
  (n - b.mid * d) + (b.mid * d - n)

/-- The greatest multiple of `10 ^ p` not above the number, counted in `10 ^ p`. -/
def floorAt (b : Neighbourhood) (p : Int) : Nat :=
  if p ≥ 0 then b.mid / (b.unit * Nat.pow 10 p.toNat)
  else b.mid * Nat.pow 10 (-p).toNat / b.unit

/-- The one of the two neighbours on the grid `10 ^ p` that rounds to the number; of two the
nearer, and in a tie the even one. -/
def onGrid (b : Neighbourhood) (p : Int) : Option Nat :=
  let q := b.floorAt p
  match b.holds q p, b.holds (q + 1) p with
  | true, true =>
    let dl := b.distance q p
    let dh := b.distance (q + 1) p
    some (if dl < dh ∨ (dl = dh ∧ q % 2 = 0) then q else q + 1)
  | true, false => some q
  | false, true => some (q + 1)
  | false, false => none

/-- The least `k` with the number below `10 ^ k`, by counting up from `k` with the steps given. -/
def exponentBelow (b : Neighbourhood) : Nat → Int → Int
  | 0, k => k
  | steps + 1, k => if b.floorAt k = 0 then k else b.exponentBelow steps (k + 1)

/-- The first grid, from the coarsest of the list, with a neighbour that rounds to the number. -/
def search (b : Neighbourhood) : List Int → Nat × Int
  | [] => (0, 0)
  | p :: ps =>
    match b.onGrid p with
    | some q => (q, p)
    | none => b.search ps

end Neighbourhood

/-- Takes the zeros at the end of `q` into the exponent. -/
def stripZeros : Nat → Nat → Int → Nat × Int
  | 0, q, p => (q, p)
  | steps + 1, q, p => if q ≠ 0 ∧ q % 10 = 0 then stripZeros steps (q / 10) (p + 1) else (q, p)

/-- The shortest decimal `q · 10 ^ p` that rounds to `significand · 2 ^ exponent`, which is not
zero. Seventeen digits always suffice. -/
def shortest (significand : Nat) (exponent : Int) : Nat × Int :=
  let b := Neighbourhood.of significand exponent
  let k := b.exponentBelow 640 (-325)
  let (q, p) := b.search ((List.range 18).map fun n => k - (n + 1 : Nat))
  stripZeros 20 q p

/-- How a decimal is laid out. -/
structure Layout where
  /-- Written without an exponent if the exponent of the first digit is at least this. -/
  positionalFrom : Int
  /-- Written with an exponent if the exponent of the first digit is at least this. -/
  exponentFrom : Int
  /-- Written after a whole number in positional form. -/
  wholeSuffix : String
  /-- Written between the digits and a positive exponent. -/
  plusMark : String
  /-- Written between the digits and a negative exponent. -/
  minusMark : String

namespace Layout

/-- The digits of `q` as text. -/
def digitText (q : Nat) : String := String.ofList (Nat.toDigits 10 q)

/-- The decimal `q · 10 ^ p`, `q` not ending in zero. -/
def positive (l : Layout) (q : Nat) (p : Int) : String :=
  let ds := Nat.toDigits 10 q
  let n := ds.length
  let first := p + n - 1
  if l.positionalFrom ≤ first ∧ first < l.exponentFrom then
    if p ≥ 0 then String.ofList (ds ++ List.replicate p.toNat '0') ++ l.wholeSuffix
    else if first ≥ 0 then
      let whole := (p + n).toNat
      String.ofList (ds.take whole) ++ "." ++ String.ofList (ds.drop whole)
    else "0." ++ String.ofList (List.replicate (-first - 1).toNat '0' ++ ds)
  else
    let head := match ds with
      | [] => ""
      | [d] => String.ofList [d]
      | d :: r => String.ofList (d :: '.' :: r)
    head ++ (if first < 0 then l.minusMark else l.plusMark) ++ digitText first.natAbs

/-- The text of a finite number; the others have none. -/
def text (l : Layout) : Binary64 → Option String
  | .finite s 0 _ => some ((if s then "-" else "") ++ "0" ++ l.wholeSuffix)
  | .finite s m e =>
    let (q, p) := shortest m e
    some ((if s then "-" else "") ++ l.positive q p)
  | _ => none

end Layout
end Outbox.Decimal

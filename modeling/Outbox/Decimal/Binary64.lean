/-!
# Double precision numbers

A finite number is `± significand · 2 ^ exponent`, held exactly; arithmetic is exact and then rounds
to nearest, ties to the even significand. Zero has a sign.
-/

namespace Outbox.Decimal

/-- A double precision number. A finite one is in lowest form: its significand has 53 bits, or fewer
with the least exponent `-1074`. -/
inductive Binary64
  | nan
  | infinite (negative : Bool)
  | finite (negative : Bool) (significand : Nat) (exponent : Int)
  deriving DecidableEq, Repr, Inhabited

namespace Binary64

/-- Neither infinite nor the result of an undefined operation. -/
def isFinite : Binary64 → Bool
  | finite .. => true
  | _ => false

/-- The least exponent; numbers below `2 ^ 52 · 2 ^ leastExponent` have fewer digits. -/
def leastExponent : Int := -1074

/-- The greatest exponent of a finite number. -/
def greatestExponent : Int := 971

/-- `n / d` rounded to the nearest natural number, a half to the even neighbour. -/
def roundDiv (n d : Nat) : Nat :=
  let q := n / d
  let r := n % d
  if 2 * r < d ∨ (2 * r = d ∧ q % 2 = 0) then q else q + 1

/-- `n / d` in units of `2 ^ e`, rounded. -/
def inUnits (n d : Nat) (e : Int) : Nat :=
  if e ≥ 0 then roundDiv n (d * Nat.pow 2 e.toNat) else roundDiv (n * Nat.pow 2 (-e).toNat) d

/-- The exponent with which `n / d` has a quotient of 53 or 54 bits, not below the least one. -/
def exponentOf (n d : Nat) : Int :=
  max ((Nat.log2 n : Int) - (Nat.log2 d : Int) - 53) leastExponent

/-- Brings a significand that is one bit too long back to 53 bits, at the next exponent. -/
def normal (n d : Nat) (e : Int) : Nat × Int :=
  let m := inUnits n d e
  if m < Nat.pow 2 53 then (m, e)
  else
    let m' := inUnits n d (e + 1)
    if m' < Nat.pow 2 53 then (m', e + 1) else (m' / 2, e + 2)

/-- The number nearest to `± n / d`; infinite if that is out of range. -/
def ofRatio (negative : Bool) (n d : Nat) : Binary64 :=
  if n = 0 then finite negative 0 leastExponent
  else
    let (m, e) := normal n d (exponentOf n d)
    if e > greatestExponent then infinite negative else finite negative m e

/-- The number nearest to `± n`. -/
def ofNat (negative : Bool) (n : Nat) : Binary64 :=
  ofRatio negative n 1

def ofInt (i : Int) : Binary64 :=
  ofNat (i < 0) i.natAbs

/-- The number nearest to `± m · 10 ^ e`. Powers far beyond the range are not computed. -/
def ofDecimal (negative : Bool) (m : Nat) (e : Int) : Binary64 :=
  if m = 0 then finite negative 0 leastExponent
  else if e ≥ 0 then
    if e > 400 then infinite negative else ofNat negative (m * Nat.pow 10 e.toNat)
  else if 3 * -e > (Nat.log2 m : Int) + 1100 then finite negative 0 leastExponent
  else ofRatio negative m (Nat.pow 10 (-e).toNat)

/-- The magnitude of a finite number as a ratio. -/
def ratio (m : Nat) (e : Int) : Nat × Nat :=
  if e ≥ 0 then (m * Nat.pow 2 e.toNat, 1) else (m, Nat.pow 2 (-e).toNat)

/-- The product of two magnitudes, rounded, with the sign given. -/
def mulMagnitude (negative : Bool) (m₁ : Nat) (e₁ : Int) (m₂ : Nat) (e₂ : Int) : Binary64 :=
  let (n, d) := ratio (m₁ * m₂) (e₁ + e₂)
  ofRatio negative n d

/-- The quotient of two magnitudes, rounded, with the sign given; the divisor is not zero. -/
def divMagnitude (negative : Bool) (m₁ : Nat) (e₁ : Int) (m₂ : Nat) (e₂ : Int) : Binary64 :=
  let (n, d) := ratio m₁ (e₁ - e₂)
  ofRatio negative n (d * m₂)

/-- The number with the sign given in place of its own. -/
def withSign (negative : Bool) : Binary64 → Binary64
  | nan => nan
  | infinite _ => infinite negative
  | finite _ m e => finite negative m e

/-- The greatest power of ten that is finite. -/
def greatestPower : Nat := 308

/-- `x · 10 ^ k`: the power is rounded first, then the product. -/
def scaleUp (x : Binary64) (k : Nat) : Binary64 :=
  match x, ofNat false (Nat.pow 10 k) with
  | finite s m e, finite _ m' e' => mulMagnitude s m e m' e'
  | x, _ => x

/-- `x / 10 ^ k`: the power is rounded first, then the quotient. -/
def scaleDown (x : Binary64) (k : Nat) : Binary64 :=
  match x, ofNat false (Nat.pow 10 k) with
  | finite s m e, finite _ m' e' => divMagnitude s m e m' e'
  | x, _ => x

/-- `x / 10 ^ k` by steps of at most the greatest finite power of ten; zero stays zero. -/
def scaleFarDown (x : Binary64) (k : Nat) : Binary64 :=
  if k ≤ greatestPower then scaleDown x k
  else
    match scaleDown x greatestPower with
    | finite s 0 e => finite s 0 e
    | y => scaleFarDown y (k - greatestPower)
termination_by k
decreasing_by
  have : greatestPower = 308 := rfl
  omega

/-- `± significand · 10 ^ exponent` by one scaling of the rounded significand; `none` if it is out
of range. The result is the nearest number whenever both factors are exact, and can be a neighbour
of it otherwise. -/
def scaled (negative : Bool) (significand : Nat) (exponent : Int) : Option Binary64 :=
  let x := ofNat negative significand
  if exponent < 0 then
    if significand = 0 then some x else some (scaleFarDown x (-exponent).toNat)
  else if exponent.toNat ≤ greatestPower then
    match scaleUp x exponent.toNat with
    | infinite _ => none
    | y => some y
  else if significand = 0 then some x
  else none

@[simp] theorem isFinite_finite {s : Bool} {m : Nat} {e : Int} :
    (finite s m e).isFinite = true := rfl

@[simp] theorem isFinite_nan : nan.isFinite = false := rfl

@[simp] theorem isFinite_infinite {s : Bool} : (infinite s).isFinite = false := rfl

end Binary64
end Outbox.Decimal

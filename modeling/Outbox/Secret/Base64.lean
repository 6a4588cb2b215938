/-!
# Base 64

Three bytes are written as four characters, without padding: a last group of one or two bytes takes
two or three characters. Reading is strict: bits that no byte takes must be zero.
-/

namespace Outbox.Secret.Base64

def char (n : Nat) : Char :=
  if n < 26 then Char.ofNat ('A'.toNat + n)
  else if n < 52 then Char.ofNat ('a'.toNat + (n - 26))
  else if n < 62 then Char.ofNat ('0'.toNat + (n - 52))
  else if n = 62 then '+'
  else '/'

/-- The six bits of a character. -/
def value? (c : Char) : Option Nat :=
  if 'A' ≤ c ∧ c ≤ 'Z' then some (c.toNat - 'A'.toNat)
  else if 'a' ≤ c ∧ c ≤ 'z' then some (c.toNat - 'a'.toNat + 26)
  else if '0' ≤ c ∧ c ≤ '9' then some (c.toNat - '0'.toNat + 52)
  else if c = '+' then some 62
  else if c = '/' then some 63
  else none

def encode : List Nat → List Char
  | [] => []
  | [a] => [char (a / 4), char (a % 4 * 16)]
  | [a, b] => [char (a / 4), char (a % 4 * 16 + b / 16), char (b % 16 * 4)]
  | a :: b :: c :: r =>
    char (a / 4) :: char (a % 4 * 16 + b / 16) :: char (b % 16 * 4 + c / 64) :: char (c % 64) ::
      encode r

def decode? : List Char → Option (List Nat)
  | [] => some []
  | [_] => none
  | [a, b] => do
    let a ← value? a
    let b ← value? b
    if b % 16 ≠ 0 then none
    return [a * 4 + b / 16]
  | [a, b, c] => do
    let a ← value? a
    let b ← value? b
    let c ← value? c
    if c % 4 ≠ 0 then none
    return [a * 4 + b / 16, b % 16 * 16 + c / 4]
  | a :: b :: c :: d :: r => do
    let a ← value? a
    let b ← value? b
    let c ← value? c
    let d ← value? d
    let r ← decode? r
    return (a * 4 + b / 16) :: (b % 16 * 16 + c / 4) :: (c % 4 * 64 + d) :: r

end Outbox.Secret.Base64

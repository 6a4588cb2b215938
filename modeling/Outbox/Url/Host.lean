import Outbox.Text.Percent
import Outbox.Url.Basic
import Outbox.Url.Punycode

/-!
# Reading hosts

A host in brackets is an address of version six. Any other host of a scheme with a usual port is a
name in lower case; if its last label is a number, it is an address of version four.
-/

namespace Outbox.Url

open Net

/-! ### Numbers -/

/-- One number of an address of version 4, in base 16 behind `0x` and in base 8 behind `0`. -/
def ipNumber? : List Char → Option Nat
  | [] => none
  | ['0', x] => if x = 'x' ∨ x = 'X' then some 0 else Text.digits? 8 [x]
  | '0' :: x :: r => if x = 'x' ∨ x = 'X' then Text.digits? 16 r else Text.digits? 8 (x :: r)
  | cs => Text.digits? 10 cs

/-- The labels of a name; an empty one at the end does not count. -/
def labels (cs : List Char) : List (List Char) :=
  let ls := cs.splitOn '.'
  if ls.length > 1 ∧ ls.getLast? = some [] then ls.dropLast else ls

/-- The name can only be an address of version 4. -/
def endsInNumber (cs : List Char) : Bool :=
  match (labels cs).getLast? with
  | some l => (!l.isEmpty && l.all Char.isDigit) || (ipNumber? l).isSome
  | none => false

/-- The address of one to four numbers; the last fills what the others leave. -/
def ipv4? (cs : List Char) : Option Ipv4 := do
  let ls := labels cs
  if ls.length > 4 then none
  let ns ← ls.mapM ipNumber?
  let last ← ns.getLast?
  let front := ns.dropLast
  if front.any (· > 255) ∨ last ≥ Nat.pow 256 (4 - front.length) then none
  return .ofNat (front.foldl (fun a n => a * 256 + n) 0 * Nat.pow 256 (4 - front.length) + last)

/-! ### Names -/

/-- A character that no name of a host can hold. -/
def isForbidden (c : Char) : Bool :=
  c.toNat ≤ 0x20 || c.toNat = 0x7F ||
    ['#', '%', '/', ':', '<', '>', '?', '@', '[', '\\', ']', '^', '|'].contains c

/-- The code of a letter in lower case, for the letters of the Latin, Greek and Cyrillic alphabets
whose cases lie apart by one distance. -/
def lowerCode (n : Nat) : Nat :=
  if 0x41 ≤ n ∧ n ≤ 0x5A then n + 0x20
  else if 0xC0 ≤ n ∧ n ≤ 0xDE ∧ n ≠ 0xD7 then n + 0x20
  else if 0x391 ≤ n ∧ n ≤ 0x3AB ∧ n ≠ 0x3A2 then n + 0x20
  else if 0x400 ≤ n ∧ n ≤ 0x40F then n + 0x50
  else if 0x410 ≤ n ∧ n ≤ 0x42F then n + 0x20
  else n

/-- The form of a character in a name; wide forms become plain, and marks without width vanish. -/
def foldChar (c : Char) : Option Char :=
  let n := c.toNat
  if n = 0xAD ∨ n = 0x200B ∨ n = 0x2060 ∨ n = 0xFEFF then none
  else if n = 0x3002 ∨ n = 0xFF61 then some '.'
  else if 0xFF01 ≤ n ∧ n ≤ 0xFF5E then some (Char.ofNat (lowerCode (n - 0xFEE0)))
  else some (Char.ofNat (lowerCode n))

def plainLabel (cs : List Char) : List Char :=
  if cs.all fun c => c.toNat < 0x80 then cs else "xn--".toList ++ Punycode.encode cs

def plainName (cs : List Char) : List Char :=
  ['.'].intercalate (((cs.filterMap foldChar).splitOn '.').map plainLabel)

/-- The host of a scheme with a usual port. -/
def Host.ofName (cs : List Char) : Except ParseError Host := do
  let some decoded := Text.ofUtf8? (Text.percentDecode cs) | throw .invalidName
  let name := plainName decoded
  if name.isEmpty then throw .emptyHost
  if name.any isForbidden then throw .invalidName
  if endsInNumber name then
    match ipv4? name with
    | some ip => return .v4 ip
    | none => throw .invalidIpv4
  else return .name (String.ofList name)

/-- A control character, or one beyond ASCII. -/
def isControl (c : Char) : Bool := c.toNat < 0x20 || c.toNat ≥ 0x7F

/-- Writes a text with some characters encoded besides the control characters. -/
def encode (also : List Char) (cs : List Char) : String :=
  String.ofList (Text.percentEncode (fun c => !isControl c && !also.contains c) cs)

/-- The host of any other scheme. -/
def Host.ofText (cs : List Char) : Except ParseError Host :=
  if cs.any fun c => c ≠ '%' && !isControl c && isForbidden c then throw .invalidHostCharacter
  else return .name (encode [] cs)

/-- Reads a host; the flag says that the scheme has a usual port. -/
def Host.parse (special : Bool) (cs : List Char) : Except ParseError Host :=
  match cs with
  | '[' :: r =>
    if r.getLast? ≠ some ']' then throw .invalidIpv6
    else
      match Ipv6.parse? r.dropLast with
      | some ip => return .v6 ip
      | none => throw .invalidIpv6
  | cs => if special then Host.ofName cs else Host.ofText cs

end Outbox.Url

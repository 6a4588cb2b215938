import Outbox.Text.Digit

/-!
# Internet addresses

The texts of addresses of both versions. Of the longest runs of zero groups in an address of version
six, the first is left out.
-/

namespace Outbox.Net

/-- An address of version 4. -/
structure Ipv4 where
  a : Nat
  b : Nat
  c : Nat
  d : Nat
  deriving DecidableEq, Repr

/-- An address of version 6: eight groups of sixteen bits. -/
structure Ipv6 where
  groups : List Nat
  deriving DecidableEq, Repr

namespace Ipv4

/-- A byte without leading zeros. -/
def byte? (cs : List Char) : Option Nat :=
  if cs.head? = some '0' ∧ cs.length > 1 then none else Text.below? 10 256 cs

def parse? (cs : List Char) : Option Ipv4 :=
  match cs.splitOn '.' with
  | [a, b, c, d] => do return ⟨← byte? a, ← byte? b, ← byte? c, ← byte? d⟩
  | _ => none

/-- The address with the number given. -/
def ofNat (n : Nat) : Ipv4 :=
  ⟨n / Nat.pow 2 24 % 256, n / Nat.pow 2 16 % 256, n / Nat.pow 2 8 % 256, n % 256⟩

def text (i : Ipv4) : String := ".".intercalate ([i.a, i.b, i.c, i.d].map toString)

end Ipv4

namespace Ipv6

/-- A group of up to four hexadecimal digits. -/
def group? (cs : List Char) : Option Nat :=
  if cs.length > 4 then none else Text.digits? 16 cs

/-- Groups from the parts between colons; the last part may be an address of version 4. -/
def groups? : List (List Char) → Option (List Nat)
  | [] => some []
  | [p] =>
    if p.contains '.' then do
      let i ← Ipv4.parse? p
      return [i.a * 256 + i.b, i.c * 256 + i.d]
    else do return [← group? p]
  | p :: ps => do return (← group? p) :: (← groups? ps)

/-- The parts between colons; no text has no parts. -/
def parts (cs : List Char) : List (List Char) := if cs.isEmpty then [] else cs.splitOn ':'

/-- Splits at the first double colon, if there is one. -/
def splitGap : List Char → Option (List Char × List Char)
  | ':' :: ':' :: r => some ([], r)
  | c :: r => (splitGap r).map fun (a, b) => (c :: a, b)
  | [] => none

/-- Reads eight groups between colons; a double colon stands for one or more groups of zero. -/
def parse? (cs : List Char) : Option Ipv6 :=
  match splitGap cs with
  | none => do
    let gs ← groups? (parts cs)
    if gs.length = 8 then return ⟨gs⟩ else none
  | some (before, after) => do
    if before.contains '.' then none
    let left ← groups? (parts before)
    let right ← groups? (parts after)
    let size := left.length + right.length
    if size ≤ 7 then return ⟨left ++ List.replicate (8 - size) 0 ++ right⟩ else none

/-- The start and the length of the longest run of zeros, the first if there are several. -/
def longestGap (gs : List Nat) : Nat × Nat :=
  (List.range gs.length).foldl (fun best i =>
    let n := ((gs.drop i).takeWhile (· = 0)).length
    if n > best.2 then (i, n) else best) (0, 0)

/-- A group in lower case without leading zeros. -/
def groupText (n : Nat) : String := String.ofList (Nat.toDigits 16 n)

def groupsText (gs : List Nat) : String := ":".intercalate (gs.map groupText)

/-- The text of an address; a single group of zero is written. -/
def text (i : Ipv6) : String :=
  let (start, length) := longestGap i.groups
  if length ≤ 1 then groupsText i.groups
  else groupsText (i.groups.take start) ++ "::" ++ groupsText (i.groups.drop (start + length))

/-- The address of version 4 that this one stands for. -/
def mapped? (i : Ipv6) : Option Ipv4 :=
  match i.groups with
  | [0, 0, 0, 0, 0, 0xFFFF, g, h] => some ⟨g / 256, g % 256, h / 256, h % 256⟩
  | _ => none

end Ipv6
end Outbox.Net

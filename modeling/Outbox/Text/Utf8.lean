/-!
# Characters in bytes

The bytes of UTF-8 text. Bytes that are none are found one at a time: what could begin a character
but is not continued counts as one.
-/

namespace Outbox.Text

def utf8Char (c : Char) : List Nat :=
  let n := c.toNat
  if n < 0x80 then [n]
  else if n < 0x800 then [0xC0 + n / 0x40, 0x80 + n % 0x40]
  else if n < 0x10000 then [0xE0 + n / 0x1000, 0x80 + n / 0x40 % 0x40, 0x80 + n % 0x40]
  else [0xF0 + n / 0x40000, 0x80 + n / 0x1000 % 0x40, 0x80 + n / 0x40 % 0x40, 0x80 + n % 0x40]

def utf8 (cs : List Char) : List Nat := cs.flatMap utf8Char

/-- The first byte of a character of several bytes: the range of the second byte, the number of
bytes after that one, and the leading bits. -/
def leadByte? (b : Nat) : Option ((Nat × Nat) × Nat × Nat) :=
  if 0xC2 ≤ b ∧ b ≤ 0xDF then some ((0x80, 0xBF), 0, b - 0xC0)
  else if b = 0xE0 then some ((0xA0, 0xBF), 1, 0)
  else if b = 0xED then some ((0x80, 0x9F), 1, 0xD)
  else if 0xE1 ≤ b ∧ b ≤ 0xEF then some ((0x80, 0xBF), 1, b - 0xE0)
  else if b = 0xF0 then some ((0x90, 0xBF), 2, 0)
  else if 0xF1 ≤ b ∧ b ≤ 0xF3 then some ((0x80, 0xBF), 2, b - 0xF0)
  else if b = 0xF4 then some ((0x80, 0x8F), 2, 4)
  else none

/-- Reads the bytes that go on a character whose bits so far are `n`. -/
def continueChar : Nat → Nat → List Nat → Option Char × List Nat
  | 0, n, r => (some (Char.ofNat n), r)
  | k + 1, n, b :: r =>
    if 0x80 ≤ b ∧ b ≤ 0xBF then continueChar k (n * 0x40 + (b - 0x80)) r else (none, b :: r)
  | _ + 1, _, [] => (none, [])

/-- The first character of some bytes and what follows it; no character if the bytes are none. -/
def nextChar (b : Nat) (r : List Nat) : Option Char × List Nat :=
  if b < 0x80 then (some (Char.ofNat b), r)
  else
    match leadByte? b, r with
    | none, r => (none, r)
    | some _, [] => (none, [])
    | some ((lo, hi), k, n), c :: r =>
      if lo ≤ c ∧ c ≤ hi then continueChar k (n * 0x40 + (c - 0x80)) r else (none, c :: r)

theorem length_continueChar_le (k n : Nat) (r : List Nat) :
    (continueChar k n r).2.length ≤ r.length := by
  fun_induction continueChar k n r with
  | case1 => exact Nat.le_refl _
  | case2 _ _ _ _ _ ih => exact Nat.le_succ_of_le ih
  | case3 => exact Nat.le_refl _
  | case4 => exact Nat.le_refl _

theorem length_nextChar_le (b : Nat) (r : List Nat) : (nextChar b r).2.length ≤ r.length := by
  unfold nextChar
  split
  · exact Nat.le_refl _
  · split
    · exact Nat.le_refl _
    · exact Nat.le_refl _
    · split
      · exact Nat.le_succ_of_le (length_continueChar_le ..)
      · exact Nat.le_refl _

/-- The characters of some bytes, nothing in place of bytes that are none. -/
def decodeUtf8 : List Nat → List (Option Char)
  | [] => []
  | b :: r => (nextChar b r).1 :: decodeUtf8 (nextChar b r).2
termination_by bs => bs.length
decreasing_by exact Nat.lt_succ_of_le (length_nextChar_le b r)

/-- The text of some bytes, if they are a text. -/
def ofUtf8? (bs : List Nat) : Option (List Char) := (decodeUtf8 bs).mapM id

/-- Stands for bytes that are no character. -/
def replacement : Char := Char.ofNat 0xFFFD

/-- The text of some bytes, with a replacement for what is no character. -/
def ofUtf8Lossy (bs : List Nat) : List Char := (decodeUtf8 bs).map (·.getD replacement)

end Outbox.Text

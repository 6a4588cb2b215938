/-!
# Names beyond ASCII

The encoding of a text in letters, digits and dashes. The plain characters come first; then, in
ascending order, the others, each as the distance from the one before in base 36. A digit ends its
numeral if it is below a threshold, which follows the distances seen so far.
-/

namespace Outbox.Url.Punycode

/-- The character of a digit in base 36. -/
def digit (d : Nat) : Char := if d < 26 then Char.ofNat (0x61 + d) else Char.ofNat (0x30 + (d - 26))

/-- The threshold of the digit at a position. -/
def threshold (k bias : Nat) : Nat :=
  if k ≤ bias + 1 then 1 else if k ≥ bias + 26 then 26 else k - bias

theorem threshold_pos (k bias : Nat) : 1 ≤ threshold k bias := by
  unfold threshold
  split
  · omega
  · split <;> omega

/-- A distance as digits, from the position given. -/
def numeral (bias k q : Nat) : List Char :=
  let t := threshold k bias
  if q < t then [digit q]
  else digit (t + (q - t) % (36 - t)) :: numeral bias (k + 36) ((q - t) / (36 - t))
termination_by q
decreasing_by
  have := threshold_pos k bias
  have := Nat.div_le_self (q - threshold k bias) (36 - threshold k bias)
  omega

/-- The bias for a distance that was brought into range. -/
def biasOf (delta k : Nat) : Nat :=
  if delta > 455 then biasOf (delta / 35) (k + 36) else k + 36 * delta / (delta + 38)
termination_by delta
decreasing_by omega

/-- The bias after a distance, the number of characters written by then being `count`. -/
def adapt (delta count : Nat) (first : Bool) : Nat :=
  let delta := if first then delta / 700 else delta / 2
  biasOf (delta + delta / count) 0

/-- How far the encoding has come. -/
structure State where
  out : List Char
  delta : Nat
  bias : Nat
  /-- Characters written. -/
  count : Nat

/-- Takes one character of the text into account while the characters with code `m` are written. -/
def visit (plain m : Nat) (s : State) (c : Char) : State :=
  if c.toNat < m then { s with delta := s.delta + 1 }
  else if c.toNat = m then
    { out := s.out ++ numeral s.bias 36 s.delta
      delta := 0
      bias := adapt s.delta (s.count + 1) (s.count = plain)
      count := s.count + 1 }
  else s

/-- Writes the characters with the codes given, in ascending order, from code `n` on. -/
def encodeCodes (cs : List Char) (plain : Nat) : List Nat → Nat → State → State
  | [], _, s => s
  | m :: ms, n, s =>
    let s := { s with delta := s.delta + (m - n) * (s.count + 1) }
    let s := cs.foldl (visit plain m) s
    encodeCodes cs plain ms (m + 1) { s with delta := s.delta + 1 }

def encode (cs : List Char) : List Char :=
  let plain := cs.filter fun c => c.toNat < 0x80
  let codes := ((cs.map Char.toNat).filter (0x80 ≤ ·)).mergeSort.eraseReps
  let s := encodeCodes cs plain.length codes 0x80 ⟨[], 0, 72, plain.length⟩
  plain ++ (if plain.isEmpty then [] else ['-']) ++ s.out

end Outbox.Url.Punycode

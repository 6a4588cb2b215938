/-!
# The hash function BLAKE2b

Without a key; the digest has up to 64 bytes. Words have 64 bits and stand with their lowest byte
first.
-/

namespace Outbox.Secret.Blake2b

/-- The words of the empty state. -/
def initial : Array UInt64 :=
  #[0x6a09e667f3bcc908, 0xbb67ae8584caa73b, 0x3c6ef372fe94f82b, 0xa54ff53a5f1d36f1,
    0x510e527fade682d1, 0x9b05688c2b3e6c1f, 0x1f83d9abfb41bd6b, 0x5be0cd19137e2179]

/-- The order in which each round takes the words of a block; rounds ten and eleven start over. -/
def schedule : Array (Array Nat) :=
  #[#[0, 1, 2, 3, 4, 5, 6, 7, 8, 9, 10, 11, 12, 13, 14, 15],
    #[14, 10, 4, 8, 9, 15, 13, 6, 1, 12, 0, 2, 11, 7, 5, 3],
    #[11, 8, 12, 0, 5, 2, 15, 13, 10, 14, 3, 6, 7, 1, 9, 4],
    #[7, 9, 3, 1, 13, 12, 11, 14, 2, 6, 5, 10, 4, 0, 15, 8],
    #[9, 0, 5, 7, 2, 4, 10, 15, 14, 1, 11, 12, 6, 8, 3, 13],
    #[2, 12, 6, 10, 0, 11, 8, 3, 4, 13, 7, 5, 15, 14, 1, 9],
    #[12, 5, 1, 15, 14, 13, 4, 10, 0, 7, 6, 3, 9, 2, 8, 11],
    #[13, 11, 7, 14, 12, 1, 3, 9, 5, 0, 15, 4, 8, 6, 2, 10],
    #[6, 15, 14, 9, 11, 3, 0, 8, 12, 2, 13, 7, 1, 4, 10, 5],
    #[10, 2, 8, 4, 7, 6, 1, 5, 15, 11, 9, 14, 3, 12, 13, 0]]

/-- The positions that the eight mixing steps of a round work on. -/
def lanes : List (Nat × Nat × Nat × Nat) :=
  [(0, 4, 8, 12), (1, 5, 9, 13), (2, 6, 10, 14), (3, 7, 11, 15),
    (0, 5, 10, 15), (1, 6, 11, 12), (2, 7, 8, 13), (3, 4, 9, 14)]

/-- Rotates a word to the right. -/
@[inline] def rotate (x : UInt64) (k : UInt64) : UInt64 := (x >>> k) ||| (x <<< (64 - k))

/-- Mixes two words of a block into four words of the state. -/
def mix (v : Array UInt64) (p : Nat × Nat × Nat × Nat) (x y : UInt64) : Array UInt64 :=
  let (i, j, k, l) := p
  let a := v.getD i 0 + v.getD j 0 + x
  let d := rotate (v.getD l 0 ^^^ a) 32
  let c := v.getD k 0 + d
  let b := rotate (v.getD j 0 ^^^ c) 24
  let a := a + b + y
  let d := rotate (d ^^^ a) 16
  let c := c + d
  let b := rotate (b ^^^ c) 63
  (((v.setIfInBounds i a).setIfInBounds j b).setIfInBounds k c).setIfInBounds l d

def round (m : Array UInt64) (v : Array UInt64) (r : Nat) : Array UInt64 :=
  let order := schedule.getD (r % 10) #[]
  lanes.zipIdx.foldl (fun v (p, i) =>
    mix v p (m.getD (order.getD (2 * i) 0) 0) (m.getD (order.getD (2 * i + 1) 0) 0)) v

/-- Takes one block into the state; `total` counts the bytes up to its end. -/
def compress (h m : Array UInt64) (total : Nat) (last : Bool) : Array UInt64 :=
  let t := UInt64.ofNat total
  let v := h ++ initial
  let v := v.setIfInBounds 12 (v.getD 12 0 ^^^ t)
  let v := if last then v.setIfInBounds 14 (v.getD 14 0 ^^^ 0xFFFFFFFFFFFFFFFF) else v
  let v := (List.range 12).foldl (round m) v
  (Array.range 8).map fun i => h.getD i 0 ^^^ v.getD i 0 ^^^ v.getD (i + 8) 0

def word (bs : List UInt8) : UInt64 :=
  bs.foldr (fun b n => n * 256 + b.toUInt64) 0

def bytes (w : UInt64) : List UInt8 :=
  (List.range 8).map fun i => (w >>> (8 * UInt64.ofNat i)).toUInt8

/-- The words of at most 128 bytes, filled up with zeros. -/
def blockWords (bs : List UInt8) : Array UInt64 :=
  (Array.range 16).map fun i => word ((bs.drop (8 * i)).take 8)

/-- Takes all bytes into the state, block by block; the last block may be short. -/
def absorb (h : Array UInt64) (done : Nat) (bs : List UInt8) : Array UInt64 :=
  if bs.length ≤ 128 then compress h (blockWords bs) (done + bs.length) true
  else absorb (compress h (blockWords (bs.take 128)) (done + 128) false) (done + 128) (bs.drop 128)
termination_by bs.length
decreasing_by simp; omega

/-- The digest of some bytes, of the length given. -/
def hash (length : Nat) (bs : List UInt8) : List UInt8 :=
  let h := initial.setIfInBounds 0 (initial.getD 0 0 ^^^ 0x01010000 ^^^ UInt64.ofNat length)
  ((absorb h 0 bs).toList.flatMap bytes).take length

end Outbox.Secret.Blake2b

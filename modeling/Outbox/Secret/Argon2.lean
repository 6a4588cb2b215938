import Outbox.Secret.Blake2b

/-!
# The password hash Argon2

A password is spread over a memory of blocks of 128 words. Each new block is made from the one
before it and from one found at a position that the memory itself or a counter determines. The
digest comes from the last blocks of all lanes.
-/

namespace Outbox.Secret.Argon2

/-- How the positions of reference blocks are found. -/
inductive Variant
  /-- From the memory. -/
  | d
  /-- From a counter. -/
  | i
  /-- From a counter at first, later from the memory. -/
  | id
  deriving DecidableEq, Repr

def Variant.number : Variant → Nat
  | d => 0
  | i => 1
  | id => 2

def Variant.name : Variant → String
  | d => "argon2d"
  | i => "argon2i"
  | id => "argon2id"

/-- Everything but the password and the salt. -/
structure Params where
  variant : Variant
  /-- The older version writes over blocks of earlier passes, the newer one adds to them. -/
  isOld : Bool
  /-- Kibibytes of memory. -/
  memory : Nat
  passes : Nat
  lanes : Nat
  /-- Bytes of the digest. -/
  length : Nat
  /-- Associated data. -/
  data : List UInt8
  deriving DecidableEq, Repr

namespace Params

def version (p : Params) : Nat := if p.isOld then 0x10 else 0x13

/-- Blocks of a quarter of a lane. -/
def segment (p : Params) : Nat := p.memory / (4 * p.lanes)

def lane (p : Params) : Nat := 4 * p.segment

def blocks (p : Params) : Nat := p.lanes * p.lane

end Params

/-! ### Blocks -/

abbrev Block := Array UInt64

def Block.zero : Block := Array.replicate 128 0

/-- Adds two blocks bit by bit. -/
def Block.xor (x y : Block) : Block := Array.zipWith (· ^^^ ·) x y

/-- Four words. -/
structure Quad where
  a : UInt64
  b : UInt64
  c : UInt64
  d : UInt64

/-- The sum of two words and twice the product of their lower halves. -/
@[inline] def mulAdd (x y : UInt64) : UInt64 :=
  x + y + 2 * ((x &&& 0xFFFFFFFF) * (y &&& 0xFFFFFFFF))

/-- Mixes four words. -/
@[inline] def Quad.mix (a b c d : UInt64) : Quad :=
  let a := mulAdd a b
  let d := Blake2b.rotate (d ^^^ a) 32
  let c := mulAdd c d
  let b := Blake2b.rotate (b ^^^ c) 24
  let a := mulAdd a b
  let d := Blake2b.rotate (d ^^^ a) 16
  let c := mulAdd c d
  let b := Blake2b.rotate (b ^^^ c) 63
  ⟨a, b, c, d⟩

/-- Mixes the sixteen words in pairs from `base` on, each pair `step` behind the one before. -/
def Block.mixPairs (z : Block) (base step : Nat) : Block :=
  let i := base
  let j := i + step
  let k := j + step
  let l := k + step
  let m := l + step
  let n := m + step
  let o := n + step
  let p := o + step
  let q₀ := Quad.mix (z.getD i 0) (z.getD k 0) (z.getD m 0) (z.getD o 0)
  let q₁ := Quad.mix (z.getD (i + 1) 0) (z.getD (k + 1) 0) (z.getD (m + 1) 0) (z.getD (o + 1) 0)
  let q₂ := Quad.mix (z.getD j 0) (z.getD l 0) (z.getD n 0) (z.getD p 0)
  let q₃ := Quad.mix (z.getD (j + 1) 0) (z.getD (l + 1) 0) (z.getD (n + 1) 0) (z.getD (p + 1) 0)
  let r₀ := Quad.mix q₀.a q₁.b q₂.c q₃.d
  let r₁ := Quad.mix q₁.a q₂.b q₃.c q₀.d
  let r₂ := Quad.mix q₂.a q₃.b q₀.c q₁.d
  let r₃ := Quad.mix q₃.a q₀.b q₁.c q₂.d
  let z := z.setIfInBounds i r₀.a
  let z := z.setIfInBounds (i + 1) r₁.a
  let z := z.setIfInBounds j r₂.a
  let z := z.setIfInBounds (j + 1) r₃.a
  let z := z.setIfInBounds k r₃.b
  let z := z.setIfInBounds (k + 1) r₀.b
  let z := z.setIfInBounds l r₁.b
  let z := z.setIfInBounds (l + 1) r₂.b
  let z := z.setIfInBounds m r₂.c
  let z := z.setIfInBounds (m + 1) r₃.c
  let z := z.setIfInBounds n r₀.c
  let z := z.setIfInBounds (n + 1) r₁.c
  let z := z.setIfInBounds o r₁.d
  let z := z.setIfInBounds (o + 1) r₂.d
  let z := z.setIfInBounds p r₃.d
  z.setIfInBounds (p + 1) r₀.d

def Block.compress (x y : Block) : Block :=
  let r := x.xor y
  let z := (List.range 8).foldl (fun z i => Block.mixPairs z (16 * i) 2) r
  let z := (List.range 8).foldl (fun z i => Block.mixPairs z (2 * i) 16) z
  r.xor z

/-! ### Hashes of any length -/

/-- A number in four bytes, the lowest first. -/
def bytes4 (n : Nat) : List UInt8 :=
  (List.range 4).map fun i => UInt8.ofNat (n / Nat.pow 256 i % 256)

/-- All but the last bytes of a long hash: half of each digest, the next one made from it. -/
def chain : Nat → Nat → List UInt8 → List UInt8
  | 0, length, v => Blake2b.hash length v
  | k + 1, length, v =>
    let v := Blake2b.hash 64 v
    v.take 32 ++ chain k (length - 32) v

def longHash (length : Nat) (bs : List UInt8) : List UInt8 :=
  let bs := bytes4 length ++ bs
  if length ≤ 64 then Blake2b.hash length bs
  else chain ((length + 31) / 32 - 2) length bs

def Block.ofBytes (bs : List UInt8) : Block :=
  (Array.range 8).flatMap fun i => Blake2b.blockWords ((bs.drop (128 * i)).take 128)

def Block.toBytes (b : Block) : List UInt8 := b.toList.flatMap Blake2b.bytes

/-- The digest of everything that the hash depends on. -/
def seed (p : Params) (password salt : List UInt8) : List UInt8 :=
  Blake2b.hash 64 (bytes4 p.lanes ++ bytes4 p.length ++ bytes4 p.memory ++ bytes4 p.passes ++
    bytes4 p.version ++ bytes4 p.variant.number ++ bytes4 password.length ++ password ++
    bytes4 salt.length ++ salt ++ bytes4 0 ++ bytes4 p.data.length ++ p.data)

/-! ### Filling the memory -/

/-- The memory with the first two blocks of every lane. -/
def start (p : Params) (h : List UInt8) : Array Block :=
  (List.range p.lanes).foldl (fun mem l =>
    let first (k : Nat) : Block := .ofBytes (longHash 1024 (h ++ bytes4 k ++ bytes4 l))
    (mem.setIfInBounds (l * p.lane) (first 0)).setIfInBounds (l * p.lane + 1) (first 1))
    (Array.replicate p.blocks #[])

/-- Where the filling has come to. -/
structure Cursor where
  pass : Nat
  slice : Nat
  lane : Nat
  deriving Repr

/-- Positions come from a counter here. -/
def Cursor.counts (p : Params) (c : Cursor) : Bool :=
  match p.variant with
  | .d => false
  | .i => true
  | .id => c.pass = 0 && c.slice < 2

/-- The block of positions with a number. -/
def addresses (p : Params) (c : Cursor) (n : Nat) : Block :=
  let input := ([c.pass, c.lane, c.slice, p.blocks, p.passes, p.variant.number, n].map
    UInt64.ofNat).toArray ++ Array.replicate 121 0
  Block.compress .zero (Block.compress .zero input)

/-- The index of the reference block for block `i` of a segment, given a word that determines it. -/
def reference (p : Params) (c : Cursor) (i : Nat) (w : UInt64) : Nat :=
  let lane :=
    if c.pass = 0 ∧ c.slice = 0 then c.lane else (w >>> 32).toNat % p.lanes
  let same := lane = c.lane
  let ready := if c.pass = 0 then c.slice * p.segment else p.lane - p.segment
  let area := if same then ready + i - 1 else if i = 0 then ready - 1 else ready
  let j := (w &&& 0xFFFFFFFF).toNat
  let x := j * j / Nat.pow 2 32
  let offset := area - 1 - area * x / Nat.pow 2 32
  let first := if c.pass = 0 ∨ c.slice = 3 then 0 else (c.slice + 1) * p.segment
  lane * p.lane + (first + offset) % p.lane

/-- Makes block `i` of a segment. -/
def fillBlock (p : Params) (c : Cursor) (state : Array Block × Block) (i : Nat) :
    Array Block × Block :=
  let (mem, pos) := state
  let pos :=
    if c.counts p && (i % 128 = 0 || (c.pass = 0 && c.slice = 0 && i = 2)) then
      addresses p c (i / 128 + 1)
    else pos
  let column := c.slice * p.segment + i
  let here := c.lane * p.lane + column
  let before := mem.getD (if column = 0 then here + p.lane - 1 else here - 1) #[]
  let w := if c.counts p then pos.getD (i % 128) 0 else before.getD 0 0
  let new := before.compress (mem.getD (reference p c i w) #[])
  let new := if c.pass = 0 ∨ p.isOld then new else new.xor (mem.getD here #[])
  (mem.setIfInBounds here new, pos)

/-- Makes the blocks of a segment; the first two of a lane are there already. -/
def fillSegment (p : Params) (mem : Array Block) (c : Cursor) : Array Block :=
  let first := if c.pass = 0 ∧ c.slice = 0 then 2 else 0
  ((List.range' first (p.segment - first)).foldl (fillBlock p c) (mem, #[])).1

/-- The segments in the order in which they are made. -/
def cursors (p : Params) : List Cursor :=
  (List.range p.passes).flatMap fun pass => (List.range 4).flatMap fun slice =>
    (List.range p.lanes).map fun lane => { pass, slice, lane }

def hash (p : Params) (password salt : List UInt8) : List UInt8 :=
  let mem := (cursors p).foldl (fillSegment p) (start p (seed p password salt))
  let last := (List.range p.lanes).foldl
    (fun b l => Block.xor b (mem.getD (l * p.lane + (p.lane - 1)) #[])) Block.zero
  longHash p.length last.toBytes

end Outbox.Secret.Argon2

import Outbox.Secret.Argon2
import Outbox.Secret.Base64
import Outbox.Text.Utf8

/-!
# Hashed secrets

A hashed secret is a text of fields behind dollar signs: the variant, the version, the parameters,
the salt and the digest. A text that is no such hash verifies nothing.
-/

namespace Outbox.Secret

open Argon2 (Variant Params)

/-- A hashed secret. -/
structure Phc where
  params : Params
  salt : List UInt8
  digest : List UInt8
  deriving DecidableEq, Repr

namespace Phc

def defaultParams : Params :=
  { variant := .id, isOld := false, memory := 19456, passes := 2, lanes := 1, length := 32,
    data := [] }

/-- The character can stand in the name of a variant or a parameter. -/
def isNameChar (c : Char) : Bool := c.isLower || c.isDigit || c = '-'

/-- A name of a variant or a parameter. -/
def isName (cs : List Char) : Bool := !cs.isEmpty && cs.length ≤ 32 && cs.all isNameChar

/-- The character can stand in the value of a parameter or in a salt. -/
def isValueChar (c : Char) : Bool :=
  c.isAlphanum || c = '/' || c = '+' || c = '.' || c = '-'

def isValue (cs : List Char) : Bool := cs.length ≤ 64 && cs.all isValueChar

/-- A number of 32 bits without leading zeros. -/
def decimal? (cs : List Char) : Option Nat :=
  if cs.isEmpty ∨ ¬cs.all Char.isDigit ∨ (cs.head? = some '0' ∧ cs.length > 1) then none
  else
    let n := cs.foldl (fun a c => a * 10 + (c.toNat - '0'.toNat)) 0
    if n < Nat.pow 2 32 then some n else none

/-- Bytes in base 64, at most so many. -/
def bytes? (limit : Nat) (cs : List Char) : Option (List UInt8) := do
  let bs ← Base64.decode? cs
  if bs.length ≤ limit then some (bs.map UInt8.ofNat) else none

def variant? (cs : List Char) : Option Variant :=
  [Variant.d, .i, .id].find? fun v => v.name = String.ofList cs

/-- Whether a version is the older one. -/
def isOld? (cs : List Char) : Option Bool :=
  match decimal? cs with
  | some 0x10 => some true
  | some 0x13 => some false
  | _ => none

/-- A parameter: a name, an equals sign and a value. -/
def pair? (cs : List Char) : Option (String × List Char) :=
  match cs.splitOn '=' with
  | [name, value] => if isName name ∧ isValue value then some (String.ofList name, value) else none
  | _ => none

def setParam (p : Params) : String × List Char → Option Params
  | ("m", v) => (decimal? v).map fun n => { p with memory := n }
  | ("t", v) => (decimal? v).map fun n => { p with passes := n }
  | ("p", v) => (decimal? v).map fun n => { p with lanes := n }
  | ("keyid", v) => (bytes? 8 v).map fun _ => p
  | ("data", v) => (bytes? 32 v).map fun bs => { p with data := bs }
  | _ => none

/-- The parameters that a field writes. -/
def params? (p : Params) (cs : List Char) : Option Params := do
  if cs.length > 127 then none
  let pairs ← (cs.splitOn ',').mapM pair?
  pairs.foldlM setParam p

/-- The field writes a version. -/
def isVersion (cs : List Char) : Bool := "v=".toList.isPrefixOf cs && !cs.contains ','

/-- Takes the version off the fields; without one it is the newer one. -/
def takeVersion : List (List Char) → Option (Bool × List (List Char))
  | f :: fs => if isVersion f then (isOld? (f.drop 2)).map (·, fs) else some (false, f :: fs)
  | [] => some (false, [])

/-- Takes the parameters off the fields. -/
def takeParams (p : Params) : List (List Char) → Option (Params × List (List Char))
  | f :: fs => if f.contains '=' then (params? p f).map (·, fs) else some (p, f :: fs)
  | [] => some (p, [])

def areUsable (p : Params) : Bool :=
  8 ≤ p.memory && 8 * p.lanes ≤ p.memory && 1 ≤ p.passes && 1 ≤ p.lanes &&
    p.lanes < Nat.pow 2 24

def parse? (s : String) : Option Phc := do
  match s.toList.splitOn '$' with
  | [] :: name :: fields =>
    if ¬isName name then none
    let variant ← variant? name
    let (isOld, fields) ← takeVersion fields
    let (p, fields) ← takeParams { defaultParams with variant, isOld } fields
    let [salt, digest] := fields | none
    if salt.length < 4 ∨ ¬isValue salt then none
    let salt ← bytes? 64 salt
    let digest ← bytes? 64 digest
    let p := { p with length := digest.length }
    if salt.length < 8 ∨ digest.length < 10 ∨ ¬areUsable p then none
    return { params := p, salt, digest }
  | _ => none

def paramsText (p : Params) : String := s!"m={p.memory},t={p.passes},p={p.lanes}"

/-- The text of a hashed secret. -/
def text (h : Phc) : String :=
  let field (bs : List UInt8) := String.ofList (Base64.encode (bs.map UInt8.toNat))
  "$".intercalate ["", h.params.variant.name, s!"v={h.params.version}", paramsText h.params,
    field h.salt, field h.digest]

def secretBytes (s : String) : List UInt8 := (Text.utf8 s.toList).map UInt8.ofNat

def ofSecret (p : Params) (salt : List UInt8) (secret : String) : Phc :=
  { params := p, salt, digest := Argon2.hash p (secretBytes secret) salt }

def verifies (h : Phc) (secret : String) : Bool :=
  Argon2.hash h.params (secretBytes secret) h.salt = h.digest

end Phc

/-- The secret has the hash that a text writes. -/
def verify (hash secret : String) : Bool :=
  match Phc.parse? hash with
  | some h => h.verifies secret
  | none => false

end Outbox.Secret

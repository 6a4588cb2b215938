import Outbox.Json.Reader
import Outbox.Text.Quoted

/-!
# Decoding JSON into typed values

A decoder walks a value in document order and stops at the first fault. Records are described by
their list of `Field`s; they are read from an object, fields in any order and unknown ones passed
over, or from an array with the fields in their order.
-/

namespace Outbox.Json

/-- Why a text was refused. -/
inductive DecodeError
  /-- The text is no JSON, or nothing that could start the value asked for. -/
  | malformed
  | wrongType (found expected : String)
  | outOfRange (found expected : String)
  | wrongLength (length : Nat) (expected : String)
  | missingField (name : String)
  | duplicateField (name : String)
  | unknownVariant (name : String) (known : List String)
  | invalidUuid
  deriving DecidableEq, Repr

/-- The alternatives of a choice, each between backticks. -/
def alternatives (names : List String) : String :=
  match names.map fun n => "`" ++ n ++ "`" with
  | [] => ""
  | [a] => a
  | [a, b] => a ++ " or " ++ b
  | ns => "one of " ++ ", ".intercalate ns

/-- The text of an error; a malformed text has none. -/
def DecodeError.message : DecodeError → Option String
  | malformed => none
  | wrongType found expected => some s!"invalid type: {found}, expected {expected}"
  | outOfRange found expected => some s!"invalid value: {found}, expected {expected}"
  | wrongLength n expected => some s!"invalid length {n}, expected {expected}"
  | missingField name => some ("missing field `" ++ name ++ "`")
  | duplicateField name => some ("duplicate field `" ++ name ++ "`")
  | unknownVariant name known =>
    some ("unknown variant `" ++ name ++ "`, expected " ++ alternatives known)
  | invalidUuid => some "UUID parsing failed"

/-- A decoder of values of type `α`. -/
abbrev Decoder (α : Type) := Json → Except DecodeError α

/-- What a value is called in messages; the text must be sound as far as the name needs it. -/
def describe : Json → Except DecodeError String
  | null => .ok "null"
  | bool b => .ok ("boolean `" ++ (if b then "true" else "false") ++ "`")
  | number .outOfRange => .error .malformed
  | number (.integer i) => .ok ("integer `" ++ toString i ++ "`")
  | number n => .ok ("floating point `" ++ n.render ++ "`")
  | string (some s) => .ok ("string " ++ Text.quoted s)
  | string none => .error .malformed
  | array .. => .ok "sequence"
  | object .. => .ok "map"
  | broken => .error .malformed

/-- Refuses a value for its type. -/
def refuse {α : Type} (expected : String) (v : Json) : Except DecodeError α := do
  throw (.wrongType (← describe v) expected)

def decodeText : Decoder String
  | string (some s) => .ok s
  | v => refuse "a string" v

/-- Reads a number; whole ones are rounded to double precision. -/
def decodeReal : Decoder Decimal.Binary64
  | number (.integer i) => .ok (Decimal.Binary64.ofInt i)
  | number (.real x) => .ok x
  | v => refuse "f64" v

/-- Reads a whole number of a signed width; `name` names the width in messages. -/
def decodeInt (bits : Nat) (name : String) : Decoder Int
  | number (.integer i) =>
    if -(Nat.pow 2 (bits - 1) : Int) ≤ i ∧ i < Nat.pow 2 (bits - 1) then .ok i
    else .error (.outOfRange ("integer `" ++ toString i ++ "`") name)
  | v => refuse name v

/-- Reads a value that may be absent; null is absence. -/
def decodeOption {α : Type} (d : Decoder α) : Decoder (Option α)
  | null => .ok none
  | v => some <$> d v

/-- Reads nothing: only null stands for it. -/
def decodeUnit : Decoder Unit
  | null => .ok ()
  | v => refuse "unit" v

/-- Picks the alternative of a name. -/
def choose {α : Type} (known : List (String × α)) (name : String) : Except DecodeError α :=
  match known.lookup name with
  | some a => .ok a
  | none => .error (.unknownVariant name (known.map (·.1)))

/-- Reads one of the alternatives given by name: the bare name, or an object with the name as its
only key and null as its value. -/
def decodeChoice {α : Type} (known : List (String × α)) : Decoder α
  | string (some s) => choose known s
  | object [] _ => .error .malformed
  | object ((string (some s), v) :: rest) closed => do
    let a ← choose known s
    decodeUnit v
    if rest.isEmpty ∧ closed then pure a else throw .malformed
  | object ((k, _) :: _) _ => refuse "variant identifier" k
  | _ => .error .malformed

/-! ### Records -/

/-- A field of a record. -/
structure Field where
  name : String
  Value : Type
  decode : Decoder Value
  /-- Stands for the field where an object lacks it. -/
  ifAbsent : Option Value
  /-- Stands for the field where an array ends before it. -/
  ifShort : Option Value

/-- A field that every record has. -/
def Field.required {α : Type} (name : String) (d : Decoder α) : Field :=
  { name, Value := α, decode := d, ifAbsent := none, ifShort := none }

/-- A field that an object may lack. -/
def Field.optional {α : Type} (name : String) (d : Decoder α) : Field :=
  { name, Value := Option α, decode := decodeOption d, ifAbsent := some none, ifShort := none }

/-- A field with a value of its own for records that lack it. -/
def Field.defaulted {α : Type} (name : String) (d : Decoder α) (a : α) : Field :=
  { name, Value := α, decode := d, ifAbsent := some a, ifShort := some a }

/-- One value for each field. -/
def Row : List Field → Type
  | [] => Unit
  | f :: fs => f.Value × Row fs

/-- At most one value for each field. -/
def Slots : List Field → Type
  | [] => Unit
  | f :: fs => Option f.Value × Slots fs

def Slots.empty : (fs : List Field) → Slots fs
  | [] => ()
  | _ :: fs => (none, Slots.empty fs)

/-- Reads a member into its slot; a member that no field names only has to be whole. -/
def Slots.put : (fs : List Field) → String → Json → Slots fs → Except DecodeError (Slots fs)
  | [], _, v, s => if v.isWhole then .ok s else .error .malformed
  | f :: fs, name, v, (a, s) =>
    if f.name = name then
      match a with
      | some _ => .error (.duplicateField name)
      | none => do
        let a ← f.decode v
        return (some a, s)
    else do
      let s ← Slots.put fs name v s
      return (a, s)

/-- Reads the members of an object in order. -/
def Slots.putAll (fs : List Field) : List (Json × Json) → Slots fs →
    Except DecodeError (Slots fs)
  | [], s => .ok s
  | (string (some k), v) :: ms, s => do
    let s ← Slots.put fs k v s
    Slots.putAll fs ms s
  | _ :: _, _ => .error .malformed

/-- The values of the fields, the first one missing being at fault. -/
def Slots.toRow : (fs : List Field) → Slots fs → Except DecodeError (Row fs)
  | [], _ => .ok ()
  | f :: fs, (a, s) =>
    match a <|> f.ifAbsent with
    | none => .error (.missingField f.name)
    | some a => do
      let r ← Slots.toRow fs s
      return (a, r)

/-- What a record is called in messages about its length. -/
def recordLength (name : String) (n : Nat) : String :=
  s!"{name} with {n} element" ++ (if n = 1 then "" else "s")

/-- Reads the fields from the items of an array, behind the first `i` fields. -/
def rowOfItems (total : String) : (fs : List Field) → Nat → List Json → Bool →
    Except DecodeError (Row fs)
  | [], _, rest, closed => if rest.isEmpty ∧ closed then .ok () else .error .malformed
  | f :: fs, i, v :: vs, closed => do
    let a ← f.decode v
    let r ← rowOfItems total fs (i + 1) vs closed
    return (a, r)
  | f :: fs, i, [], closed =>
    if ¬closed then .error .malformed
    else
      match f.ifShort with
      | none => .error (.wrongLength i total)
      | some a => do
        let r ← rowOfItems total fs (i + 1) [] closed
        return (a, r)

/-- Reads a record; `name` names it in messages. -/
def decodeRecord (name : String) (fs : List Field) : Decoder (Row fs)
  | object members closed => do
    let s ← Slots.putAll fs members (Slots.empty fs)
    if closed then Slots.toRow fs s else throw .malformed
  | array items closed => rowOfItems (recordLength name fs.length) fs 0 items closed
  | v => refuse name v

/-- Decodes a text: first the value, then the text must end. -/
def decodeString {α : Type} (d : Decoder α) (s : String) : Except DecodeError α := do
  let doc := Document.read s
  let a ← d doc.root
  if doc.clean then pure a else throw .malformed

end Outbox.Json

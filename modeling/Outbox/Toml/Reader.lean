import Outbox.Toml.Outline
import Outbox.Toml.Scalar

/-!
# Reading documents

A document is read line by line: a header, a key with its value, or nothing but a comment. It is
refused as a whole for the first fault.
-/

namespace Outbox.Toml

/-! ### Values -/

mutual

/-- Reads a value. The first argument bounds the number of calls, the second how deep arrays and
tables may nest. -/
def readValue : Nat → Nat → List Char → Option (Toml × List Char)
  | 0, _, _ => none
  | n + 1, depth, cs =>
    match cs with
    | '"' :: '"' :: '"' :: r => (readQuotedLines r).map fun (s, r) => (text s, r)
    | '"' :: r => (readQuoted r).map fun (s, r) => (text s, r)
    | '\'' :: '\'' :: '\'' :: r => (readLiteralLines r).map fun (s, r) => (text s, r)
    | '\'' :: r => (readLiteral r).map fun (s, r) => (text s, r)
    | '[' :: r =>
      match depth with
      | 0 => none
      | d + 1 => (readItems n d r).map fun (vs, r) => (array vs, r)
    | '\x7b' :: r =>
      match depth with
      | 0 => none
      | d + 1 =>
        match skipBlank r with
        | '\x7d' :: r => some (table [], r)
        | r => (readMembers n d [] r).map fun (ms, r) => (table (Node.finishAll ms), r)
    | r => readWord r

/-- Reads the items of an array up to its closing bracket. -/
def readItems : Nat → Nat → List Char → Option (List Toml × List Char)
  | 0, _, _ => none
  | n + 1, depth, cs =>
    match skipVoid false cs with
    | ']' :: r => some ([], r)
    | r => do
      let (v, r) ← readValue n depth r
      match skipVoid false r with
      | ',' :: r => (readItems n depth r).map fun (vs, r) => (v :: vs, r)
      | ']' :: r => return ([v], r)
      | _ => none

/-- Reads the members of a table within a line up to its closing bracket, given those before. -/
def readMembers : Nat → Nat → Node.Members → List Char → Option (Node.Members × List Char)
  | 0, _, _, _ => none
  | n + 1, depth, ms, cs => do
    let (key, r) ← readKey cs
    match r with
    | '=' :: r =>
      let (v, r) ← readValue n depth (skipBlank r)
      let ms ← Node.assign [] key v ms
      match skipBlank r with
      | ',' :: r => readMembers n depth ms r
      | '\x7d' :: r => return (ms, r)
      | _ => none
    | _ => none

end

/-! ### Lines -/

/-- What has been read of a document. -/
structure Progress where
  /-- The path of the header in force. -/
  header : List String
  root : Node.Members

/-- Ends a line behind blanks and a comment; the end of the document ends it too. -/
def finishLine (cs : List Char) : Option (List Char) :=
  match skipComment (skipBlank cs) with
  | [] => some []
  | r => endLine? r

/-- Reads a header behind its opening brackets, up to the closing ones. -/
def readHeader (closing cs : List Char) : Option (List String × List Char) := do
  let (path, r) ← readKey cs
  if closing.isPrefixOf r then return (path, r.drop closing.length) else none

/-- Reads what a line says; the first argument bounds the number of calls. -/
def readLine (n : Nat) (p : Progress) : List Char → Option (Progress × List Char)
  | '[' :: '[' :: r => do
    let (path, r) ← readHeader [']', ']'] r
    let root ← Node.declareNext path p.root
    return (⟨path, root⟩, r)
  | '[' :: r => do
    let (path, r) ← readHeader [']'] r
    let root ← Node.declare path p.root
    return (⟨path, root⟩, r)
  | cs => do
    let (key, r) ← readKey cs
    match r with
    | '=' :: r =>
      let (v, r) ← readValue n depthLimit.pred (skipBlank r)
      let root ← Node.assign p.header key v p.root
      return ({ p with root }, r)
    | _ => none

def readLines : Nat → Progress → List Char → Option Progress
  | 0, _, _ => none
  | n + 1, p, cs =>
    match skipBlank cs with
    | [] => some p
    | c :: r =>
      if c = '#' ∨ c = '\n' ∨ c = '\r' then (finishLine (c :: r)).bind (readLines n p)
      else do
        let (p, r) ← readLine n p (c :: r)
        readLines n p (← finishLine r)

/-- A mark of the byte order may stand before the first line. -/
def dropMark : List Char → List Char
  | c :: r => if c = Char.ofNat 0xFEFF then r else c :: r
  | [] => []

def read? (s : String) : Option Toml := do
  let cs := dropMark s.toList
  let p ← readLines (2 * cs.length + 2) ⟨[], []⟩ cs
  return table (Node.finishAll p.root)

end Outbox.Toml

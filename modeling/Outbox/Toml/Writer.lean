import Outbox.Text.Digit

/-!
# Writing documents

A document is written as sections of texts and integers. A text takes the plainest of four spellings
that shows it without escapes; if none does, it is written with escapes.
-/

namespace Outbox.Toml

/-- What the choice of a spelling depends on. -/
structure Traits where
  /-- The longest run of single quotes. -/
  singles : Nat
  /-- The longest run of double quotes. -/
  doubles : Nat
  backslash : Bool
  lines : Bool
  /-- A control character other than a tab and the end of a line. -/
  controls : Bool

/-- The longest run of a character, given the length of the run before and the longest so far. -/
def longestRun (c : Char) : Nat → Nat → List Char → Nat
  | _, most, [] => most
  | run, most, d :: r =>
    if d = c then longestRun c (run + 1) (max most (run + 1)) r else longestRun c 0 most r

/-- A control character of seven bits. -/
def isControl (c : Char) : Bool := c.toNat < 0x20 || c.toNat = 0x7F

def Traits.of (cs : List Char) : Traits :=
  { singles := longestRun '\'' 0 0 cs
    doubles := longestRun '"' 0 0 cs
    backslash := cs.contains '\\'
    lines := cs.contains '\n'
    controls := cs.any fun c => isControl c && c ≠ '\t' && c ≠ '\n' }

/-- The ways to spell a text. -/
inductive Spelling
  /-- Between double quotes, with escapes. -/
  | quoted
  /-- Between single quotes, as it is. -/
  | literal
  /-- Between three double quotes, with escapes. -/
  | quotedLines
  /-- Between three single quotes, as it is. -/
  | literalLines
  deriving DecidableEq, Repr

def Spelling.of (t : Traits) : Spelling :=
  if !t.controls && !t.backslash && t.doubles = 0 && !t.lines then quoted
  else if !t.controls && t.singles = 0 && !t.lines then literal
  else if !t.controls && !t.backslash && t.doubles ≤ 2 then quotedLines
  else if !t.controls && t.singles ≤ 2 then literalLines
  else if t.lines then quotedLines
  else quoted

/-- A code as four hexadecimal digits. -/
def code4 (n : Nat) : List Char :=
  [n / 0x1000, n / 0x100, n / 0x10, n].map fun d => Text.upperHexDigit (d % 16)

/-- A character as an escape; quotes and ends of lines are left to the caller. -/
def escapeChar (c : Char) : List Char :=
  if c = '\t' then ['\\', 't']
  else if c = '\r' then ['\\', 'r']
  else if c = '\\' then ['\\', '\\']
  else if c = Char.ofNat 0x08 then ['\\', 'b']
  else if c = Char.ofNat 0x0C then ['\\', 'f']
  else if isControl c then '\\' :: 'u' :: code4 c.toNat
  else [c]

/-- A text with escapes. Ends of lines and up to two double quotes in a row stay if the text can
take several lines; the second argument is the number of quotes before that stayed. -/
def escape (lines : Bool) : Nat → List Char → List Char
  | _, [] => []
  | run, c :: r =>
    if c = '"' then
      if lines && run < 2 then c :: escape lines (run + 1) r
      else '\\' :: c :: escape lines 0 r
    else if c = '\n' then
      if lines then c :: escape lines 0 r else '\\' :: 'n' :: escape lines 0 r
    else escapeChar c ++ escape lines 0 r

def spell (cs : List Char) : Spelling → List Char
  | .quoted => '"' :: escape false 0 cs ++ ['"']
  | .literal => '\'' :: cs ++ ['\'']
  | .quotedLines =>
    let quotes := ['"', '"', '"']
    quotes ++ (if cs.contains '\n' then ['\n'] else []) ++ escape true 0 cs ++ quotes
  | .literalLines =>
    let quotes := ['\'', '\'', '\'']
    quotes ++ (if cs.contains '\n' then ['\n'] else []) ++ cs ++ quotes

/-- A text as it is written. -/
def quote (s : String) : String :=
  String.ofList (spell s.toList (.of (.of s.toList)))

/-- A value within a section. -/
inductive Scalar
  | text (s : String)
  | integer (i : Int)
  deriving DecidableEq, Repr

/-- A value as it is written. -/
def Scalar.render : Scalar → String
  | text s => quote s
  | integer i => toString i

/-- A table with a header. -/
structure Section where
  name : String
  /-- Bare keys with their values. -/
  entries : List (String × Scalar)
  deriving Repr

def Section.render (s : Section) : String :=
  "[" ++ s.name ++ "]\n" ++ String.join (s.entries.map fun (k, v) => k ++ " = " ++ v.render ++ "\n")

/-- A document of sections with an empty line between them. -/
def render (sections : List Section) : String :=
  "\n".intercalate (sections.map Section.render)

end Outbox.Toml

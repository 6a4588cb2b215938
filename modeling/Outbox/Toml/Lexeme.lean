import Outbox.Text.Digit
import Outbox.Toml.Basic

/-!
# Characters, texts and keys

Readers take the characters that remain and give what they read with the characters behind it. A
text is first cut out up to its closing quote, then its escapes are resolved.
-/

namespace Outbox.Toml

/-- White space within a line. -/
def isBlank (c : Char) : Bool := c = ' ' || c = '\t'

/-- A character that a comment or a text can hold within a line. -/
def isPlain (c : Char) : Bool := c = '\t' || (0x20 ≤ c.toNat && c.toNat ≠ 0x7F)

/-- Drops white space within a line. -/
def skipBlank (cs : List Char) : List Char := cs.dropWhile isBlank

/-- Drops the end of a line; `none` if there is none. -/
def endLine? : List Char → Option (List Char)
  | '\n' :: r => some r
  | '\r' :: '\n' :: r => some r
  | _ => none

/-- Drops the comment that starts here, if one does. -/
def skipComment : List Char → List Char
  | '#' :: r => r.dropWhile isPlain
  | r => r

/-- Drops white space, ends of lines and comments; the flag says that a comment has begun. -/
def skipVoid : Bool → List Char → List Char
  | _, [] => []
  | _, '\n' :: r => skipVoid false r
  | _, '\r' :: '\n' :: r => skipVoid false r
  | true, c :: r => if isPlain c then skipVoid true r else c :: r
  | false, c :: r =>
    if isBlank c then skipVoid false r
    else if c = '#' then skipVoid true r
    else c :: r

/-! ### Texts -/

/-- The character that an escape stands for by its code. -/
def scalar? (cs : List Char) : Option Char := do
  let n ← Text.digits? 16 cs
  if n.isValidChar then some (Char.ofNat n) else none

/-- The character of an escape of one letter. -/
def shortEscape? (c : Char) : Option Char :=
  if c = '"' ∨ c = '\\' then some c
  else if c = 'b' then some (Char.ofNat 0x08)
  else if c = 't' then some '\t'
  else if c = 'n' then some '\n'
  else if c = 'f' then some (Char.ofNat 0x0C)
  else if c = 'r' then some '\r'
  else none

/-- A character that stands for itself; the flag admits ends of lines. -/
def isVerbatim (lines : Bool) (c : Char) : Bool := isPlain c || (lines && c = '\n')

def unescape (lines : Bool) : List Char → Option (List Char)
  | [] => some []
  | '\\' :: 'u' :: a :: b :: c :: d :: r => do
    let e ← scalar? [a, b, c, d]
    (unescape lines r).map (e :: ·)
  | '\\' :: 'U' :: a :: b :: c :: d :: e :: f :: g :: h :: r => do
    let e ← scalar? [a, b, c, d, e, f, g, h]
    (unescape lines r).map (e :: ·)
  | '\\' :: c :: r => do
    let e ← shortEscape? c
    (unescape lines r).map (e :: ·)
  | c :: r => if isVerbatim lines c ∧ c ≠ '\\' then (unescape lines r).map (c :: ·) else none

/-- Ends of lines become line feeds. -/
def unifyLines : List Char → List Char
  | [] => []
  | '\r' :: '\n' :: r => '\n' :: unifyLines r
  | c :: r => c :: unifyLines r

/-- Nothing but blanks before the end of the line. -/
def endsLine (cs : List Char) : Bool := (skipBlank cs).head? = some '\n'

/-- Joins lines: a backslash at the end of a line goes, with all white space up to the next other
character. The flag says that white space is going. -/
def joinLines : Bool → List Char → List Char
  | _, [] => []
  | _, '\\' :: c :: r =>
    if (isBlank c || c = '\n') && endsLine (c :: r) then joinLines true (c :: r)
    else '\\' :: c :: joinLines false r
  | going, c :: r =>
    if going && (isBlank c || c = '\n') then joinLines true r else c :: joinLines false r

/-- Cuts a text of one line at its closing quote. -/
def splitText : List Char → Option (List Char × List Char)
  | [] => none
  | '"' :: r => some ([], r)
  | '\\' :: c :: r => (splitText r).map fun (s, r) => ('\\' :: c :: s, r)
  | c :: r => (splitText r).map fun (s, r) => (c :: s, r)

/-- Cuts a text of several lines at its three closing quotes; up to two more belong to the text. The
flag says whether a backslash takes the next character along. -/
def splitLines (quote : Char) (escapes : Bool) : List Char → Option (List Char × List Char)
  | a :: b :: c :: r =>
    if escapes && a = '\\' then
      (splitLines quote escapes (c :: r)).map fun (s, r) => (a :: b :: s, r)
    else if a = quote && b = quote && c = quote then
      let more := r.takeWhile (· = quote)
      if more.length ≤ 2 then some (more, r.drop more.length) else none
    else (splitLines quote escapes (b :: c :: r)).map fun (s, r) => (a :: s, r)
  | _ => none

/-- The first line of a text of several lines may be left empty. -/
def dropFirstEnd (cs : List Char) : List Char := (endLine? cs).getD cs

/-- Reads a text of one line with escapes, behind its quote. -/
def readQuoted (cs : List Char) : Option (String × List Char) := do
  let (s, r) ← splitText cs
  let s ← unescape false s
  return (String.ofList s, r)

/-- Reads a text of one line without escapes, behind its quote. -/
def readLiteral (cs : List Char) : Option (String × List Char) :=
  let s := cs.takeWhile (· ≠ '\'')
  match cs.dropWhile (· ≠ '\'') with
  | _ :: r => if s.all isPlain then some (String.ofList s, r) else none
  | [] => none

/-- Reads a text with escapes over several lines, behind its quotes. -/
def readQuotedLines (cs : List Char) : Option (String × List Char) := do
  let (s, r) ← splitLines '"' true (dropFirstEnd cs)
  let s ← unescape true (joinLines false (unifyLines s))
  return (String.ofList s, r)

/-- Reads a text without escapes over several lines, behind its quotes. -/
def readLiteralLines (cs : List Char) : Option (String × List Char) := do
  let (s, r) ← splitLines '\'' false (dropFirstEnd cs)
  let s := unifyLines s
  if s.all (isVerbatim true) then return (String.ofList s, r) else none

/-! ### Keys -/

/-- A character of a key without quotes. -/
def isBareChar (c : Char) : Bool := c.isAlphanum || c = '_' || c = '-'

/-- Reads one part of a key. -/
def readPart : List Char → Option (String × List Char)
  | '"' :: r => readQuoted r
  | '\'' :: r => readLiteral r
  | r =>
    let s := r.takeWhile isBareChar
    if s.isEmpty then none else some (String.ofList s, r.dropWhile isBareChar)

/-- Reads the parts of a key, at most as many as the first argument says. -/
def readParts : Nat → List Char → Option (List String × List Char)
  | 0, _ => none
  | n + 1, cs => do
    let (p, r) ← readPart (skipBlank cs)
    match skipBlank r with
    | '.' :: r => (readParts n r).map fun (ps, r) => (p :: ps, r)
    | r => return ([p], r)

/-- How deep arrays and tables nest, and how many parts a key has, at most one less. -/
def depthLimit : Nat := 80

def readKey (cs : List Char) : Option (List String × List Char) := readParts (depthLimit - 1) cs

end Outbox.Toml

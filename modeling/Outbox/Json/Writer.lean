import Outbox.Json.Basic
import Outbox.Text.Digit

/-!
# Writing JSON

The compact form: no white space, fields in the order given. In texts the quote, the backslash and
the characters below the blank are escaped, all others stand for themselves.
-/

namespace Outbox.Json

/-- How one character of a text is written. -/
def escape (c : Char) : List Char :=
  if c = '"' then ['\\', '"']
  else if c = '\\' then ['\\', '\\']
  else if c.toNat ≥ 0x20 then [c]
  else if c.toNat = 0x08 then ['\\', 'b']
  else if c.toNat = 0x09 then ['\\', 't']
  else if c.toNat = 0x0A then ['\\', 'n']
  else if c.toNat = 0x0C then ['\\', 'f']
  else if c.toNat = 0x0D then ['\\', 'r']
  else ['\\', 'u', '0', '0', Text.lowerHexDigit (c.toNat / 16), Text.lowerHexDigit (c.toNat % 16)]

def quote (s : String) : List Char :=
  '"' :: (s.toList.flatMap escape ++ ['"'])

mutual

def write : Json → List Char
  | null => "null".toList
  | bool b => (if b then "true" else "false").toList
  | number n => n.render.toList
  | string s => quote (s.getD "")
  | array items _ => '[' :: (writeItems items ++ [']'])
  | object members _ => '\x7b' :: (writeMembers members ++ ['\x7d'])
  | broken => []

/-- The items of an array, commas between them. -/
def writeItems : List Json → List Char
  | [] => []
  | [v] => write v
  | v :: vs => write v ++ ',' :: writeItems vs

/-- The members of an object, commas between them. -/
def writeMembers : List (Json × Json) → List Char
  | [] => []
  | [(k, v)] => write k ++ ':' :: write v
  | (k, v) :: ms => write k ++ ':' :: (write v ++ ',' :: writeMembers ms)

end

def render (j : Json) : String := String.ofList (write j)

end Outbox.Json

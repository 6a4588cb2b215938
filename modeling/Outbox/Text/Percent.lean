import Outbox.Text.Digit
import Outbox.Text.Utf8

/-!
# Percent encoding

A byte is written as a percent sign and two hexadecimal digits. A percent sign before anything else
stands for itself.
-/

namespace Outbox.Text

/-- The three characters for a byte. -/
def percentByte (b : Nat) : List Char := ['%', upperHexDigit (b / 16), upperHexDigit (b % 16)]

/-- Writes a text with all characters encoded except those kept. -/
def percentEncode (keep : Char → Bool) (cs : List Char) : List Char :=
  cs.flatMap fun c => if keep c then [c] else (utf8Char c).flatMap percentByte

/-- The bytes that a text stands for. -/
def percentDecode : List Char → List Nat
  | [] => []
  | '%' :: a :: b :: r =>
    match hexValue? a, hexValue? b with
    | some x, some y => (x * 16 + y) :: percentDecode r
    | _, _ => '%'.toNat :: percentDecode (a :: b :: r)
  | c :: r => utf8Char c ++ percentDecode r

/-- The characters that need no encoding anywhere in an address. -/
def isUnreserved (c : Char) : Bool :=
  c.isAlphanum || c = '-' || c = '.' || c = '_' || c = '~'

/-- One name and value of a form, a plus sign standing for a blank. -/
def formText (cs : List Char) : String :=
  String.ofList (ofUtf8Lossy (percentDecode (cs.map fun c => if c = '+' then ' ' else c)))

/-- The names and values of a form, in order. -/
def formPairs (cs : List Char) : List (String × String) :=
  ((cs.splitOn '&').filter (!·.isEmpty)).map fun p =>
    (formText (p.takeWhile (· ≠ '=')), formText ((p.dropWhile (· ≠ '=')).drop 1))

end Outbox.Text

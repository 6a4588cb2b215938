/-!
# Blank text

A text is blank if every character of it is white space by the Unicode property `White_Space`.
-/

namespace Outbox.Text

/-- The ranges of the property `White_Space`, ends included. -/
def blankRanges : List (Nat × Nat) :=
  [(0x09, 0x0D), (0x20, 0x20), (0x85, 0x85), (0xA0, 0xA0), (0x1680, 0x1680), (0x2000, 0x200A),
    (0x2028, 0x2029), (0x202F, 0x202F), (0x205F, 0x205F), (0x3000, 0x3000)]

/-- The character is white space. -/
def isBlankChar (c : Char) : Bool :=
  blankRanges.any fun r => r.1 ≤ c.toNat && c.toNat ≤ r.2

/-- The text holds nothing but white space, which the empty text does. -/
def isBlank (s : String) : Bool :=
  s.toList.all isBlankChar

/-- A text without the white space around it. -/
def trim (cs : List Char) : List Char :=
  ((cs.dropWhile isBlankChar).reverse.dropWhile isBlankChar).reverse

@[simp] theorem isBlank_empty : isBlank "" = true := by
  simp [isBlank]

end Outbox.Text

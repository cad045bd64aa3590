/-!
# Blank texts

A text is blank when it holds nothing but white space, in the sense of the Unicode property
`White_Space`.
-/

namespace TypeProjection.Text

/-- The ranges of the Unicode property `White_Space`, first and last code point. -/
def blankRanges : List (Nat × Nat) :=
  [(0x09, 0x0D), (0x20, 0x20), (0x85, 0x85), (0xA0, 0xA0), (0x1680, 0x1680), (0x2000, 0x200A),
    (0x2028, 0x2029), (0x202F, 0x202F), (0x205F, 0x205F), (0x3000, 0x3000)]

def isBlankChar (c : Char) : Bool :=
  blankRanges.any fun (first, last) => decide (first ≤ c.toNat ∧ c.toNat ≤ last)

/-- A text without any character that is not white space. -/
def isBlank (text : String) : Bool := text.toList.all isBlankChar

/-- A text without the white space at its start and at its end. -/
def trimBlank (text : List Char) : List Char :=
  ((text.dropWhile isBlankChar).reverse.dropWhile isBlankChar).reverse

end TypeProjection.Text

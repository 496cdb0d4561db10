/-
# Admission.Text.Blank — white space and trimming

White space is Unicode's `White_Space` property. Zero-width characters are not part of it: a key
that holds only a zero-width space is not blank.
-/

namespace Admission.Text

/-- The code points of `White_Space`, as closed ranges in ascending order. -/
def blankRanges : List (Nat × Nat) :=
  [(0x0009, 0x000D), (0x0020, 0x0020), (0x0085, 0x0085), (0x00A0, 0x00A0), (0x1680, 0x1680),
   (0x2000, 0x200A), (0x2028, 0x2029), (0x202F, 0x202F), (0x205F, 0x205F), (0x3000, 0x3000)]

/-- Whether a code point lies in one of the closed ranges of a table. -/
def inRanges (table : List (Nat × Nat)) (code : Nat) : Bool :=
  table.any fun range => range.1 ≤ code && code ≤ range.2

/-- Whether a character is white space. -/
def isBlank (c : Char) : Bool := inRanges blankRanges c.toNat

/-- The text without the white space at either end. -/
def trim (cs : List Char) : List Char :=
  ((cs.dropWhile isBlank).reverse.dropWhile isBlank).reverse

/-- Whether a text is empty or holds nothing but white space. -/
def blank (s : String) : Bool := s.toList.all isBlank

end Admission.Text

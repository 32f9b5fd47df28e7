/-!
# Blank text

A blank is a character of the Unicode property White_Space. `Text.trimBlanks` drops the blanks at
both ends of a text, and `Text.isBlank` says that nothing else is in it.
-/

namespace QueryPipeline.Text

/-- The ranges of code points with the property White_Space, in ascending order. -/
def blankRanges : List (Nat × Nat) :=
  [(0x9, 0xd), (0x20, 0x20), (0x85, 0x85), (0xa0, 0xa0), (0x1680, 0x1680), (0x2000, 0x200a),
    (0x2028, 0x2029), (0x202f, 0x202f), (0x205f, 0x205f), (0x3000, 0x3000)]

/-- A character with the property White_Space. -/
def isBlankChar (c : Char) : Bool :=
  blankRanges.any fun range => range.1 ≤ c.toNat && c.toNat ≤ range.2

/-- Drops the blanks at both ends. -/
def trimBlanks (text : List Char) : List Char :=
  ((text.dropWhile isBlankChar).reverse.dropWhile isBlankChar).reverse

/-- A text that holds blanks only, in particular the empty text. -/
def isBlank (text : String) : Bool :=
  text.toList.all isBlankChar

end QueryPipeline.Text

/-!
# Blank characters

The characters that count as blank when text is trimmed: the white space of the Unicode standard
together with the four information separators.
-/

namespace Typeward.Text

/-- The ranges of blank code points, both ends included. -/
def blankRanges : List (Nat × Nat) :=
  [(0x09, 0x0D), (0x1C, 0x20), (0x85, 0x85), (0xA0, 0xA0), (0x1680, 0x1680), (0x2000, 0x200A),
    (0x2028, 0x2029), (0x202F, 0x202F), (0x205F, 0x205F), (0x3000, 0x3000)]

/-- Whether a character is blank. -/
def isBlank (c : Char) : Bool :=
  blankRanges.any fun (first, last) => first ≤ c.toNat && c.toNat ≤ last

/-- A text without the characters at its end that satisfy `drop`. -/
def trimEndWhere (drop : Char → Bool) (cs : List Char) : List Char :=
  (cs.reverse.dropWhile drop).reverse

/-- A text without blanks at its end. -/
def trimEnd (text : String) : String :=
  String.ofList (trimEndWhere isBlank text.toList)

/-- A text without blanks at either end. -/
def trim (text : String) : String :=
  String.ofList (trimEndWhere isBlank (text.toList.dropWhile isBlank))

end Typeward.Text

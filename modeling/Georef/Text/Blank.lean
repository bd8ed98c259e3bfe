import Georef.Text.Ranges

/-!
# White space

`isBlank` is the white space of the Unicode standard together with the four information separators.
`trimBlanks` takes it off both ends of a text.
-/

namespace Georef

/-- Code points of the white space characters. -/
def blankRanges : List (Nat × Nat) :=
  [
   (0x9, 0xD), (0x1C, 0x20), (0x85, 0x85), (0xA0, 0xA0), (0x1680, 0x1680), (0x2000, 0x200A),
   (0x2028, 0x2029), (0x202F, 0x202F), (0x205F, 0x205F), (0x3000, 0x3000)]

/-- The character is white space. -/
def isBlank (c : Char) : Bool := inRanges blankRanges c.toNat

/-- The text without leading white space. -/
def dropBlanks (text : List Char) : List Char := text.dropWhile isBlank

/-- The text without leading and trailing white space. -/
def trimBlanks (text : List Char) : List Char :=
  (dropBlanks (dropBlanks text).reverse).reverse

end Georef

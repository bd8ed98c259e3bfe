import Georef.Text.Blank
import Georef.Text.DecimalDigit

/-!
# Reading integers

An integer is written as decimal digits of any script, perhaps with a sign in front, single
underscores between digits, and white space around. Texts with very many digits are refused.
-/

namespace Georef

/-- White space around a number; the information separators do not count. -/
def isIntegerBlank (c : Char) : Bool := isBlank c && !(0x1C ≤ c.toNat && c.toNat ≤ 0x1F)

/-- The greatest number of digits that is read, leading zeros included. -/
def greatestDigitCount : Nat := 4300

/-- The digits of a text that starts with a digit and in which single underscores stand between
digits only. -/
def ungroupedDigits? : List Char → Option (List Char)
  | [] => none
  | [c] => if isDecimalDigit c then some [c] else none
  | c :: '_' :: rest => if isDecimalDigit c then (ungroupedDigits? rest).map (c :: ·) else none
  | c :: rest => if isDecimalDigit c then (ungroupedDigits? rest).map (c :: ·) else none

/-- Reads an integer. -/
def readInteger? (text : List Char) : Option Int :=
  let trimmed := ((text.dropWhile isIntegerBlank).reverse.dropWhile isIntegerBlank).reverse
  let (negative, unsigned) := match trimmed with
    | '-' :: rest => (true, rest)
    | '+' :: rest => (false, rest)
    | _ => (false, trimmed)
  match ungroupedDigits? unsigned with
  | none => none
  | some digits =>
    if greatestDigitCount < digits.length then none
    else some (if negative then -(digitsValue digits : Int) else digitsValue digits)

end Georef

import Georef.Decimal.Numeral
import Georef.Text.Integer

/-!
# Reading numbers

A number is written as decimal digits of any script, perhaps with a point, an exponent and a sign, or as
one of the words `inf`, `infinity` and `nan` in letters of either case. Single underscores may stand
between digits, and white space around the number.
-/

namespace Georef

/-- The text without its underscores, which have to stand between digits. -/
def dropGrouping? (afterDigit : Bool) : List Char → Option (List Char)
  | [] => some []
  | '_' :: c :: rest =>
    if afterDigit && isDecimalDigit c then (dropGrouping? true rest).map (c :: ·) else none
  | '_' :: [] => none
  | c :: rest => (dropGrouping? (isDecimalDigit c) rest).map (c :: ·)

/-- The text behind a sign, and whether the sign is a minus. -/
def splitSign : List Char → Bool × List Char
  | '-' :: rest => (true, rest)
  | '+' :: rest => (false, rest)
  | text => (false, text)

/-- Reads an exponent, which may be missing. -/
def readExponent? : List Char → Option Int
  | [] => some 0
  | c :: rest =>
    let (negative, digits) := splitSign rest
    if (c == 'e' || c == 'E') && !digits.isEmpty && digits.all isDecimalDigit then
      some (if negative then -(digitsValue digits : Int) else digitsValue digits)
    else none

/-- Reads digits with at most one point and perhaps an exponent; at least one digit stands in front of
the exponent. -/
def readDigits? (negative : Bool) (text : List Char) : Option Double := do
  let whole := text.takeWhile isDecimalDigit
  let afterWhole := text.dropWhile isDecimalDigit
  let (fraction, afterFraction) := match afterWhole with
    | '.' :: rest => (rest.takeWhile isDecimalDigit, rest.dropWhile isDecimalDigit)
    | rest => ([], rest)
  let digits := whole ++ fraction
  if digits.isEmpty then none
  let exponent ← readExponent? afterFraction
  return Numeral.readDecimal negative (digitsValue digits) (exponent - fraction.length)

/-- Reads a number. -/
def readDouble? (text : List Char) : Option Double := do
  let trimmed := ((text.dropWhile isIntegerBlank).reverse.dropWhile isIntegerBlank).reverse
  let (negative, unsigned) := splitSign (← dropGrouping? false trimmed)
  let word := String.ofList (unsigned.map Char.toLower)
  if word = "inf" || word = "infinity" then return .infinity negative
  else if word = "nan" then return .quietNaN negative
  else readDigits? negative unsigned

end Georef

import Georef.Decimal.Shortest

/-!
# Numbers as text

Three ways to write a `Double`: its default text (`Double.text`), the same digits always without an
exponent (`Double.positionalChars`), and a fixed count of significant digits
(`Double.significantText`).
-/

namespace Georef

/-- Where positional writing ends and an exponent begins. -/
structure PositionalRange where
  /-- The least power of ten of a leading digit that is written without an exponent. -/
  least : Int
  /-- The first power of ten above that is written with an exponent. -/
  bound : Int

namespace Double

/-- Numbers from 0.0001 up to 10^16 are written without an exponent. -/
def defaultRange : PositionalRange := ⟨-4, 16⟩

/-- A minus sign for the numbers that carry one. -/
def signChars (x : Double) : List Char := if x.negative then ['-'] else []

/-- The text of a number that is not finite. -/
def nonFiniteText (x : Double) : String :=
  if x.isNaN then "nan" else if x.negative then "-inf" else "inf"

/-- Digits with the point behind the first one, and the power of ten. -/
def scientificChars (d : Decimal) : List Char :=
  let mantissa := match digitChars d.significand with
    | [] => []
    | [c] => [c]
    | c :: rest => c :: '.' :: rest
  mantissa ++ 'e' :: exponentChars d.leadingExponent

/-- The shortest digits that read back, with at least one decimal, or with an exponent outside the
default range. -/
def finiteChars (magnitude : Nat) : List Char :=
  let d := shortest magnitude
  let e := d.leadingExponent
  if defaultRange.least ≤ e ∧ e < defaultRange.bound then
    let fraction := if d.fractionDigits.isEmpty then ['0'] else d.fractionDigits
    d.wholeDigits ++ '.' :: fraction
  else scientificChars d

/-- The default text of a number: `1.0`, `0.0001`, `1e+16`, `-inf`, `nan`. -/
def text (x : Double) : String :=
  if x.isFinite then String.ofList (x.signChars ++ finiteChars x.magnitude) else x.nonFiniteText

/-- The shortest digits that read back, without an exponent whatever the size. -/
def positionalChars (x : Double) : List Char :=
  x.signChars ++ (shortest x.magnitude).positional

/-- The positive finite number rounded to `count` significant digits, a tie to the even digit. -/
def roundedTo (x : Double) (count : Nat) : Decimal :=
  let units := unitsOfMagnitude x.magnitude
  let exponent := leadingExponentOfRatio units unitsPerOne - count + 1
  let (numerator, denominator) := scaledRatio units unitsPerOne exponent
  let significand := roundHalfEven numerator denominator
  if significand = powerOfTen count then ⟨powerOfTen (count - 1), exponent + 1⟩
  else ⟨significand, exponent⟩

/-- The number with `count` significant digits and an exponent; anything nearer to zero than
10^-12 is written as zero. -/
def significantText (count : Nat) (x : Double) : String :=
  if !x.isFinite then x.nonFiniteText
  else if x.abs < (1e-12 : Double) then "0"
  else String.ofList (x.signChars ++ scientificChars (x.roundedTo count))

end Double

end Georef

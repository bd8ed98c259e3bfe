import Georef.Double.Arithmetic

/-!
# Decimal numbers

A `Decimal` is a natural number times a power of ten. This module writes natural numbers in base
ten, takes a decimal apart at its point, and turns it into the nearest `Double`.
-/

namespace Georef

/-- The character of a digit below ten. -/
def digitChar (d : Nat) : Char := Char.ofNat ('0'.toNat + d % 10)

/-- The base-ten digits of a number, the leading one first; zero is written as one digit. -/
def digitChars (n : Nat) : List Char :=
  if n < 10 then [digitChar n] else digitChars (n / 10) ++ [digitChar (n % 10)]
termination_by n

/-- The base-ten text of an integer. -/
def integerText (n : Int) : String :=
  String.ofList (if n < 0 then '-' :: digitChars n.natAbs else digitChars n.natAbs)

/-- A non-negative decimal number, `significand * 10 ^ exponent`. -/
structure Decimal where
  /-- The digits, read as one number. -/
  significand : Nat
  /-- The power of ten of the last digit. -/
  exponent : Int
deriving DecidableEq

namespace Decimal

/-- The same number with as few digits as possible: trailing zeros move into the exponent. -/
def dropTrailingZeros (d : Decimal) : Decimal :=
  if 0 < d.significand ∧ d.significand % 10 = 0 then
    dropTrailingZeros ⟨d.significand / 10, d.exponent + 1⟩
  else d
termination_by d.significand
decreasing_by omega

/-- The power of ten of the leading digit. -/
def leadingExponent (d : Decimal) : Int := d.exponent + (digitChars d.significand).length - 1

/-- The digits before the point, at least one. -/
def wholeDigits (d : Decimal) : List Char :=
  let digits := digitChars d.significand
  if 0 ≤ d.exponent then digits ++ List.replicate d.exponent.toNat '0'
  else
    let places := (-d.exponent).toNat
    if places < digits.length then digits.take (digits.length - places) else ['0']

/-- The digits after the point. -/
def fractionDigits (d : Decimal) : List Char :=
  let digits := digitChars d.significand
  if 0 ≤ d.exponent then []
  else
    let places := (-d.exponent).toNat
    if places < digits.length then digits.drop (digits.length - places)
    else List.replicate (places - digits.length) '0' ++ digits

/-- The number without an exponent; the point is written only in front of digits. -/
def positional (d : Decimal) : List Char :=
  match d.fractionDigits with
  | [] => d.wholeDigits
  | fraction => d.wholeDigits ++ '.' :: fraction

end Decimal

/-- A power of ten as text: a sign and at least two digits. -/
def exponentChars (e : Int) : List Char :=
  let digits := digitChars e.natAbs
  (if e < 0 then '-' else '+') :: (List.replicate (2 - digits.length) '0' ++ digits)

end Georef

import Georef.Failure

/-!
# Numbers as they are written down

A number is written as an integer, as a decimal number, or as the name of a value that has no digits.
An integer must not be larger than every number, while a decimal number that is becomes infinite.
-/

namespace Georef

/-- A number as it is written down. -/
inductive Numeral where
  | integer (n : Int)
  /-- The digits without the point, and the power of ten of the last one. -/
  | decimal (negative : Bool) (digits : Nat) (exponent : Int)
  /-- A value written by its name. -/
  | named (x : Double)
  /-- Nothing, where a number should be. -/
  | missing
deriving DecidableEq

namespace Numeral

/-- Powers of ten beyond this one take every digit to infinity. -/
def greatestExponent : Int := 400

/-- Digits times a power of ten. Far from all numbers the power itself is not looked at, only on which
side the value lies. -/
def readDecimal (negative : Bool) (digits : Nat) (exponent : Int) : Double :=
  if digits = 0 then Double.signedZero negative
  else if greatestExponent < exponent then Double.infinity negative
  else if exponent + (digitChars digits).length < -greatestExponent then Double.signedZero negative
  else Double.ofDecimal negative digits exponent

/-- The number that is written. -/
def value : Numeral → Except Failure Double
  | integer n =>
    let x := Double.ofInt n
    if x.isInfinite then .error .integerTooLarge else .ok x
  | decimal negative digits exponent => .ok (readDecimal negative digits exponent)
  | named x => .ok x
  | missing => .error .wrongKind

end Numeral

end Georef

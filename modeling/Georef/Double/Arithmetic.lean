import Georef.Double.Basic

/-!
# Correctly rounded arithmetic

Each operation computes its exact result as a quotient of natural numbers, in units of 2^-1074, and
rounds it once to the nearest `Double`, a tie going to the even fraction. NaN operands are passed on
(the first one wins) and an operation without a value gives the negative quiet NaN.
-/

namespace Georef

/-- `numerator / denominator` to the nearest natural number, a tie going to the even one. -/
def roundHalfEven (numerator denominator : Nat) : Nat :=
  let quotient := numerator / denominator
  let remainder := numerator % denominator
  if 2 * remainder < denominator then quotient
  else if denominator < 2 * remainder then quotient + 1
  else quotient + quotient % 2

namespace Double

/-- The magnitude nearest to `numerator / denominator` units. The quotient is scaled down until 53
bits are left, rounded, and the scale becomes the exponent field; a carry out of the fraction lands
in the exponent field by itself. Values beyond the largest finite magnitude become infinite. -/
def nearestMagnitude (numerator denominator : Nat) : Nat :=
  let scale := (numerator / denominator).log2 - 52
  min (scale * fractionCount + roundHalfEven numerator (denominator * powerOfTwo scale))
    infinityMagnitude

theorem nearestMagnitude_lt (numerator denominator : Nat) :
    nearestMagnitude numerator denominator < magnitudeBound :=
  Nat.lt_of_le_of_lt (Nat.min_le_right ..) (by decide)

/-- The number of the given sign nearest to `numerator / denominator` units. -/
def ofRatio (negative : Bool) (numerator denominator : Nat) : Double :=
  ⟨negative, nearestMagnitude numerator denominator, nearestMagnitude_lt numerator denominator⟩

/-- The number nearest to a whole number of units. -/
def ofUnits (n : Int) : Double := ofRatio (n < 0) n.natAbs 1

/-- The number nearest to an integer. -/
def ofInt (n : Int) : Double := ofRatio (n < 0) (n.natAbs * unitsPerOne) 1

/-- The number nearest to `significand * 10 ^ exponent`. -/
def ofDecimal (negative : Bool) (significand : Nat) (exponent : Int) : Double :=
  match exponent with
  | .ofNat e => ofRatio negative (significand * powerOfTen e * unitsPerOne) 1
  | .negSucc e => ofRatio negative (significand * unitsPerOne) (powerOfTen (e + 1))

instance : OfScientific Double where
  ofScientific significand negativeExponent exponent :=
    ofDecimal false significand (if negativeExponent then -(exponent : Int) else exponent)

/-- A NaN with its quiet bit set. -/
def quieted (x : Double) : Double :=
  ⟨x.negative, x.magnitude ||| fractionCount / 2,
    Nat.or_lt_two_pow (n := 63) x.magnitude_lt (by decide)⟩

/-- The result of an operation that has no value, such as infinity minus infinity. -/
def invalid : Double := quietNaN true

/-- The sum of two numbers, neither of them a NaN. -/
def addNumbers (x y : Double) : Double :=
  if x.isInfinite then
    if y.isInfinite && x.negative != y.negative then invalid else x
  else if y.isInfinite then y
  else
    let sum := x.units + y.units
    if sum = 0 then signedZero (x.negative && y.negative) else ofUnits sum

/-- Sum; an exact zero is positive unless both operands are negative. -/
def add (x y : Double) : Double :=
  if x.isNaN then x.quieted
  else if y.isNaN then y.quieted
  else addNumbers x y

/-- Difference. -/
def sub (x y : Double) : Double :=
  if x.isNaN then x.quieted
  else if y.isNaN then y.quieted
  else addNumbers x y.neg

/-- Product. -/
def mul (x y : Double) : Double :=
  let negative := x.negative != y.negative
  if x.isNaN then x.quieted
  else if y.isNaN then y.quieted
  else if x.isInfinite || y.isInfinite then
    if x.isZero || y.isZero then invalid else infinity negative
  else ofRatio negative (x.units.natAbs * y.units.natAbs) unitsPerOne

/-- Quotient; a non-zero number over zero is infinite. -/
def div (x y : Double) : Double :=
  let negative := x.negative != y.negative
  if x.isNaN then x.quieted
  else if y.isNaN then y.quieted
  else if x.isInfinite then
    if y.isInfinite then invalid else infinity negative
  else if y.isInfinite then signedZero negative
  else if y.isZero then
    if x.isZero then invalid else infinity negative
  else ofRatio negative (x.units.natAbs * unitsPerOne) y.units.natAbs

instance : Add Double := ⟨add⟩

instance : Sub Double := ⟨sub⟩

instance : Mul Double := ⟨mul⟩

instance : Div Double := ⟨div⟩

/-- Square root of `n` units as a magnitude. The integer root of `n * 2^1074` has hundreds of bits
more than a fraction holds, so only whether it is exact still matters for rounding; an inexact root
is moved half a unit up, off every tie. -/
def sqrtMagnitude (n : Nat) : Nat :=
  let radicand := n * unitsPerOne
  let root := radicand.sqrt
  let twice := if root * root = radicand then 2 * root else 2 * root + 1
  nearestMagnitude twice 2

/-- Square root; a negative number has none. -/
def sqrt (x : Double) : Double :=
  if x.isNaN then x.quieted
  else if x.isZero then x
  else if x.negative then invalid
  else if x.isInfinite then x
  else ⟨false, sqrtMagnitude x.units.natAbs, nearestMagnitude_lt ..⟩

/-- The square root of the sum of the squares, rounded once. The integer root of the sum times 2^128 has
so many bits that only whether it is exact still matters for rounding. -/
def lengthOf (xs : List Double) : Double :=
  match xs.find? (·.isNaN) with
  | some x => x.quieted
  | none =>
    if xs.any (·.isInfinite) then infinity false
    else
      let radicand := xs.foldl (fun total x => total + x.units.natAbs * x.units.natAbs) 0 * powerOfTwo 128
      let root := radicand.sqrt
      let twice := if root * root = radicand then 2 * root else 2 * root + 1
      ofRatio false twice (powerOfTwo 65)

/-- The exponent of the least power of two above a finite number, signs apart; zero has exponent zero. -/
def binaryExponent (x : Double) : Int := if x.isZero then 0 else (x.units.natAbs.log2 : Int) - 1073

/-- The number times a power of two, rounded once. -/
def scaled (x : Double) (exponent : Int) : Double :=
  if !x.isFinite then x
  else
    match exponent with
    | .ofNat e => ofRatio x.negative (x.units.natAbs * powerOfTwo e) 1
    | .negSucc e => ofRatio x.negative x.units.natAbs (powerOfTwo (e + 1))

/-- The size of one number with the sign of another. -/
def withSignOf (x sign : Double) : Double := { x with negative := sign.negative }

/-- The least integer that is not below a finite number. -/
def ceil (x : Double) : Int := -((-x.units) / (unitsPerOne : Int))

/-- The integer part of a finite number. -/
def truncate (x : Double) : Int := x.units.tdiv unitsPerOne

/-- The number is finite and has no fractional part. -/
def isInteger (x : Double) : Bool := x.isFinite && x.units % (unitsPerOne : Int) == 0

end Double

end Georef

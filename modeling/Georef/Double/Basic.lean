/-!
# Binary64 numbers

A `Double` is one of the 2^64 bit patterns of IEEE 754 binary64: a sign and a 63-bit magnitude.
Magnitudes below `infinityMagnitude` are the finite numbers in increasing order,
`infinityMagnitude` is infinity, and everything above is a NaN with its payload.

Every finite number is a whole multiple of 2^-1074, so its exact value is the integer `units`.
The arithmetic in `Georef.Double.Arithmetic` is exact integer arithmetic on `units` followed by one
rounding, and comparison is comparison of `ordinal`.
-/

namespace Georef

/-- A power of two. -/
def powerOfTwo (n : Nat) : Nat := Nat.pow 2 n

/-- A power of ten. -/
def powerOfTen (n : Nat) : Nat := Nat.pow 10 n

/-- How many patterns 63 bits have. -/
def magnitudeBound : Nat := 9223372036854775808

/-- How many patterns the 52 bits of the fraction have. -/
def fractionCount : Nat := 4503599627370496

/-- A binary64 number: a sign and the 63 remaining bits, read as a number. -/
structure Double where
  /-- The sign bit. -/
  negative : Bool
  /-- Exponent and fraction bits. -/
  magnitude : Nat
  magnitude_lt : magnitude < magnitudeBound
deriving DecidableEq

namespace Double

/-- Magnitude of the infinities: all exponent bits set, no fraction. -/
def infinityMagnitude : Nat := 2047 * fractionCount

/-- How many units make one. -/
def unitsPerOne : Nat := powerOfTwo 1074

/-- The number is not a number. -/
def isNaN (x : Double) : Bool := infinityMagnitude < x.magnitude

/-- The number is one of the two infinities. -/
def isInfinite (x : Double) : Bool := x.magnitude == infinityMagnitude

/-- The number is neither infinite nor a NaN. -/
def isFinite (x : Double) : Bool := x.magnitude < infinityMagnitude

/-- The number has all the bits of precision: it is not below the least power of two whose fraction is
complete, 2^-1022. -/
def isNormal (x : Double) : Bool := fractionCount ≤ x.magnitude && x.isFinite

/-- The number is one of the two zeros. -/
def isZero (x : Double) : Bool := x.magnitude == 0

/-- The zero of the given sign. -/
def signedZero (negative : Bool) : Double := ⟨negative, 0, by decide⟩

/-- The infinity of the given sign. -/
def infinity (negative : Bool) : Double := ⟨negative, infinityMagnitude, by decide⟩

/-- The quiet NaN of the given sign without further payload. -/
def quietNaN (negative : Bool) : Double := ⟨negative, infinityMagnitude + fractionCount / 2, by decide⟩

/-- One. -/
def one : Double := ⟨false, 1023 * fractionCount, by decide⟩

instance : Zero Double := ⟨signedZero false⟩

instance : One Double := ⟨one⟩

instance : Inhabited Double := ⟨0⟩

/-- The value of a finite magnitude in units of 2^-1074. Below 2^52 the magnitude is the value;
above, the low 52 bits are the fraction and the rest scales it. -/
def unitsOfMagnitude (magnitude : Nat) : Nat :=
  if magnitude < fractionCount then magnitude
  else (fractionCount + magnitude % fractionCount) * powerOfTwo (magnitude / fractionCount - 1)

/-- The exact value of a finite number, in units of 2^-1074. -/
def units (x : Double) : Int :=
  if x.negative then -(unitsOfMagnitude x.magnitude : Int) else unitsOfMagnitude x.magnitude

/-- Place of a number on the extended line: the two zeros share place 0, infinities come last. -/
def ordinal (x : Double) : Int :=
  if x.negative then -(x.magnitude : Int) else x.magnitude

/-- Numeric equality: the zeros are equal, a NaN equals nothing. -/
def numericEq (x y : Double) : Bool :=
  !x.isNaN && !y.isNaN && x.ordinal == y.ordinal

/-- Numeric `<`, false as soon as a NaN takes part. -/
def lt (x y : Double) : Bool :=
  !x.isNaN && !y.isNaN && x.ordinal < y.ordinal

/-- Numeric `≤`, false as soon as a NaN takes part. -/
def le (x y : Double) : Bool :=
  !x.isNaN && !y.isNaN && x.ordinal ≤ y.ordinal

instance : BEq Double := ⟨numericEq⟩

instance : LT Double := ⟨fun x y => x.lt y = true⟩

instance : LE Double := ⟨fun x y => x.le y = true⟩

instance (x y : Double) : Decidable (x < y) := inferInstanceAs (Decidable (x.lt y = true))

instance (x y : Double) : Decidable (x ≤ y) := inferInstanceAs (Decidable (x.le y = true))

/-- The number without its sign. -/
def abs (x : Double) : Double := { x with negative := false }

/-- The number with its sign turned, also for zeros and NaNs. -/
def neg (x : Double) : Double := { x with negative := !x.negative }

instance : Neg Double := ⟨neg⟩

/-- The 64-bit pattern. -/
def toBits (x : Double) : BitVec 64 :=
  BitVec.ofNat 64 (if x.negative then magnitudeBound + x.magnitude else x.magnitude)

end Double

end Georef

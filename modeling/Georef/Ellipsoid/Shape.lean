import Georef.Double.Arithmetic

/-!
# The shape of an ellipsoid

An ellipsoid of revolution is given by its semi-major axis and either its inverse flattening or its
semi-minor axis; the third number follows from the other two. A sphere has an infinite inverse
flattening.
-/

namespace Georef

/-- Numbers among which there is an infinite one. -/
class Unbounded (α : Type) where
  infinity : α
  /-- The number is greater than zero. -/
  isPositive : α → Bool

instance : Unbounded Double := ⟨Double.infinity false, fun x => decide ((0 : Double) < x)⟩

/-- Size and shape of an ellipsoid of revolution. -/
structure Spheroid (α : Type) where
  semiMajorAxis : α
  semiMinorAxis : α
  inverseFlattening : α
  /-- The inverse flattening was given and the semi-minor axis follows, not the other way round. -/
  flatteningIsDefinitive : Bool
deriving DecidableEq

namespace Spheroid

variable {α : Type} [One α] [Sub α] [Mul α] [Div α] [BEq α] [Unbounded α]

/-- The shape with the given semi-major axis and inverse flattening, both positive. -/
def ofFlattening? (semiMajor inverseFlattening : α) : Option (Spheroid α) :=
  if Unbounded.isPositive semiMajor && Unbounded.isPositive inverseFlattening then
    some ⟨semiMajor, semiMajor * (1 - 1 / inverseFlattening), inverseFlattening, true⟩
  else none

/-- The shape with the given axes, both positive. -/
def ofAxes? (semiMajor semiMinor : α) : Option (Spheroid α) :=
  if Unbounded.isPositive semiMajor && Unbounded.isPositive semiMinor then
    let inverseFlattening :=
      if semiMajor == semiMinor then Unbounded.infinity else semiMajor / (semiMajor - semiMinor)
    some ⟨semiMajor, semiMinor, inverseFlattening, false⟩
  else none

/-- The two axes are equal. -/
def isSphere (s : Spheroid α) : Bool := s.semiMajorAxis == s.semiMinorAxis

end Spheroid

end Georef

import Georef.Ellipsoid.Shape
import Georef.Failure

/-!
# Reference ellipsoids and prime meridians

An ellipsoid is a shape with a name, further labels and a unit of length. The labels come from a map
of properties, of which only the name is required.
-/

namespace Georef

/-- Labels by their keys; a label may be there without a text. -/
abbrev Properties := List (String × Option String)

/-- A reference ellipsoid. -/
structure Ellipsoid where
  name : Option String
  /-- A second name by which the ellipsoid goes. -/
  otherName : Option String
  identifier : Option String
  /-- Who gave the identifier. -/
  authority : Option String
  /-- The unit of the axis lengths. -/
  unit : String
  shape : Spheroid Double
deriving DecidableEq

namespace Ellipsoid

/-- The unit of an ellipsoid that is given without one. -/
def defaultUnit : String := "m"

/-- The ellipsoid of the given shape with labels from a map of properties. There must be such a map,
and it must have a name. -/
def ofProperties (properties : Option Properties) (unit : String) (shape : Spheroid Double) :
    Except Failure Ellipsoid :=
  match properties with
  | none => .error .wrongKind
  | some labels =>
    match labels.lookup "name" with
    | none => .error .missingKey
    | some name =>
      .ok {
        name := name
        otherName := (labels.lookup "alias").join
        identifier := (labels.lookup "identifier").join
        authority := (labels.lookup "authority").join
        unit := unit
        shape := shape }

/-- The ellipsoid with the given semi-major axis and inverse flattening. The numbers are checked by
    `ofFlattening?` before the properties. -/
def flattenedSphere (properties : Option Properties) (semiMajor inverseFlattening : Double)
    (unit : String) : Except Failure Ellipsoid :=
  match Spheroid.ofFlattening? semiMajor inverseFlattening with
  | some shape => ofProperties properties unit shape
  | none => .error (.flattenedSphereSize semiMajor inverseFlattening)

/-- The ellipsoid with the given axes. The numbers are checked by `ofAxes?` before the properties. -/
def ofAxes (properties : Option Properties) (semiMajor semiMinor : Double) (unit : String) :
    Except Failure Ellipsoid :=
  match Spheroid.ofAxes? semiMajor semiMinor with
  | some shape => ofProperties properties unit shape
  | none => .error (.ellipsoidSize semiMajor semiMinor)

/-- The two axes are equal. -/
def isSphere (e : Ellipsoid) : Bool := e.shape.isSphere

/-- Equal labels, unit and shape, numbers compared as numbers. -/
def sameAs (a b : Ellipsoid) : Bool :=
  a.name == b.name && a.otherName == b.otherName && a.identifier == b.identifier &&
    a.authority == b.authority && a.unit == b.unit &&
    a.shape.semiMajorAxis == b.shape.semiMajorAxis &&
    a.shape.semiMinorAxis == b.shape.semiMinorAxis &&
    a.shape.inverseFlattening == b.shape.inverseFlattening &&
    a.shape.flatteningIsDefinitive == b.shape.flatteningIsDefinitive

end Ellipsoid

/-- A meridian from which longitudes are counted. -/
structure PrimeMeridian where
  name : String
  /-- Its own longitude, counted from Greenwich. -/
  greenwichLongitude : Double
  angularUnit : String
  identifier : Option String
  authority : Option String
deriving DecidableEq

/-- Equal labels, unit and longitude, numbers compared as numbers. -/
def PrimeMeridian.sameAs (a b : PrimeMeridian) : Bool :=
  a.name == b.name && a.greenwichLongitude == b.greenwichLongitude &&
    a.angularUnit == b.angularUnit && a.identifier == b.identifier && a.authority == b.authority

end Georef

import Georef.Ellipsoid.Basic
import Georef.Text.Integer

/-!
# Standard ellipsoids and datums

Six ellipsoids are known by the codes of the EPSG registry, and seven geodetic datums refer to them.
All of them count longitudes from Greenwich.
-/

namespace Georef

/-- The registry that the codes come from. -/
def codeAuthority : String := "EPSG"

/-- The prime meridian of Greenwich. -/
def PrimeMeridian.greenwich : PrimeMeridian :=
  ⟨"Greenwich", 0, "deg", some "8901", some codeAuthority⟩

/-- What a standard ellipsoid is defined by. -/
inductive EllipsoidDefinition where
  | flattening (semiMajor inverseFlattening : Double)
  | axes (semiMajor semiMinor : Double)
deriving DecidableEq

/-- A standard ellipsoid. -/
structure StandardEllipsoid where
  code : Int
  name : String
  otherName : Option String
  definition : EllipsoidDefinition
deriving DecidableEq

/-- The ellipsoids with a code. -/
def standardEllipsoids : List StandardEllipsoid :=
  [⟨7030, "WGS 84", some "WGS84", .flattening 6378137.0 298.257223563⟩,
   ⟨7043, "WGS 72", some "NWL 10D", .flattening 6378135.0 298.26⟩,
   ⟨7019, "GRS 1980", some "International 1979", .flattening 6378137.0 298.257222101⟩,
   ⟨7022, "International 1924", some "Hayford 1909", .flattening 6378388.0 297.0⟩,
   ⟨7008, "Clarke 1866", none, .axes 6378206.4 6356583.8⟩,
   ⟨7048, "GRS 1980 Authalic Sphere", none, .axes 6371007.0 6371007.0⟩]

/-- A code as it is given. -/
inductive EllipsoidCode where
  | integer (code : Int)
  | written (code : String)
  | number (code : Double)
  /-- No code at all. -/
  | missing
deriving DecidableEq

namespace EllipsoidCode

/-- A code as it appears in a message. -/
def text : EllipsoidCode → String
  | integer code => integerText code
  | written code => quoted code
  | number code => code.text
  | missing => "None"

/-- The integer that a code stands for. A text must read as one, and a number loses its fraction. -/
def value (code : EllipsoidCode) : Except Failure Int :=
  match code with
  | integer n => .ok n
  | written s =>
    match readInteger? s.toList with
    | some n => .ok n
    | none => .error (.unknownEllipsoid code.text)
  | number x =>
    if x.isInfinite then .error .infiniteInteger
    else if x.isNaN then .error (.unknownEllipsoid code.text)
    else .ok x.truncate
  | missing => .error (.unknownEllipsoid code.text)

end EllipsoidCode

namespace Ellipsoid

/-- The labels of a standard ellipsoid. -/
def standardProperties (e : StandardEllipsoid) : Properties :=
  [("name", some e.name), ("alias", e.otherName), ("identifier", some (integerText e.code)),
   ("authority", some codeAuthority)]

/-- The standard ellipsoid with the given code. -/
def ofCode (code : EllipsoidCode) : Except Failure Ellipsoid := do
  let number ← code.value
  match standardEllipsoids.find? fun e => e.code == number with
  | none => throw (.unknownEllipsoid (integerText number))
  | some e =>
    match e.definition with
    | .flattening a f => flattenedSphere (some (standardProperties e)) a f defaultUnit
    | .axes a b => ofAxes (some (standardProperties e)) a b defaultUnit

end Ellipsoid

/-- A geodetic datum by the short name it is known by. -/
structure GeodeticDatum where
  shortName : String
  name : String
  ellipsoidCode : Int
deriving DecidableEq

namespace GeodeticDatum

/-- The datums that are used most. -/
def all : List GeodeticDatum :=
  [⟨"WGS84", "World Geodetic System 1984", 7030⟩,
   ⟨"WGS72", "World Geodetic System 1972", 7043⟩,
   ⟨"ETRS89", "European Terrestrial Reference System 1989", 7019⟩,
   ⟨"NAD83", "North American Datum 1983", 7019⟩,
   ⟨"NAD27", "North American Datum 1927", 7008⟩,
   ⟨"ED50", "European Datum 1950", 7022⟩,
   ⟨"SPHERE", "Not specified (based on GRS 1980 Authalic Sphere)", 7048⟩]

/-- The datum with the given short name. -/
def find (shortName : String) : Except Failure GeodeticDatum :=
  match all.find? fun d => d.shortName == shortName with
  | some d => .ok d
  | none => .error .missingKey

/-- The ellipsoid that the datum refers to. -/
def ellipsoid (d : GeodeticDatum) : Except Failure Ellipsoid :=
  Ellipsoid.ofCode (.integer d.ellipsoidCode)

end GeodeticDatum

end Georef

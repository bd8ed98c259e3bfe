import Georef.Decimal.Numeral
import Georef.Session.Equality

/-!
# Ellipsoids in a session

Commands on ellipsoids, prime meridians and geodetic datums. The standard ellipsoids and the meridian of
Greenwich exist once each, however often they are asked for.
-/

namespace Georef

/-- A command on ellipsoids. -/
inductive EllipsoidCommand where
  | ofCode (code : EllipsoidCode)
  /-- The standard ellipsoid with a code that is written as a number. -/
  | ofNumber (code : Numeral)
  | flattenedSphere (properties : Option Properties) (semiMajor inverseFlattening : Numeral)
      (unit : Option String)
  | ofAxes (properties : Option Properties) (semiMajor semiMinor : Numeral) (unit : Option String)
  | same (e other : Option String)
  | greenwich
  | datum (name : String)
  | datumNames

namespace Procedure

/-- A new ellipsoid. -/
def newEllipsoid (e : Ellipsoid) : Procedure Value :=
  return .ellipsoid (← freshMark) (← freshMark) e

/-- The standard ellipsoid with a code. -/
def standardEllipsoid (code : EllipsoidCode) : Procedure Value := do
  let e ← Ellipsoid.ofCode code
  let mark := .standardEllipsoid (← code.value)
  return .ellipsoid mark mark e

/-- The meridian of Greenwich. -/
def greenwichMeridian : Value := .primeMeridian .greenwich .greenwich

end Procedure

open Procedure in
/-- Carries out a command on ellipsoids. -/
def EllipsoidCommand.execute : EllipsoidCommand → Procedure Value
  | ofCode code => standardEllipsoid code
  | ofNumber code => do standardEllipsoid (.number (← code.value))
  | flattenedSphere properties a f unit => do
    let semiMajor ← a.value
    let inverseFlattening ← f.value
    newEllipsoid (← Ellipsoid.flattenedSphere properties semiMajor inverseFlattening
      (unit.getD Ellipsoid.defaultUnit))
  | ofAxes properties a b unit => do
    let semiMajor ← a.value
    let semiMinor ← b.value
    newEllipsoid (← Ellipsoid.ofAxes properties semiMajor semiMinor
      (unit.getD Ellipsoid.defaultUnit))
  | same e other => do
    let a ← value e
    let b ← value other
    compareValues a b
  | greenwich => return greenwichMeridian
  | datum name => do
    let d ← GeodeticDatum.find name
    newRecord [("datum_name", ← newText d.name), ("ellipsoid_code", ← newInteger d.ellipsoidCode),
      ("ellipsoid", ← standardEllipsoid (.integer d.ellipsoidCode)),
      ("prime_meridian", greenwichMeridian)]
  | datumNames => do newTexts (GeodeticDatum.all.map (·.shortName))

end Georef

import Georef.Session.Value
import Georef.Transform.Comparison

/-!
# Hash keys of values

Values that never change have a hash key, which depends on everything that equality looks at. Values
that may change have none. A linear transform has the key of its matrix, a direction that of its name,
and a value with labelled parts that of the sequence of its parts.
-/

namespace Georef

/-- The key of a direction along a meridian: base and longitude, which is always a number. -/
def MeridianDirection.hashKey (m : MeridianDirection) : HashKey :=
  .tuple [.ofText m.base.name, .ofDouble .noAngle m.meridian]

/-- The key of an axis. -/
def Axis.hashKey (a : Axis) : HashKey :=
  .tuple [.ofText a.name, .ofText a.abbreviation, .ofText a.direction.name, .ofText a.unit]

/-- The key of a coordinate system. -/
def CoordinateSystem.hashKey (cs : CoordinateSystem) : HashKey :=
  .tuple [.ofText cs.name, .tuple (cs.axes.map Axis.hashKey)]

/-- The key of an ellipsoid whose numbers have the given mark. -/
def Ellipsoid.hashKey (mark : Mark) (e : Ellipsoid) : HashKey :=
  .tuple [.ofText? e.name, .ofDouble mark e.shape.semiMajorAxis, .ofDouble mark e.shape.semiMinorAxis,
    .ofDouble mark e.shape.inverseFlattening, .ofBool e.shape.flatteningIsDefinitive,
    .ofText? e.otherName, .ofText? e.identifier, .ofText? e.authority, .ofText e.unit]

/-- The key of a prime meridian. -/
def PrimeMeridian.hashKey (mark : Mark) (p : PrimeMeridian) : HashKey :=
  .tuple [.ofText p.name, .ofDouble mark p.greenwichLongitude, .ofText p.angularUnit,
    .ofText? p.identifier, .ofText? p.authority]

namespace Value

mutual

/-- The key of a value that never changes. -/
def hashKey : Value → Except Failure HashKey
  | null => .ok .none
  | boolean b => .ok (.ofBool b)
  | integer _ n | element _ (.integer n) => .ok (.ofInt n)
  | number mark x | element mark (.number x) => .ok (.ofDouble mark x)
  | element _ (.truth b) => .ok (.ofBool b)
  | text _ s => .ok (.ofText s)
  | direction d => .ok (.ofText d.name)
  | meridian _ m => .ok m.hashKey
  | matrix _ m => .ok m.hashKey
  | transform t => .ok t.transform.hashKey
  | frame mark _ => .ok (.object mark)
  | axis _ a => .ok a.hashKey
  | system _ cs _ => .ok cs.hashKey
  | ellipsoid _ numbersMark e => .ok (e.hashKey numbersMark)
  | primeMeridian mark p => .ok (p.hashKey mark)
  | tuple _ items => return .tuple (← hashKeys items)
  | array _ _ | builder _ | list _ _ | record _ _ => .error .wrongKind

/-- The keys of several values. -/
def hashKeys : List Value → Except Failure (List HashKey)
  | [] => return []
  | v :: rest => return (← hashKey v) :: (← hashKeys rest)

end

end Value

end Georef

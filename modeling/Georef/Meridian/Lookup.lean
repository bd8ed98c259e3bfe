import Georef.Meridian.Parser

/-!
# Axis directions by any name

`Registry.resolve` understands everything that names an axis direction: directions along a meridian,
names and acronyms, and geocentric descriptions. `Direction.angle` is the angle between two directions
that can be compared.
-/

namespace Georef

/-- The axis direction that a text means. A direction along a meridian is tried first, because the
lenient search does not see the decimal point of its longitude; it may become known by this. -/
def Registry.resolve (r : Registry) (name : String) : Except Failure (Direction × Registry) :=
  let text := trimBlanks name.toList
  match MeridianDirection.parse? text with
  | some m => .ok (m.direction r)
  | none =>
    match r.lookup (String.ofList text) with
    | some d => .ok (d, r)
    | none => .error (.unknownDirection (String.ofList text))

/-- Degrees between neighbouring compass directions. -/
def Direction.compassDegrees : Double := (22.5 : Double)

/-- Angle in degrees from `target` to `source`, positive when right-handed, for two compass directions
or two directions along a meridian; not a number for all others. -/
def Direction.angle (source target : Direction) : Double :=
  match source.compassSteps? target with
  | some steps => Double.ofInt steps * compassDegrees
  | none =>
    match MeridianDirection.ofDirection? source, MeridianDirection.ofDirection? target with
    | some s, some t => s.angle t
    | _, _ => Double.quietNaN false

end Georef

import Georef.Direction.Search
import Georef.Failure
import Georef.Text.Capital

/-!
# Directions along a meridian

A direction such as "South along 90°E": a base direction and the longitude of a meridian in degrees,
east of Greenwich positive. It has a canonical text, an angle to other directions with the same base,
and a comparison that follows that angle.
-/

namespace Georef

/-- A direction along a meridian. -/
structure MeridianDirection where
  base : Direction
  /-- Longitude in degrees. -/
  meridian : Double
  /-- The axis direction whose name was read, for a value that comes from one. -/
  origin : Option Direction
deriving DecidableEq

namespace MeridianDirection

/-- The western end of the range of longitudes. -/
def leastLongitude : Double := -(180.0 : Double)

/-- The other end of the range. -/
def greatestLongitude : Double := (180.0 : Double)

/-- The longitude lies in the closed range from -180 to 180. -/
def inRange (meridian : Double) : Bool :=
  leastLongitude ≤ meridian && meridian ≤ greatestLongitude

/-- The direction with the given base along the given meridian, which must be `inRange`. -/
def create (base : Direction) (meridian : Double) : Except Failure MeridianDirection :=
  if inRange meridian then .ok ⟨base, meridian, none⟩ else .error (.meridianRange meridian)

/-- The degrees of the canonical text: a whole number, or the shortest digits that read back
    (`positionalChars`). -/
def degreeChars (m : MeridianDirection) : List Char :=
  let degrees := m.meridian.abs
  if degrees.isInteger then digitChars degrees.truncate.natAbs else degrees.positionalChars

/-- East or West, except on the meridians of Greenwich and of the antipodes. -/
def sideChars (m : MeridianDirection) : List Char :=
  let degrees := m.meridian.abs
  if degrees == 0 || degrees == greatestLongitude then []
  else if m.meridian < (0 : Double) then ['W'] else ['E']

/-- The canonical text, such as `South along 90°E`. -/
def chars (m : MeridianDirection) : List Char :=
  capitalize m.base.name.toList ++ " along ".toList ++ m.degreeChars ++ '°' :: m.sideChars

/-- The canonical text by `chars`. -/
def text (m : MeridianDirection) : String := String.ofList m.chars

/-- The axis direction: the one whose name was read, or the one named by the canonical text, which
    `intern` makes known if it was not. Only the exact name counts, because a lenient search would
    take 1.5°E for 15°E. -/
def direction (m : MeridianDirection) (r : Registry) : Direction × Registry :=
  match m.origin with
  | some d => (d, r)
  | none => r.intern m.text

/-- An angle brought near the range above -180 up to 180 by whole turns. -/
def normalizeAngle (angle : Double) : Double :=
  angle - (360.0 : Double) * Double.ofInt ((angle - (180.0 : Double)) / (360.0 : Double)).ceil

/-- Seen from the south, the angle would be the half turn to the left, which is written as the one to
the right. -/
def turnsHalf (m other : MeridianDirection) : Bool :=
  m.base == other.base && m.base.isOpposite &&
    -normalizeAngle (m.meridian - other.meridian) == leastLongitude

/-- Angle in degrees from `other` to `m`, positive when right-handed; not a number if the bases
    differ. Seen from the south the difference of the meridians changes sign, and a half turn is
    replaced (`turnsHalf`). -/
def angle (m other : MeridianDirection) : Double :=
  if m.base ≠ other.base then Double.quietNaN false
  else
    let turn := normalizeAngle (m.meridian - other.meridian)
    if m.turnsHalf other then greatestLongitude
    else if m.base.isOpposite then -turn
    else turn

/-- Order by base, then by `angle`: the direction with the larger angle comes first. -/
def compare (m other : MeridianDirection) : Ordering :=
  if m.base ≠ other.base then
    if m.base.ordinal < other.base.ordinal then .lt else .gt
  else
    let angle := m.angle other
    if angle < (0 : Double) then .gt
    else if (0 : Double) < angle then .lt
    else .eq

/-- The direction comes before the other one by `compare`. -/
def precedes (m other : MeridianDirection) : Bool := m.compare other == .lt

/-- Same base and numerically equal meridians. -/
def sameAs (m other : MeridianDirection) : Bool :=
  m.base == other.base && m.meridian == other.meridian

end MeridianDirection

end Georef

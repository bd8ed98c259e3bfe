/-!
# Axis directions

A direction is a name with its place in the registry that knows it. The first 32 places belong to
the standard directions, of which sixteen are compass directions, 22.5 degrees apart and clockwise
from north. Most standard directions have an opposite.
-/

namespace Georef

/-- An axis direction: its name and its place among all known directions. -/
structure Direction where
  name : String
  ordinal : Nat
deriving DecidableEq

/-- The names of the standard directions, in order. -/
def standardNames : List String :=
  ["OTHER",
   "NORTH", "NORTH_NORTH_EAST", "NORTH_EAST", "EAST_NORTH_EAST",
   "EAST", "EAST_SOUTH_EAST", "SOUTH_EAST", "SOUTH_SOUTH_EAST",
   "SOUTH", "SOUTH_SOUTH_WEST", "SOUTH_WEST", "WEST_SOUTH_WEST",
   "WEST", "WEST_NORTH_WEST", "NORTH_WEST", "NORTH_NORTH_WEST",
   "UP", "DOWN",
   "GEOCENTRIC_X", "GEOCENTRIC_Y", "GEOCENTRIC_Z",
   "FUTURE", "PAST",
   "COLUMN_POSITIVE", "COLUMN_NEGATIVE", "ROW_POSITIVE", "ROW_NEGATIVE",
   "DISPLAY_RIGHT", "DISPLAY_LEFT", "DISPLAY_UP", "DISPLAY_DOWN"]

/-- How many directions are standard. -/
def standardCount : Nat := 32

namespace Direction

/-- The standard direction at a place; a place beyond the last one has no name. -/
def standard (ordinal : Nat) : Direction := ⟨standardNames.getD ordinal "", ordinal⟩

def north : Direction := standard 1
def east : Direction := standard 5
def south : Direction := standard 9
def west : Direction := standard 13
def geocentricX : Direction := standard 19
def geocentricY : Direction := standard 20
def geocentricZ : Direction := standard 21

/-- Place of the first temporal direction; everything before it is spatial. -/
def futureOrdinal : Nat := 22

/-- Place of the last temporal direction. -/
def pastOrdinal : Nat := 23

/-- Places of the four grid directions. -/
def firstGridOrdinal : Nat := 24

def lastGridOrdinal : Nat := 27

/-- Place of the last display direction, which is the last standard one. -/
def lastDisplayOrdinal : Nat := 31

/-- How many compass directions there are. -/
def compassCount : Nat := 16

/-- Place of the opposite of a standard direction, if it has one. Compass directions are turned by
half a circle; the others stand in neighbouring pairs. -/
def oppositeOrdinal? (ordinal : Nat) : Option Nat :=
  if ordinal = 0 then some 0
  else if ordinal ≤ compassCount then some ((ordinal + 7) % compassCount + 1)
  else if ordinal = 17 then some 18
  else if ordinal = 18 then some 17
  else if futureOrdinal ≤ ordinal ∧ ordinal ≤ lastDisplayOrdinal then
    some (if ordinal % 2 = 0 then ordinal + 1 else ordinal - 1)
  else none

/-- The opposite direction by `oppositeOrdinal?`, or the direction itself if it has none. -/
def opposite (d : Direction) : Direction :=
  match oppositeOrdinal? d.ordinal with
  | some ordinal => standard ordinal
  | none => d

/-- The member of a pair of opposites that comes first. -/
def absolute (d : Direction) : Direction :=
  if d.opposite.ordinal < d.ordinal then d.opposite else d

/-- The direction is the second member of a pair of opposites, so `absolute` is the other one. -/
def isOpposite (d : Direction) : Bool := d.opposite.ordinal < d.ordinal

/-- The direction runs along the rows or columns of a grid. -/
def isGrid (d : Direction) : Bool :=
  firstGridOrdinal ≤ d.ordinal && d.ordinal ≤ lastGridOrdinal

/-- The direction is spatial or not a standard one. Temporal directions never are; grid and display
directions are if image axes count. -/
def isSpatialOrCustom (d : Direction) (imageAxes : Bool) : Bool :=
  d.ordinal < futureOrdinal ||
    (if imageAxes then pastOrdinal else lastDisplayOrdinal) < d.ordinal

/-- Place on the compass, counted clockwise from north. -/
def compassIndex? (d : Direction) : Option Nat :=
  if 1 ≤ d.ordinal ∧ d.ordinal ≤ compassCount then some (d.ordinal - 1) else none

/-- Steps of 22.5 degrees from `target` to `source`, the short way round: from -8 to 8. -/
def compassSteps? (source target : Direction) : Option Int :=
  match source.compassIndex?, target.compassIndex? with
  | some s, some t =>
    let steps : Int := (s : Int) - t
    some (if steps < -8 then steps + compassCount else if 8 < steps then steps - compassCount else steps)
  | _, _ => none

end Direction

end Georef

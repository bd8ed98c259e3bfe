import Georef.Direction.Basic
import Georef.Failure

/-!
# Coordinate systems

A coordinate system is a named, non-empty sequence of axes. The direction of an axis matters most: an
axis is colinear with a direction if it has that direction or the opposite one.
-/

namespace Georef

/-- One axis of a coordinate system. -/
structure Axis where
  name : String
  /-- A short label. -/
  abbreviation : String
  direction : Direction
  /-- The unit symbol of the values on the axis. -/
  unit : String
deriving DecidableEq

namespace Axis

/-- The unit of an axis that is given without one. -/
def defaultUnit : String := "m"

/-- The axis named after its direction. -/
def ofDirection (d : Direction) : Axis :=
  ⟨d.name, String.ofList (d.name.toList.take 1), d, defaultUnit⟩

end Axis

/-- A named sequence of axes. -/
structure CoordinateSystem where
  name : String
  axes : List Axis
  axes_ne_nil : axes ≠ []
deriving DecidableEq

namespace CoordinateSystem

/-- The coordinate system with the given axes, of which there must be one (`noAxes`). -/
def create (name : String) (axes : List Axis) : Except Failure CoordinateSystem :=
  if h : axes = [] then .error .noAxes else .ok ⟨name, axes, h⟩

/-- How many axes there are. -/
def dimension (cs : CoordinateSystem) : Nat := cs.axes.length

/-- The axis at a place; a negative place counts from the end. -/
def axis (cs : CoordinateSystem) (place : Int) : Except Failure Axis :=
  let index := if place < 0 then place + cs.dimension else place
  if index < 0 then .error .positionOutOfRange
  else
    match cs.axes[index.toNat]? with
    | some axis => .ok axis
    | none => .error .positionOutOfRange

/-- The search for a direction along axes, the first of which stands at the given place. An axis with exactly the
direction ends it; the place of the first axis with the opposite direction is kept until then. -/
def searchAxes (d : Direction) (place : Nat) (fallback : Option Nat) : List Axis → Option Nat
  | [] => fallback
  | axis :: axes =>
    if axis.direction = d then some place
    else if fallback = none ∧ axis.direction = d.opposite then searchAxes d (place + 1) (some place) axes
    else searchAxes d (place + 1) fallback axes

/-- The place of the first axis colinear with a direction, by `searchAxes`. An axis with exactly the
    direction is preferred, even if one with the opposite direction comes first. -/
def indexOf? (cs : CoordinateSystem) (d : Direction) : Option Nat := searchAxes d 0 none cs.axes

end CoordinateSystem

end Georef

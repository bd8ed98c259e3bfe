import Georef.CoordinateSystem.Basic
import Georef.Matrix.Basic

/-!
# Exchanging axes

`CoordinateSystem.swapAxes` is the affine matrix that takes coordinates from one order and orientation
of axes to another.
-/

namespace Georef

namespace CoordinateSystem

variable {α : Type} [Zero α] [One α] [Neg α]

/-- The factor from the source axis at a place to an axis with the given direction: minus one if the
directions differ. -/
def orientation (source : CoordinateSystem) (i : Nat) (d : Direction) : α :=
  if source.axes[i]?.map Axis.direction = some d then 1 else -1

/-- The source axis by `indexOf?` and the factor by `orientation` for one target axis. -/
def columnFor (source : CoordinateSystem) (target : Axis) : Except Failure (Nat × α) :=
  match source.indexOf? target.direction with
  | some i => .ok (i, source.orientation i target.direction)
  | none => .error (.noColinearAxis source.name target.direction.name)

/-- The homogeneous matrix from coordinates of `source` to coordinates of `target`. Every target
    axis must have a colinear axis in the source (`noColinearAxis`); an opposite direction changes
    the sign. -/
def swapAxes (source target : CoordinateSystem) : Except Failure (Matrix α) := do
  let columns ← target.axes.mapM source.columnFor
  return .ofFn (target.dimension + 1) (source.dimension + 1) fun i j =>
    match columns[i]? with
    | some (column, factor) => if j = column then factor else 0
    | none => if j = source.dimension then 1 else 0

end CoordinateSystem

end Georef

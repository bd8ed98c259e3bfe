import Georef.Action
import Georef.Tensor

/-!
# The arrays of a call

Images are written into an array that is there already, and this may be the very array that holds the
points. So what writes images works on two arrays in memory, of which the second may be missing. If it
fails half-way, whatever it has written stays written.
-/

namespace Georef

/-- Where the images of points are put. -/
inductive Destination (α : Type) where
  /-- Into a new array. -/
  | fresh
  /-- Over the points themselves. -/
  | inPlace
  /-- Into the given array. -/
  | array (t : Tensor α)
  /-- Into something that is not an array. -/
  | notArray

/-- The arrays of points and of images. There is no destination of its own if the points are
overwritten. -/
structure Arrays (α : Type) where
  points : Tensor α
  destination : Option (Tensor α)

namespace Arrays

variable {α : Type}

/-- The array that the images are put in: the `destination`, or else the points themselves. -/
def target (a : Arrays α) : Tensor α := a.destination.getD a.points

/-- The arrays after the `target` was changed. -/
def withTarget (a : Arrays α) (t : Tensor α) : Arrays α :=
  match a.destination with
  | some _ => { a with destination := some t }
  | none => { a with points := t }

/-- How many points there are. -/
def count (a : Arrays α) : Nat := a.points.rowCount

/-- A copy of the ordinates of all points at place `j`. -/
def column [Zero α] (a : Arrays α) (j : Nat) : List α :=
  a.points.rowList.map fun p => p.getD j 0

/-- Writes the images of all points into the `target`. -/
def putRows (a : Arrays α) (rows : List (List α)) : Arrays α :=
  a.withTarget (a.target.putRows rows)

/-- Writes the image of point `i` into the `target`. -/
def putRow (a : Arrays α) (i : Nat) (image : List α) : Arrays α :=
  a.withTarget (a.target.putRow i image)

/-- Writes the ordinates of all images at place `j` into the `target`. -/
def putColumn (a : Arrays α) (j : Nat) (xs : List α) : Arrays α :=
  a.withTarget (a.target.putColumn j xs)

end Arrays

/-- Something that is done to the arrays of a call and that may fail. A failure undoes nothing. -/
abbrev Writing (α β : Type) := Action (Arrays α) β

/-- The result of transforming an array of points. -/
structure Images (α : Type) where
  /-- The array that holds the images. -/
  result : Tensor α
  /-- The array of the points afterwards. -/
  points : Tensor α

/-- What the caller gets of the arrays in which images were written by `x`. -/
def Writing.images {α : Type} (x : Writing α Unit) (a : Arrays α) : Except Failure (Images α) :=
  match x.call a with
  | (.ok _, b) => .ok ⟨b.target, b.points⟩
  | (.error f, _) => .error f

/-- How many points of the given dimension an array of this shape holds, if it holds such points. -/
def pointCount? (dimension : Int) : List Nat → Option Nat
  | [d] => if (d : Int) = dimension then some 1 else none
  | [n, d] => if (d : Int) = dimension then some n else none
  | _ => none

/-- How a transform writes images: the dimensions that arrays are checked for, and what is done with
arrays that have passed. -/
structure ImageWriter (α : Type) where
  source : Int
  target : Int
  fill : Writing α Unit

namespace ImageWriter

variable {α : Type}

/-- The number of points in an array, which must hold points of the source (`pointsShape`). -/
def countPoints (w : ImageWriter α) (points : Tensor α) : Except Failure Nat :=
  match pointCount? w.source points.shape with
  | some count => .ok count
  | none => .error (.pointsShape w.source points.shape)

/-- Writes images into an array that must have room for exactly the images (`destinationShape`).
    Both shapes are checked before `fill` writes anything. -/
def write (w : ImageWriter α) : Writing α Unit := do
  let a ← get
  let count ← w.countPoints a.points
  if pointCount? w.target a.target.shape = some count then w.fill
  else throw (.destinationShape count w.target a.target.shape)

/-- The images of an array of points, put where they are wanted. A new array is made by `blank`, so
    that its shape needs no check. -/
def transform [Zero α] (w : ImageWriter α) (points : Tensor α) :
    Destination α → Except Failure (Images α)
  | .fresh => do
    let _ ← w.countPoints points
    if w.target < 0 then throw .unusable
    w.fill.images ⟨points, some (.blank (points.shape.dropLast ++ [w.target.toNat]))⟩
  | .inPlace => w.write.images ⟨points, none⟩
  | .array d => w.write.images ⟨points, some d⟩
  | .notArray => do
    let _ ← w.countPoints points
    throw .destinationNotArray

end ImageWriter

end Georef

import Georef.Transform.Arrays
import Georef.Transform.Basic

/-!
# Transforming arrays of points

A point is an array with one axis; an array with two axes holds one point per row. Every form of
transform has its own way to write images: column by column, row by row, or all at once from a copy. The
images may be put over the points, so no form reads an ordinate after it was overwritten. A chain
transforms all points by its first step, then all images by the second, and so on; what is in between
is kept in new arrays.
-/

namespace Georef

variable {α : Type}

/-! ## Writing images -/

namespace LinearTransform

variable [Zero α] [Add α] [Mul α] [Div α]

/-- Writes the images of all points. -/
def fill : LinearTransform α → Arrays α → Arrays α
  | identity _, a => if a.destination.isNone then a else a.putRows a.points.rowList
  | scaleOffset scale offset, a =>
    a.putColumn 0 ((a.column 0).map fun x => x * scale + offset)
  | affine m00 m10 m01 m11 m02 m12, a =>
    -- Both columns are copied before the first of them is overwritten.
    let xs := a.column 0
    let ys := a.column 1
    (a.putColumn 0 (List.zipWith (fun x y => m00 * x + m01 * y + m02) xs ys)).putColumn 1
      (List.zipWith (fun x y => m10 * x + m11 * y + m12) xs ys)
  | selection source indices, a =>
    a.putRows (a.points.rowList.map fun p => indices.map fun i => p.getD (ordinatePlace source i) 0)
  | projective _ m, a =>
    -- An image is complete before its first ordinate is written.
    (List.range a.count).foldl (fun a i => a.putRow i (project m (a.points.row i))) a

/-- The way in which a linear transform writes images: by `fill`. -/
def writer (t : LinearTransform α) : ImageWriter α where
  source := t.source
  target := t.target
  fill := modify t.fill

end LinearTransform

namespace Mapping

/-- The way in which a managed mapping writes images: all at once. -/
def writer (m : Mapping α) : ImageWriter α where
  source := m.source
  target := m.target
  fill := modify fun a => a.putRows (a.points.rowList.map m.map)

/-- The mapping is one of the line. -/
def isUnivariate (m : Mapping α) : Bool := m.source == 1 && m.target == 1

/-- The images under a foreign mapping. One that `isUnivariate` takes each number of an array by
    itself and does not look at the shape; for any other one the rows of the array are the points. -/
def mapArray [Zero α] (m : Mapping α) (t : Tensor α) : Tensor α :=
  if m.isUnivariate then t.map fun x => (m.map [x]).headD 0
  else .ofRowList (t.shape.dropLast ++ [m.target.toNat]) (t.rowList.map m.map)

/-- The derivative of a foreign mapping as an array. One that `isUnivariate` takes the first number,
    or the first part, of the array for the point. -/
def slopes [Zero α] (m : Mapping α) (t : Tensor α) : Except Failure (Tensor α) :=
  if m.isUnivariate then
    match t.shape with
    | [] | 0 :: _ => .error .positionOutOfRange
    | _ :: rest =>
      let first := t.elements.toArray
      .ok (.generate (1 :: 1 :: rest) fun k => (m.jacobian [first.getD k 0]).entry 0 0)
  else .ok (m.jacobian t.elements).toTensor

/-- Writes the images under a foreign mapping by `broadcast`: they are repeated along axes of the
    destination that they lack. -/
def write [Zero α] (m : Mapping α) : Writing α Unit := do
  let a ← get
  let filled ← (m.mapArray a.points).broadcast a.target.shape
  set (a.withTarget filled)

/-- The images under a foreign mapping, put where they are wanted. -/
def transform [Zero α] (m : Mapping α) (points : Tensor α) :
    Destination α → Except Failure (Images α)
  | .fresh => .ok ⟨m.mapArray points, points⟩
  | .inPlace => m.write.images ⟨points, none⟩
  | .array d => m.write.images ⟨points, some d⟩
  | .notArray => .error .wrongKind

end Mapping

variable [Zero α] [One α] [Add α] [Mul α] [Sub α] [Div α]

/-- The images of an array of points under a single step. A foreign mapping gets the arrays as they
are; the shapes are its own business. -/
def Step.transform : Step α → Tensor α → Destination α → Except Failure (Images α)
  | linear t => t.writer.transform
  | managed m => m.writer.transform
  | foreign m => m.transform

namespace Transform

/-! ## Images -/

/-- Writes the images under a chain of steps. Each step puts its images into a new array; only the
    last ones are written to the destination, row by row. -/
def fillAlong (steps : List (Step α)) : Writing α Unit := do
  let a ← get
  -- What is in between never touches the two arrays of the call.
  let images ← steps.foldlM
    (fun current s => return (← s.transform current .fresh).result) a.points.asTable
  let filled ← images.broadcast a.target.asTable.shape
  set (a.putRows filled.rowList)

/-- The way in which a transform writes images; a foreign mapping keeps its own to itself. -/
def writer? : Transform α → Option (ImageWriter α)
  | step (.linear t) => some t.writer
  | step (.managed m) => some m.writer
  | step (.foreign _) => none
  | chain steps => some ⟨(chain steps).source, (chain steps).target, fillAlong steps⟩

/-- The images of an array of points, put where they are wanted. -/
def transform (t : Transform α) (points : Tensor α) (destination : Destination α) :
    Except Failure (Images α) :=
  match t with
  | step s => s.transform points destination
  | chain steps =>
    ImageWriter.transform ⟨(chain steps).source, (chain steps).target, fillAlong steps⟩
      points destination

/-! ## Derivatives -/

/-- The result of transforming a point together with taking the derivative there. -/
structure TangentImage (α : Type) where
  derivative : Matrix α
  /-- The array that holds the image. -/
  image : Tensor α
  /-- The array of the point afterwards. -/
  point : Tensor α

end Transform

/-- The array is a single point of the given dimension (`pointShape`). -/
def checkPoint (dimension : Int) (point : Tensor α) : Except Failure Unit :=
  match point.shape with
  | [d] => if (d : Int) = dimension then .ok () else .error (.pointShape dimension point.shape)
  | _ => .error (.pointShape dimension point.shape)

namespace Step

/-- The matrix of partial derivatives at a point. A foreign mapping does not look at the shape, and
    what it gives is checked by `operand`. -/
def derivative : Step α → Tensor α → Except Failure (Matrix α)
  | foreign m, point => do Matrix.operand (← m.slopes point)
  | s, point => do
    checkPoint s.source point
    return s.jacobian point.elements

/-- The image of a point and the derivative there, which is taken first. -/
def transformAndDerivative (s : Step α) (point : Tensor α) :
    Except Failure (Tensor α × Matrix α) := do
  let derivative ← s.derivative point
  return ((← s.transform point .fresh).result, derivative)

end Step

namespace Transform

/-- One step of a walk along a chain: the derivative of the step is taken at the point reached so
    far and put in front of the product by `arrayProduct`. -/
def stepForward (reached : Tensor α × Matrix α) (s : Step α) : Except Failure (Tensor α × Matrix α) := do
  let (image, derivative) ← s.transformAndDerivative reached.1
  return (image, ← derivative.arrayProduct reached.2)

/-- The image of a point and the matrix of partial derivatives there. A chain is walked along once
    for both, by `stepForward`. -/
def transformAndDerivative (t : Transform α) (point : Tensor α) :
    Except Failure (Tensor α × Matrix α) := do
  match t with
  | step s => s.transformAndDerivative point
  | chain steps =>
    let source := (chain steps).source
    checkPoint source point
    steps.foldlM stepForward (point, .eye source.toNat source.toNat)

/-- The matrix of partial derivatives at a point; for a chain that of `transformAndDerivative`. -/
def derivative (t : Transform α) (point : Tensor α) : Except Failure (Matrix α) := do
  match t with
  | step s => s.derivative point
  | chain steps => return (← (chain steps).transformAndDerivative point).2

/-- The derivative at a point, whose image is written to the destination. A foreign mapping is asked
    for the derivative first; an image fills whatever destination it can be repeated in
    (`broadcast`). -/
def writeWithDerivative (t : Transform α) : Writing α (Matrix α) := do
  let a ← get
  match t with
  | step (.foreign m) =>
    let derivative ← Matrix.ofArray (← m.slopes a.points)
    m.write
    return derivative
  | t =>
    -- Nothing is written before both are known.
    let (image, derivative) ← t.transformAndDerivative a.points
    let filled ← image.broadcast a.target.shape
    set (a.withTarget filled)
    return derivative

/-- The derivative at a point, and the image of the point put where it is wanted. -/
def derivativeAndTransform (t : Transform α) (point : Tensor α) (destination : Destination α) :
    Except Failure (TangentImage α) :=
  let written (a : Arrays α) : Except Failure (TangentImage α) :=
    match t.writeWithDerivative.call a with
    | (.ok derivative, b) => .ok ⟨derivative, b.target, b.points⟩
    | (.error f, _) => .error f
  match destination with
  | .inPlace => written ⟨point, none⟩
  | .array d => written ⟨point, some d⟩
  | destination => do
    let (image, derivative) ← match t with
      | step (.foreign m) => do
        let derivative ← Matrix.ofArray (← m.slopes point)
        pure (m.mapArray point, derivative)
      | t => t.transformAndDerivative point
    match destination with
    | .notArray => throw .wrongKind
    | _ => return ⟨derivative, image, point⟩

end Transform

end Georef

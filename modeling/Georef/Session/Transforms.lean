import Georef.Session.Argument
import Georef.Session.Equality
import Georef.Session.HashKey
import Georef.Session.Inverses
import Georef.Session.Systems
import Georef.Session.Text
import Georef.Transform.Squaring

/-!
# Transforms in a session

Commands that make, join, apply, differentiate and invert transforms. A projective transform keeps the
matrix that it is made of; all others make a new matrix whenever they are asked for one.
-/

namespace Georef

/-- A transform to be made in exactly the given form. -/
inductive TransformForm where
  | scaleOffset (scale offset : Numeral)
  /-- The six coefficients in the order `m00`, `m10`, `m01`, `m11`, `m02`, `m12`. -/
  | affine (coefficients : List Numeral)
  | selection (source : Int) (indices : List Int)
  | projective (planar : Bool) (matrix : Operand)

/-- A command on transforms. Variables are given by their names. -/
inductive TransformCommand where
  | identity (dimension : Int)
  | ofMatrix (matrix : Operand)
  /-- The transform of the line with the given scale; the offset must be there too. -/
  | ofScale (scale : Numeral) (offset : Option Numeral)
  | ofForm (form : TransformForm)
  | selectionOf (matrix : Option String)
  | foreignSquaring
  | managedSquaring
  | frame (array : Nested Numeral)
  | concatenate (first second third : Option String)
  | reveal (t : Option String)
  | steps (t : Option String)
  /-- One of the steps; a negative place counts from the end. -/
  | step (t : Option String) (place : Int)
  | matrix (t : Option String)
  | isIdentity (t : Option String)
  | transform (t : Option String) (points : PointsForm) (destination : DestinationForm)
  | derivative (t : Option String) (point : PointsForm)
  | transformAndDerivative (t : Option String) (point : PointsForm)
  | derivativeAndTransform (t : Option String) (point : PointsForm)
      (destination : DestinationForm)
  | inverse (t : Option String)
  | same (t other : Option String)
  | sameHash (t other : Option String)
  | sameObject (t other : Option String)
  | text (t : Option String)
  | transformValue (t : Option String) (x : Numeral)
  | derivativeValue (t : Option String) (x : Numeral)
  | transformXY (t : Option String) (x y : Numeral)
  | derivativeXY (t : Option String) (x y : Numeral)
  | determinant (t : Option String)

namespace Procedure

/-! ## Kinds of transforms -/

/-- The transform that a value is. -/
def asTransform (v : Value) : Procedure TransformObject :=
  match v with
  | .transform t => return t
  | _ => throw .unsupported

/-- A transform that offers more than images and derivatives by `isManaged`. -/
def asManaged (v : Value) : Procedure (Transform Double) := do
  let t := (← asTransform v).transform
  if t.isManaged then return t else throw .unsupported

/-- A transform of the line by `isUnivariate`. -/
def asUnivariate (v : Value) : Procedure (Transform Double) := do
  let t := (← asTransform v).transform
  if t.isUnivariate then return t else throw .unsupported

/-- A transform of the plane by `isPlanar`. -/
def asPlanar (v : Value) : Procedure (Transform Double) := do
  let t := (← asTransform v).transform
  if t.isPlanar then return t else throw .unsupported

/-! ## Making transforms -/

/-- A matrix with the mark of the object it comes from, or with a new one. -/
structure MarkedMatrix where
  matrix : Matrix Double
  mark : Mark

/-- A new object for a linear transform that is made of a matrix. -/
def newLinearOf (t : LinearTransform Double) (matrixMark : Mark) : Procedure Value :=
  return .transform (.step ⟨.linear t, ← freshMark, matrixMark⟩)

/-- A new object for a linear transform, whose matrix has a `freshMark`. -/
def newLinear (t : LinearTransform Double) : Procedure Value := do newLinearOf t (← freshMark)

/-- The matrix that an array stands for. -/
def matrixOfArray (v : Value) : Procedure MarkedMatrix := do
  return ⟨← Matrix.ofArray (← v.toTensor), ← freshMark⟩

/-- The matrix that a linear transform is made of. Numbers count as scales without offset. -/
def homogeneousMatrix (v : Value) : Procedure MarkedMatrix := do
  match v with
  | .matrix mark m => return ⟨m, mark⟩
  | .builder _ => return ⟨← matrix v, ← freshMark⟩
  | .boolean _ | .integer _ _ | .number _ _ | .element _ (.number _) => throw .offsetMissing
  | v => matrixOfArray v

/-- A transform of exactly the given form. -/
def formTransform (form : TransformForm) : Procedure Value := do
  match form with
  | .scaleOffset scale offset => do
    let scale ← scale.value
    newLinear (.scaleOffset scale (← offset.value))
  | .affine coefficients =>
    match ← coefficients.mapM fun x => (x.value : Procedure Double) with
    | [m00, m10, m01, m11, m02, m12] => newLinear (.affine m00 m10 m01 m11 m02 m12)
    | _ => throw .wrongKind
  | .selection source indices => newLinear (← LinearTransform.select source indices)
  | .projective planar operand =>
    let given ← match ← operandValue operand with
      | .matrix mark m => pure ⟨m, mark⟩
      | v => matrixOfArray v
    newLinearOf (.projective planar given.matrix) given.mark

/-- A new object for a mapping that is told apart by its mark. -/
def newMapping (step : Mark → Step Double) : Procedure Value := do
  let mark ← freshMark
  return .transform (.step ⟨step mark, mark, mark⟩)

/-- The transform that does `a` first and `b` second, made by `concatenate`. Its steps are those of
    the two objects, with their marks. -/
def join (a b : TransformObject) : Procedure TransformObject := do
  let joined ← a.transform.concatenate b.transform
  -- The steps of the new chain are those of `a` and `b` in order, so each keeps its object.
  let objects := List.zipWith (fun x s => { x with step := s }) (a.steps ++ b.steps) joined.steps
  return .chain (← freshMark) objects

/-! ## Looking into transforms -/

/-- The elementary steps of a value. No value has no steps, and what is no chain is its own step. -/
def stepsOf (v : Value) : List Value :=
  match v with
  | .null => []
  | .transform (.chain _ steps) => steps.map fun s => .transform (.step s)
  | v => [v]

/-- The homogeneous matrix of a value, if it has one. Foreign objects with an array of two axes count
as having one. -/
def matrixOf (v : Value) : Procedure Value := do
  match v with
  | .transform (.step ⟨.linear (.projective _ m), _, matrixMark⟩) => return .matrix matrixMark m
  | .transform t =>
    match ← t.transform.matrix? with
    | some m => newMatrix m
    | none => return .null
  | .frame _ array =>
    if array.shape.length = 2 then newMatrix (← Matrix.ofArray array) else return .null
  | _ => return .null

/-- A matrix or a transform leaves everything where it is, by `isIdentity`. -/
def isIdentityValue (v : Value) : Procedure Bool := do
  match v with
  | .transform _ => return (← asManaged v).isIdentity
  | v => return (← matrix v).isIdentity

/-! ## Points -/

/-- The derivative of a foreign mapping at a point that is written down. A list is taken as it is: its
first item has to be a number, and the others do not matter. -/
def foreignDerivative (m : Mapping Double) (point : PointsForm) : Procedure (Tensor Double) := do
  match point with
  | .empty shape => m.slopes (← readEmpty shape)
  | .array a =>
    match ← (a.mapM Numeral.value : Except Failure (Nested Double)) with
    | .scalar _ => throw .wrongKind
    | .list [] => throw .positionOutOfRange
    | .list (.scalar x :: _) => m.slopes (.ofList [x])
    | .list (.list _ :: _) => throw .wrongKind

/-- An element of an array, which must be there. -/
def elementAt (t : Tensor Double) (i : Nat) : Procedure Value :=
  match t.elements[i]? with
  | some x => newNumber x
  | none => throw .positionOutOfRange

/-- An array that was given as a destination and the array of the points, which for `inPlace` are
    one and the same object. -/
def newDestination (destination : DestinationForm) (result points : Tensor Double) :
    Procedure (Value × Value) := do
  let result ← newArray result
  match destination with
  | .inPlace => return (result, result)
  | _ => return (result, ← newArray points)

end Procedure

open Procedure in
/-- Carries out a command on transforms. -/
def TransformCommand.execute : TransformCommand → Procedure Value
  | identity dimension => do newLinear (← LinearTransform.ofDimension dimension)
  | ofMatrix operand => do
    let given ← homogeneousMatrix (← operandValue operand)
    newLinearOf (← LinearTransform.ofMatrix given.matrix) given.mark
  | ofScale scale (some offset) => do
    let scale ← scale.value
    newLinear (LinearTransform.ofScale scale (← offset.value))
  | ofScale scale none => do
    let _ ← scale.value
    throw .offsetMissing
  | ofForm form => formTransform form
  | selectionOf m => do
    match ← LinearTransform.ofSelectionMatrix (← Procedure.matrix (← value m)) with
    | some t => newLinear t
    | none => return .null
  | foreignSquaring => newMapping fun mark => .foreign (.squaring "Square" mark)
  | managedSquaring => newMapping fun mark => .managed (.squaring "SquareTransform" mark)
  | frame array => do
    let t ← array.read
    return .frame (← freshMark) t
  | concatenate first second third => do
    let a ← value first
    let b ← value second
    let c ← value third
    match a, b with
    | .null, _ | _, .null => throw .missingTransform
    | a, b =>
      let joined ← join (← asTransform a) (← asTransform b)
      match c with
      | .null => return .transform joined
      | c => return .transform (← join joined (← asTransform c))
  | reveal t => value t
  | steps t => do newList (stepsOf (← value t))
  | step t place => do itemAt (stepsOf (← value t)) place
  | matrix t => do matrixOf (← value t)
  | isIdentity t => do return .boolean (← isIdentityValue (← value t))
  | transform t points .fresh => do
    let v ← value t
    let array ← points.read
    newComputed (.numbers (← (← asTransform v).transform.transform array .fresh).result)
  | transform t points destination => do
    let v ← value t
    let array ← points.read
    let place ← destination.read
    let images ← (← asTransform v).transform.transform array place
    let (result, src) ← newDestination destination images.result images.points
    newRecord [("result", result), ("same", .boolean true), ("src", src)]
  | derivative t point => do
    match (← asTransform (← value t)).transform with
    | .step (.foreign m) => newArray (← foreignDerivative m point)
    | managed => newMatrix (← managed.derivative (← point.read))
  | transformAndDerivative t point => do
    let transform ← asManaged (← value t)
    let (image, slope) ← transform.transformAndDerivative (← point.read)
    newRecord [("point", ← newArray image), ("derivative", ← newMatrix slope)]
  | derivativeAndTransform t point destination => do
    let v ← value t
    let p ← point.read
    let place ← destination.read
    let tangent ← (← asTransform v).transform.derivativeAndTransform p place
    let derivative ← newMatrix tangent.derivative
    match destination with
    | .fresh => newRecord [("derivative", derivative), ("point", ← newArray tangent.image)]
    | _ =>
      let (image, src) ← newDestination destination tangent.image tangent.point
      newRecord [("derivative", derivative), ("point", image), ("same", .boolean true), ("src", src)]
  | inverse t => do invertValue (← value t)
  | same t other => do
    let a ← value t
    let b ← value other
    compareValues a b
  | sameHash t other => do
    let a ← value t
    let b ← value other
    return .boolean ((← a.hashKey) == (← b.hashKey))
  | sameObject t other => do
    let a ← value t
    let b ← value other
    return .boolean (a.isSame b)
  | text t => do
    match ← value t with
    | .boolean b => return .text (.truthText b) (truthText b)
    | v => newText ((← get).fullText v)
  | transformValue t x => do
    let univariate ← asUnivariate (← value t)
    elementAt (← univariate.transform (.ofList [← x.value]) .fresh).result 0
  | derivativeValue t x => do
    let univariate ← asUnivariate (← value t)
    newNumber (← (← univariate.derivative (.ofList [← x.value])).element 0 0)
  | transformXY t x y => do
    let planar ← asPlanar (← value t)
    let image := (← planar.transform (.ofList [← x.value, ← y.value]) .fresh).result
    newTuple [← elementAt image 0, ← elementAt image 1]
  | derivativeXY t x y => do
    let planar ← asPlanar (← value t)
    newMatrix (← planar.derivative (.ofList [← x.value, ← y.value]))
  | determinant t => do
    match (← asTransform (← value t)).transform with
    | .step (.linear linear) =>
      match linear.determinant? with
      | some x => newNumber x
      | none => throw .unsupported
    | _ => throw .unsupported

end Georef

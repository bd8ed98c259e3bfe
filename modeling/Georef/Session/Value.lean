import Georef.CoordinateSystem.Basic
import Georef.Ellipsoid.Standard
import Georef.Meridian.Basic
import Georef.Tensor.ScalarArray
import Georef.Text.Number
import Georef.Transform.Points

/-!
# Values of a session

What an operation of a session answers and what a variable holds. Matrices that are still being built
are held by reference: their elements are kept in the session under an address. All other objects
carry a mark, so that objects which look the same can be told apart; so do the steps of a transform,
the matrix of a projective step and the axes of a coordinate system.

Truth values, directions and the absence of a value exist once each and need no mark.
-/

namespace Georef

/-- A step of a transform as an object. -/
structure StepObject where
  step : Step Double
  mark : Mark
  /-- The mark of the matrix that a projective step is made of; other steps make a new matrix for each
  one who asks. -/
  matrixMark : Mark

/-- A transform as an object. -/
inductive TransformObject where
  | step (s : StepObject)
  | chain (mark : Mark) (steps : List StepObject)

namespace TransformObject

/-- What tells the transform apart from others. -/
def mark : TransformObject → Mark
  | step s => s.mark
  | chain mark _ => mark

/-- The elementary steps. -/
def steps : TransformObject → List StepObject
  | step s => [s]
  | chain _ steps => steps

/-- The transform without its marks. -/
def transform : TransformObject → Transform Double
  | step s => .step s.step
  | chain _ steps => .chain (steps.map (·.step))

/-- The steps of the transform are those of the object. -/
@[simp] theorem steps_transform (t : TransformObject) : t.transform.steps = t.steps.map (·.step) := by
  cases t <;> rfl

end TransformObject

/-- A value of a session. -/
inductive Value where
  | null
  | boolean (b : Bool)
  | integer (mark : Mark) (n : Int)
  | number (mark : Mark) (x : Double)
  /-- A scalar that was an array without axes and still tells so. -/
  | element (mark : Mark) (x : Scalar)
  | text (mark : Mark) (s : String)
  | direction (d : Direction)
  | meridian (mark : Mark) (m : MeridianDirection)
  | array (mark : Mark) (a : ScalarArray)
  /-- A published matrix, which never changes. -/
  | matrix (mark : Mark) (m : Matrix Double)
  /-- A matrix that is being built, by its address. -/
  | builder (address : Nat)
  | transform (t : TransformObject)
  /-- A foreign object that has nothing but an array of its own. -/
  | frame (mark : Mark) (array : Tensor Double)
  | axis (mark : Mark) (a : Axis)
  | system (mark : Mark) (cs : CoordinateSystem) (axisMarks : List Mark)
  /-- The numbers of an ellipsoid are objects with a mark of their own, which copies share. -/
  | ellipsoid (mark numbersMark : Mark) (e : Ellipsoid)
  | primeMeridian (mark : Mark) (p : PrimeMeridian)
  | list (mark : Mark) (items : List Value)
  /-- A sequence that never changes. -/
  | tuple (mark : Mark) (items : List Value)
  /-- Values by their keys. -/
  | record (mark : Mark) (fields : List (String × Value))

namespace Value

/-- The mark of a value that has one. -/
def mark? : Value → Option Mark
  | null | boolean _ | direction _ | builder _ => none
  | transform t => some t.mark
  | integer mark _ | number mark _ | element mark _ | text mark _ | meridian mark _ | array mark _
  | matrix mark _ | frame mark _ | axis mark _ | system mark _ _ | ellipsoid mark _ _
  | primeMeridian mark _ | list mark _ | tuple mark _ | record mark _ => some mark

/-- Small integers exist once each, like truth values. -/
def isSmall (n : Int) : Bool := -5 ≤ n && n ≤ 256

/-- The two values are one object. -/
def isSame (a b : Value) : Bool :=
  match a, b with
  | null, null => true
  | boolean a, boolean b => a == b
  | direction a, direction b => a == b
  | builder a, builder b => a == b
  | integer markA a, integer markB b => markA == markB || (a == b && isSmall a)
  | a, b =>
    match a.mark?, b.mark? with
    | some a, some b => a == b
    | _, _ => false

/-- The number that a value is, if it is one; truth values count as zero and one. -/
def number? : Value → Option Double
  | boolean b => some (if b then 1 else 0)
  | integer _ n => some (Double.ofInt n)
  | number _ x => some x
  | element _ x => some x.toDouble
  | _ => none

/-- A direction as a value. -/
def ofDirection? : Option Direction → Value
  | some d => direction d
  | none => null

mutual

/-- The array of numbers that a value stands for where numbers are asked for. Nothing at all stands for
a number that is none, a text for the number that it reads as, and sequences are stacked. -/
def toTensor : Value → Except Failure (Tensor Double)
  | null => .ok (.scalar (Double.quietNaN false))
  | boolean b => .ok (.scalar (if b then 1 else 0))
  | integer _ n => .ok (.scalar (Double.ofInt n))
  | number _ x => .ok (.scalar x)
  | element _ x => .ok (.scalar x.toDouble)
  | array _ a => .ok a.toNumbers
  | text _ s =>
    match readDouble? s.toList with
    | some x => .ok (.scalar x)
    | none => .error .unusable
  | list _ items | tuple _ items => do
    match Tensor.stack (← toTensors items) with
    | some t => if t.shape.length ≤ Tensor.greatestAxisCount then .ok t else .error .unusable
    | none => .error .unusable
  | _ => .error .wrongKind

/-- The arrays of numbers that several values stand for. -/
def toTensors : List Value → Except Failure (List (Tensor Double))
  | [] => return []
  | v :: rest => do return (← toTensor v) :: (← toTensors rest)

end

end Value

end Georef

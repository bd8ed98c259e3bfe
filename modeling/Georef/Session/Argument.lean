import Georef.Decimal.Numeral
import Georef.Session.Basic

/-!
# Arguments as they are written down

Arrays, points and operands of a command are read only when the command gets to them, so that it is
settled which of two faults is found first.
-/

namespace Georef

/-- The array of numbers that is written down. All numbers are read before the shape is looked at. -/
def Nested.read (a : Nested Numeral) : Except Failure (Tensor Double) := do
  (← a.mapM Numeral.value).toTensor

/-- An operand given by a variable or written down as an array. -/
inductive Operand where
  | held (name : Option String)
  | written (array : Nested Numeral)

/-- Points as they are written down. An array without elements is written as its shape. -/
inductive PointsForm where
  | array (array : Nested Numeral)
  | empty (shape : List Int)

/-- Where images are put, as it is written down. -/
inductive DestinationForm where
  | fresh
  | inPlace
  | array (array : PointsForm)
  /-- A list, which is no array. -/
  | notArray (items : Nested Numeral)

/-- The array without elements of a written shape. -/
def readEmpty (shape : List Int) : Except Failure (Tensor Double) :=
  if shape.any (· < 0) || Tensor.greatestAxisCount < shape.length then .error .unusable
  else
    match Tensor.empty? (shape.map Int.toNat) with
    | some t => .ok t
    | none => .error .unusable

/-- The array of points that is written down. -/
def PointsForm.read : PointsForm → Except Failure (Tensor Double)
  | array a => a.read
  | empty shape => readEmpty shape

/-- The destination that is written down. -/
def DestinationForm.read : DestinationForm → Except Failure (Destination Double)
  | fresh => .ok .fresh
  | inPlace => .ok .inPlace
  | array a => return .array (← a.read)
  | notArray items => do
    let _ ← items.mapM Numeral.value
    return .notArray

namespace Procedure

/-- The value of an operand, looked up or read. -/
def operandValue (other : Operand) : Procedure Value :=
  match other with
  | .held name => value name
  | .written array => do newArray (← array.read)

/-- A value as the second matrix of an operation. -/
def asMatrix (v : Value) : Procedure (Matrix Double) := do
  match (← get).matrix? v with
  | some m => return m
  | none => Matrix.operand (← v.toTensor)

end Procedure

end Georef

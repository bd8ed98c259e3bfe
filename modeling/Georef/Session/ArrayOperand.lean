import Georef.Session.Value

/-!
# Values beside arrays

Beside an array every value counts as an array: truth values and numbers as arrays without axes,
sequences as what their items make when they are stacked, and all else as an array of things that are no
scalars. Of such things only the shape matters, since none of them equals a scalar and none has an order
or a product with one.
-/

namespace Georef

/-- What a value is beside an array. -/
inductive ArrayOperand where
  | scalars (a : ScalarArray)
  /-- An array of texts, which no operation knows. -/
  | texts (shape : List Nat)
  /-- An array of other things, which are asked one by one. -/
  | objects (shape : List Nat)

namespace ArrayOperand

/-- The size along each axis. -/
def shape : ArrayOperand → List Nat
  | scalars a => a.shape
  | texts shape | objects shape => shape

/-- The array of scalars, if it is one. -/
def scalars? : ArrayOperand → Option ScalarArray
  | scalars a => some a
  | _ => none

/-- The array holds things that are neither scalars nor texts. -/
def hasObjects : ArrayOperand → Bool
  | objects _ => true
  | _ => false

/-- The array with one more axis whose parts are the given ones, all of the same shape. -/
def stack (parts : List ArrayOperand) : Option ArrayOperand :=
  match parts.mapM scalars? with
  | some arrays => (ScalarArray.stack arrays).map scalars
  | none =>
    (Tensor.stack (parts.map fun p => Tensor.constant p.shape ())).map fun t =>
      if parts.any hasObjects then objects t.shape else texts t.shape

end ArrayOperand

namespace Value

mutual

/-- What the value is beside an array. -/
def asOperand : Value → Except Failure ArrayOperand
  | boolean b => .ok (.scalars (.ofScalar (.truth b)))
  | integer _ n => .ok (.scalars (.ofScalar (.integer n)))
  | number _ x => .ok (.scalars (.ofScalar (.number x)))
  | element _ x => .ok (.scalars (.ofScalar x))
  | array _ a => .ok (.scalars a)
  | text _ _ => .ok (.texts [])
  | list _ items | tuple _ items => do
    match ArrayOperand.stack (← asOperands items) with
    | some a => if a.shape.length ≤ Tensor.greatestAxisCount then .ok a else .error .unusable
    | none => .error .unusable
  | _ => .ok (.objects [])

/-- What several values are beside an array. -/
def asOperands : List Value → Except Failure (List ArrayOperand)
  | [] => return []
  | v :: rest => do return (← asOperand v) :: (← asOperands rest)

end

end Value

end Georef

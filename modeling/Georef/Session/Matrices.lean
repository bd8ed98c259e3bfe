import Georef.Matrix.System
import Georef.Session.Argument
import Georef.Session.Copy
import Georef.Session.Equality
import Georef.Session.HashKey
import Georef.Session.Inverses
import Georef.Session.Text

/-!
# Matrices in a session

Commands on published matrices and on matrices that are being built. Products and solutions are
always published; only a matrix that is being built can be changed, and it is changed for every
variable that holds it.
-/

namespace Georef

/-- The two kinds of matrices. -/
inductive MatrixKind where
  | published
  | builder
deriving DecidableEq

/-- A command on matrices. Variables are given by their names. -/
inductive MatrixCommand where
  | create (kind : MatrixKind) (rows cols : Int) (elements : Option (Nested Numeral))
  | identity (kind : MatrixKind) (size : Int)
  | zeros (kind : MatrixKind) (rows cols : Int)
  | ofArray (kind : MatrixKind) (array : Nested Numeral)
  | reveal (m : Option String)
  | info (m : Option String)
  | element (m : Option String) (row col : Int)
  | elements (m : Option String)
  | multiply (m : Option String) (other : Operand)
  /-- The product by an operator, which takes matrices and arrays only. -/
  | times (m : Option String) (other : Operand)
  /-- The operator with a plain list. -/
  | timesList (m : Option String) (items : Nested Numeral)
  | solve (m : Option String) (other : Operand)
  | inverse (m : Option String)
  | equals (m : Option String) (other : Operand) (tolerance : Numeral)
  | same (m other : Option String)
  | sameHash (m other : Option String)
  | text (m : Option String)
  | copy (m : Option String) (mode : CopyMode)
  | toBuilder (m : Option String)
  | build (m : Option String)
  | setElement (m : Option String) (row col : Int) (value : Numeral)
  | setElements (m : Option String) (elements : Nested Numeral)
  | transpose (m : Option String)
  | normalizeColumns (m : Option String)

namespace Procedure

/-- A new matrix of the given kind. -/
def newMatrixOf (kind : MatrixKind) (m : Matrix Double) : Procedure Value :=
  match kind with
  | .published => newMatrix m
  | .builder => newBuilder m

/-- Changes a matrix that is being built. -/
def change (v : Value) (f : Matrix Double → Procedure (Matrix Double)) : Procedure Value := do
  match v with
  | .builder address =>
    let changed ← f (← matrix v)
    modify (·.storeBuilder address changed)
    return v
  | _ => throw .unsupported

/-- The product of two values beside each other, one of which is an array. Texts have no product at all;
other things have none as soon as one of them is asked, which takes shapes that fit together. -/
def operandProduct (left right : ArrayOperand) : Except Failure ScalarArray :=
  match left, right with
  | .scalars a, .scalars b =>
    match a.product? b with
    | some product => .ok product
    | none => .error .unusable
  | .texts _, _ | _, .texts _ => .error .wrongKind
  | a, b =>
    match Tensor.productShape? (.constant a.shape ()) (.constant b.shape ()) with
    | some shape =>
      match Tensor.empty? shape with
      | some nothing => .ok (.numbers nothing)
      | none => .error .wrongKind
    | none => .error .unusable

/-- The product of two values beside each other, one of which is an array. -/
def multiplyArrays (left right : Value) : Procedure Value := do
  newComputed (← operandProduct (← left.asOperand) (← right.asOperand))

/-- The product by an operator. -/
def timesValue (left right : Value) : Procedure Value := do
  match (← get).matrix? left, (← get).matrix? right, left, right with
  | some a, some b, _, _ => newMatrix (← a.multiply b)
  | some a, none, _, .array _ b => newMatrix (← a.multiply (← Matrix.operand b.toNumbers))
  | none, _, .array _ _, _ | none, _, _, .array _ _ => multiplyArrays left right
  | _, _, _, _ => throw .wrongKind

end Procedure

open Procedure in
/-- Carries out a command on matrices. -/
def MatrixCommand.execute : MatrixCommand → Procedure Value
  | create kind rows cols given => do
    -- The numbers are read first, but their arrangement is looked at only if the size is right.
    newMatrixOf kind (← Matrix.create rows cols (← given.mapM fun a => a.mapM Numeral.value))
  | identity kind size => do newMatrixOf kind (← Matrix.identity size)
  | zeros kind rows cols => do newMatrixOf kind (← Matrix.createZeros rows cols)
  | ofArray kind array => do newMatrixOf kind (← Matrix.ofArray (← array.read))
  | reveal m => value m
  | info m => do
    let a ← matrix (← value m)
    newRecord [("num_row", ← newInteger a.rows), ("num_col", ← newInteger a.cols),
      ("shape", ← newTuple [← newInteger a.rows, ← newInteger a.cols]),
      ("is_affine", .boolean (← a.affinity)), ("is_identity", .boolean a.isIdentity)]
  | element m row col => do newNumber (← (← matrix (← value m)).element row col)
  | elements m => do newArray (.ofList (← matrix (← value m)).elements.toList)
  | multiply m other => do
    let a ← matrix (← value m)
    newMatrix (← a.multiply (← asMatrix (← operandValue other)))
  | times m other => do
    let left ← value m
    timesValue left (← operandValue other)
  | timesList m items => do
    let v ← value m
    let numbers ← items.mapM Numeral.value
    match v with
    | .array _ _ => multiplyArrays v (← newArray (← numbers.toTensor))
    | _ => throw .wrongKind
  | solve m other => do
    let a ← matrix (← value m)
    newMatrix (← a.solve (← asMatrix (← operandValue other)))
  | inverse m => do invertValue (← value m)
  | equals m other tolerance => do
    let a ← matrix (← value m)
    let v ← operandValue other
    let tolerance ← tolerance.value
    return .boolean (a.equals (← asMatrix v) tolerance)
  | same m other => do
    let a ← value m
    let b ← value other
    compareValues a b
  | sameHash m other => do
    let a ← value m
    let b ← value other
    return .boolean ((← a.hashKey) == (← b.hashKey))
  | text m => do
    match ← value m with
    | .text mark s => return .text mark s
    | .boolean b => return .text (.truthText b) (truthText b)
    | .direction d => return .text (.ofName d.name) d.name
    | v => newText ((← get).text v)
  | copy m mode => do copyValue mode (← value m)
  | toBuilder m => do
    match ← value m with
    | .matrix _ a => newBuilder a
    | _ => throw .unsupported
  | build m => do
    match ← value m with
    | .builder address => newMatrix (← matrix (.builder address))
    | _ => throw .unsupported
  | setElement m row col x => do
    let v ← value m
    let x ← x.value
    change v fun a => a.setElement row col x
  | setElements m given => do
    let v ← value m
    let elements ← given.mapM Numeral.value
    change v fun a => a.setElements elements
  | transpose m => do
    match ← value m with
    -- What an array makes of this is a new array, which nobody asks for.
    | .array mark a => return .array mark a
    | .element mark x => return .element mark x
    | v => change v fun a => return a.transposed
  | normalizeColumns m => do change (← value m) fun a => return a.normalizedColumns

end Georef

import Georef.Double.Arithmetic
import Georef.Matrix.ArrayProduct

/-!
# Arrays of one kind of element

The elements of a `ScalarArray` are all truth values, all integers of 64 bits, or all numbers. Arrays of
different kinds meet at the wider one: a truth value counts as zero or one, and an integer as the number
next to it. Two arrays are compared at the wider kind, place by place, and there is one answer for each place of
the shape that `Tensor.jointShape?` gives them.
-/

namespace Georef

/-- An element of an array. -/
inductive Scalar where
  | truth (b : Bool)
  | integer (n : Int)
  | number (x : Double)

/-- The integer that a truth value counts as. -/
def integerOfTruth (b : Bool) : Int := if b then 1 else 0

/-- The number that a scalar counts as. -/
def Scalar.toDouble : Scalar → Double
  | truth b => Double.ofInt (integerOfTruth b)
  | integer n => Double.ofInt n
  | number x => x

/-- An array whose elements are all of one kind. -/
inductive ScalarArray where
  | truths (t : Tensor Bool)
  | integers (t : Tensor Int)
  | numbers (t : Tensor Double)

namespace ScalarArray

/-- The size along each axis. -/
def shape : ScalarArray → List Nat
  | truths t => t.shape
  | integers t => t.shape
  | numbers t => t.shape

/-- An array without axes. -/
def ofScalar : Scalar → ScalarArray
  | .truth b => truths (.scalar b)
  | .integer n => integers (.scalar n)
  | .number x => numbers (.scalar x)

/-- The element of an array without axes. -/
def scalar? : ScalarArray → Option Scalar
  | truths ⟨[], [b], _⟩ => some (.truth b)
  | integers ⟨[], [n], _⟩ => some (.integer n)
  | numbers ⟨[], [x], _⟩ => some (.number x)
  | _ => none

/-- The array as one of truth values, if it is one. -/
def toTruths? : ScalarArray → Option (Tensor Bool)
  | truths t => some t
  | _ => none

/-- The array as one of integers, if no element is a number. -/
def toIntegers? : ScalarArray → Option (Tensor Int)
  | truths t => some (t.map integerOfTruth)
  | integers t => some t
  | numbers _ => none

/-- The array as one of numbers. -/
def toNumbers : ScalarArray → Tensor Double
  | truths t => t.map fun b => Double.ofInt (integerOfTruth b)
  | integers t => t.map Double.ofInt
  | numbers t => t

/-- The array with one more axis whose parts are the given arrays, all of the same shape. Without any
parts it is one of numbers. -/
def stack (parts : List ScalarArray) : Option ScalarArray :=
  match parts with
  | [] => some (numbers (.ofList []))
  | parts =>
    match parts.mapM toTruths?, parts.mapM toIntegers? with
    | some ts, _ => (Tensor.stack ts).map truths
    | none, some ts => (Tensor.stack ts).map integers
    | none, none => (Tensor.stack (parts.map toNumbers)).map numbers

/-! ## Comparisons -/

/-- Two arrays compared place by place, as integers if they can be and as numbers otherwise. -/
def compareWith (onIntegers : Int → Int → Bool) (onNumbers : Double → Double → Bool)
    (a b : ScalarArray) : Option (Tensor Bool) :=
  match a.toIntegers?, b.toIntegers? with
  | some x, some y => Tensor.zipWith? onIntegers x y
  | _, _ => Tensor.zipWith? onNumbers a.toNumbers b.toNumbers

/-- Where the elements of two arrays are equal. -/
def equalPlaces (a b : ScalarArray) : Option (Tensor Bool) :=
  compareWith (fun m n => m == n) (fun x y => x == y) a b

/-- Where the elements of one array are less than those of the other. -/
def lessPlaces (a b : ScalarArray) : Option (Tensor Bool) :=
  compareWith (fun m n => m < n) (fun x y => x < y) a b

/-! ## Products -/

/-- An integer of 64 bits; a greater or lesser one goes round. -/
def wrapInteger (n : Int) : Int := n.bmod 18446744073709551616

/-- The product of two arrays of integers of any size. -/
def integerProduct? (a b : Tensor Int) : Option (Tensor Int) :=
  @Tensor.product? Int ⟨0⟩ ⟨fun m n => m + n⟩ ⟨fun m n => m * n⟩ a b

/-- The product of two arrays. For truth values it says where some pair of factors holds. -/
def product? (a b : ScalarArray) : Option ScalarArray :=
  match a.toIntegers?, b.toIntegers? with
  | some x, some y =>
    match a, b with
    | truths _, truths _ => (integerProduct? x y).map fun t => truths (t.map fun n => n != 0)
    | _, _ => (integerProduct? x y).map fun t => integers (t.map wrapInteger)
  | _, _ => (Tensor.product? a.toNumbers b.toNumbers).map numbers

end ScalarArray

end Georef

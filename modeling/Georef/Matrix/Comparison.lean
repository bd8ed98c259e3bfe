import Georef.HashKey
import Georef.Matrix.Basic

/-!
# Comparing matrices of doubles

`Matrix.equals` compares element by element with a tolerance; a NaN matches a NaN and an infinity
matches the infinity of the same sign. `Matrix.hashKey` is what a hash of a matrix may depend on.
-/

namespace Georef

/-- Two numbers agree: numerically equal, both NaN, or no further apart than the tolerance. -/
def Double.agrees (tolerance x y : Double) : Bool :=
  x == y || (x.isNaN && y.isNaN) || (x - y).abs ≤ tolerance

namespace Matrix

/-- Same size, and all elements agree within the tolerance by `Double.agrees`. -/
def equals (a b : Matrix Double) (tolerance : Double) : Bool :=
  a.rows == b.rows && a.cols == b.cols &&
    (List.range a.rows).all fun i => (List.range a.cols).all fun j =>
      Double.agrees tolerance (a.entry i j) (b.entry i j)

/-- `equals` without tolerance. -/
def sameAs (a b : Matrix Double) : Bool := a.equals b 0

/-- The hash depends on the size and the bit patterns of the elements after adding zero, which turns
-0.0 into 0.0. -/
def hashKey (m : Matrix Double) : HashKey :=
  .matrix m.rows m.cols (m.elements.toList.map fun x => (x + 0).toBits)

/-- Euclidean norm of a column: the root of the sum of squares, added from the first row down. -/
def columnNorm (m : Matrix Double) (j : Nat) : Double :=
  (sumRange m.rows fun i => m.entry i j * m.entry i j).sqrt

/-- The matrix with each column divided by its `columnNorm`; a column whose sum of squares is zero
    stays. -/
def normalizedColumns (m : Matrix Double) : Matrix Double :=
  ofFn m.rows m.cols fun i j =>
    if (sumRange m.rows fun k => m.entry k j * m.entry k j) == 0 then m.entry i j
    else m.entry i j / m.columnNorm j

end Matrix

end Georef

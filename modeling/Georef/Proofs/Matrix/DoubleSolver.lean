import Georef.Matrix.System
import Georef.Proofs.Double.Zeros
import Georef.Proofs.Matrix.Conditioning

/-!
# What is asked of a solver for doubles

`Matrix.solve` leaves two things to its `Solver` that a numerical library does in its own way: whether the condition
number of a matrix is above the threshold, and what becomes of a square system with a tiny pivot. Both are found by
rounded arithmetic, so close to the threshold two libraries may well disagree. The theory of inverses does not rest on
how the project does these things. It takes any solver for doubles and names what it asks of it, which is no more than
what is documented of such routines.

## Main definitions

- `Solver.DoublePivots`: single numbers are judged as doubles are
- `Solver.TinyPivots`: when a system with a tiny pivot is solved
- `Solver.Discerning`: the condition of the plainest matrices is judged rightly
- `Solver.Gauges`: the condition of a matrix is judged rightly unless it is close to the threshold
-/

namespace Georef

open Double (SameNumber)

namespace Matrix

/-- The entries of the matrices are the same numbers: `SameNumber` in every place. -/
structure SameNumbers (a b : Matrix Double) : Prop where
  rows_eq : a.rows = b.rows
  cols_eq : a.cols = b.cols
  entry (i j : Nat) : i < a.rows → j < a.cols → SameNumber (a.entry i j) (b.entry i j)

/-- Row `i` of the matrix is row `order[i]` of an identity. -/
structure UnitRows (m : Matrix Double) (order : List Nat) : Prop where
  rows_eq : m.rows = order.length
  entry (i j : Nat) : i < order.length → j < m.cols →
    m.entry i j = if order[i]? = some j then 1 else 0

end Matrix

/-! ## Pivots -/

/-- `Equation.exchangePivot` and `Equation.eliminate` see doubles as what they are: only numbers that are not finite
fail the test for that, a pivot is chosen by its absolute value, and it has a reciprocal if it is a normal number. -/
class Solver.DoublePivots [Solver Double] : Prop where
  finite_eq (x : Double) : Solver.finite x = x.isFinite
  smaller_eq (x y : Double) : Solver.smaller x y = decide (x.abs < y.abs)
  hasReciprocal_eq (x : Double) : Solver.hasReciprocal x = x.isNormal

instance : Solver.DoublePivots where
  finite_eq _ := rfl
  smaller_eq _ _ := rfl
  hasReciprocal_eq _ := rfl

/-- When `Solver.solveTiny?` finds a solution: it looks for pivots that are zero, and for nothing else. -/
class Solver.TinyPivots [Solver Double] : Prop where
  /-- Signs of zeros make no difference. -/
  isSome_congr {a b : Matrix Double} (side : Matrix Double) : a.SameNumbers b →
    (Solver.solveTiny? a side).isSome = (Solver.solveTiny? b side).isSome
  /-- The matrix of a transform of the line is triangular, so its pivots are the scale and a one. -/
  isSome_line {scale offset : Double} (side : Matrix Double) : scale.Finite → offset.Finite →
    (scale == 0) = false → scale.isNormal = false →
      (Solver.solveTiny? (.ofRows 2 2 [[scale, offset], [0, 1]]) side).isSome = true

section Pivots

variable [Solver Double] [Solver.DoublePivots]

/-- `Solver.smaller` compares finite doubles by their magnitudes. -/
theorem Double.smaller_iff (x y : Double) (hx : x.Finite) (hy : y.Finite) :
    Solver.smaller x y = true ↔ x.magnitude < y.magnitude := by
  rw [Solver.DoublePivots.smaller_eq, decide_eq_true_eq, hx.abs.lt_iff hy.abs, ordinal_abs, ordinal_abs,
    natAbs_ordinal, natAbs_ordinal, Int.ofNat_lt]

end Pivots

/-! ## Condition numbers -/

/-- What `Solver.wellConditioned` says of matrices with the given number of rows whose condition numbers are far from
the threshold, or do not differ at all. -/
structure Solver.Discerning [Solver Double] (rows : Nat) : Prop where
  /-- Signs of zeros do not change singular values. -/
  congr {a b : Matrix Double} : a.rows = rows → a.SameNumbers b →
    Solver.wellConditioned a = Solver.wellConditioned b
  /-- Rows of an identity make orthogonal columns. The condition number is the square root of the ratio of how often
  the most and the least frequent of them occurs, if none is left out. -/
  unitRows {m : Matrix Double} {order : List Nat} : m.rows = rows → m.UnitRows order → 0 < m.cols →
    (∀ j < m.cols, j ∈ order) → Solver.wellConditioned m = true
  /-- With a column of zeros a matrix is singular, and its condition number is infinite. -/
  zeroColumn {m : Matrix Double} {j : Nat} : m.rows = rows → j < m.cols →
    (∀ i < m.rows, (m.entry i j == 0) = true) → Solver.wellConditioned m = false

/-- The exact value of a finite double. -/
def Double.value (x : Double) : ℚ := x.units / unitsPerOne

/-- The matrix of the exact values. -/
def Matrix.values (m : Matrix Double) : Matrix ℚ := .ofFn m.rows m.cols fun i j => (m.entry i j).value

/-- `Solver.wellConditioned` compares the condition number of the matrix with 2^52 and is right about it, unless the two
differ by less than the factor `margin`. What it says in between is left open. -/
structure Solver.Gauges [Solver Double] (margin : ℚ) (m : Matrix Double) : Prop where
  accepts : m.values.ConditionAtMost (2 ^ 52 / margin) → Solver.wellConditioned m = true
  refuses : ¬m.values.ConditionAtMost (2 ^ 52 * margin) → Solver.wellConditioned m = false

/-- Matrices that differ in the signs of zeros have the same `values`. -/
theorem Matrix.SameNumbers.values_eq {a b : Matrix Double} (h : a.SameNumbers b) : a.values = b.values := by
  refine ext_entry h.rows_eq h.cols_eq fun i j hi hj => ?_
  have hi : i < a.rows := hi
  have hj : j < a.cols := hj
  rw [values, values, entry_ofFn hi hj, entry_ofFn (h.rows_eq ▸ hi) (h.cols_eq ▸ hj), Double.value, Double.value,
    (h.entry i j hi hj).units_eq]

end Georef

import Georef.Proofs.Matrix.System
import Mathlib.Algebra.Order.Ring.Rat

/-!
# A solver that rounds nothing

Over the numbers of an ordered field the condition number can be compared with the threshold by its
definition, and a least-squares solution is found by elimination from the normal equations. `exactSolver` does
so: it is what the theory assumes of a solver, and the rational numbers are solved with it.

## Key results

- `LeastSquares.of_normalEquations`: a solution of the normal equations is a least-squares solution
- `exact_exactSolver`: the solver rounds nothing
-/

namespace Georef

namespace Matrix

/-! ## Normal equations -/

section NormalEquations

variable {K : Type} [Field K] {a b x : Matrix K}

/-- `transposed` goes over to the other factor of a sum of products. -/
theorem sum_mulVec_mul (a : Matrix K) (v r : Nat → K) :
    ∑ i ∈ Finset.range a.rows, a.mulVec v i * r i =
      ∑ k ∈ Finset.range a.cols, v k * a.transposed.mulVec r k := by
  simp only [mulVec, Finset.sum_mul, Finset.mul_sum, cols_transposed]
  rw [Finset.sum_comm]
  refine Finset.sum_congr rfl fun k _ => Finset.sum_congr rfl fun i _ => ?_
  rw [entry_transposed]
  ring

variable [LinearOrder K] [IsStrictOrderedRing K]

/-- The columns of `gram` are as independent as those of the system. -/
theorem Independent.gram (ha : a.Independent) : (a.transposed.product a).Independent := by
  intro v hv
  refine ha v fun i => ?_
  -- The square of what `v` is taken to is a product of `v` with its image under the normal equations.
  have hzero : sumSquares a.rows (a.mulVec v) = 0 := by
    rw [sumSquares, sum_mulVec_mul]
    refine Finset.sum_eq_zero fun k _ => ?_
    rw [← mulVec_product, hv k, mul_zero]
  by_cases hi : i < a.rows
  · exact eq_zero_of_sumSquares hzero hi
  · exact mulVec_of_rows_le (Nat.le_of_not_lt hi) v

/-- A solution of the normal equations solves the system as well as any column does. -/
theorem LeastSquares.of_normalEquations (hrows : x.rows = a.cols) (hcols : x.cols = b.cols)
    (h : (a.transposed.product a).product x = a.transposed.product b) : LeastSquares a b x := by
  refine ⟨hrows, hcols, fun c hc v => ?_⟩
  let residual (i : Nat) : K := (a.product x).entry i c - b.entry i c
  let difference (k : Nat) : K := v k - x.entry k c
  have horthogonal : ∑ i ∈ Finset.range a.rows, a.mulVec difference i * residual i = 0 := by
    rw [sum_mulVec_mul]
    refine Finset.sum_eq_zero fun k _ => mul_eq_zero_of_right _ ?_
    rw [mulVec_sub, ← entry_product_eq_mulVec, ← product_assoc, h, ← entry_product_eq_mulVec, sub_self]
  -- Any other column leaves the residual and something orthogonal to it, so its squares add up.
  have hsplit : (fun i => a.mulVec v i - b.entry i c) =
      fun i => residual i + 1 * a.mulVec difference i := by
    funext i
    rw [mulVec_sub, ← entry_product_eq_mulVec]
    ring
  rw [hsplit, sumSquares_add_mul, horthogonal]
  have hnonneg : 0 ≤ sumSquares a.rows (a.mulVec difference) :=
    Finset.sum_nonneg fun i _ => mul_self_nonneg _
  linarith

end NormalEquations

section NormalSolution

variable {K : Type} [Field K] [LinearOrder K] [Solver K]

/-- The solution that elimination finds for the normal equations. -/
def normalSolution (a b : Matrix K) : Matrix K :=
  match Equation.eliminate a.cols
      ((a.transposed.product a).equations (a.transposed.product b)) with
  | .ok solution => ofRows a.cols b.cols solution
  | .error _ => zeros a.cols b.cols

/-- `normalSolution` is a least-squares solution if the columns are independent. -/
theorem leastSquares_normalSolution [IsStrictOrderedRing K] [Solver.ExactPivots K]
    {a b : Matrix K} (ha : a.Independent) : LeastSquares a b (a.normalSolution b) := by
  obtain ⟨solution, hsolution, hproduct⟩ := exists_eliminate (a := a.transposed.product a)
    (b := a.transposed.product b) rfl rfl ha.gram
  have hfound : a.normalSolution b = ofRows a.cols b.cols solution := by
    unfold normalSolution
    rw [show a.cols = (a.transposed.product a).cols from rfl, hsolution]
  rw [hfound]
  exact .of_normalEquations rfl rfl hproduct

end NormalSolution

end Matrix

/-! ## The solver -/

variable (K : Type) [Field K] [LinearOrder K]

/-- Pivots are compared by their absolute values; the rest is left open. -/
@[reducible] def pivotSolver : Solver K where
  finite _ := true
  smaller x y := |x| < |y|
  hasReciprocal _ := true
  solveTiny? _ _ := none
  wellConditioned _ := false
  leastSquares a _ := a

/-- `pivotSolver` compares pivots exactly. -/
theorem exactPivots_pivotSolver : @Solver.ExactPivots K _ _ (pivotSolver K) :=
  @Solver.ExactPivots.mk K _ _ (pivotSolver K) (fun _ _ => decide_eq_true_iff) fun _ => rfl

open Classical in
/-- Conditions are compared by their definition, and least squares are found by elimination. -/
@[reducible] noncomputable def exactSolver : Solver K :=
  { pivotSolver K with
    wellConditioned := fun a => decide (a.ConditionAtMost (2 ^ 52))
    leastSquares := @Matrix.normalSolution K _ _ (pivotSolver K) }

/-- `exactSolver` rounds nothing. -/
theorem exact_exactSolver [IsStrictOrderedRing K] : @Solver.Exact K _ _ (exactSolver K) := by
  let solver := exactSolver K
  exact
    { smaller_iff := fun _ _ => decide_eq_true_iff
      hasReciprocal := fun _ => rfl
      finite := fun _ => rfl
      wellConditioned_iff := fun _ _ => @decide_eq_true_iff _ (Classical.propDecidable _)
      leastSquares := fun _ ha _ =>
        @Matrix.leastSquares_normalSolution K _ _ (pivotSolver K) _ (exactPivots_pivotSolver K) _ _ ha }

noncomputable instance : Solver ℚ := exactSolver ℚ

instance : Solver.Exact ℚ := exact_exactSolver ℚ

end Georef

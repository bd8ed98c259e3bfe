import Georef.Proofs.Matrix.Checks
import Georef.Proofs.Matrix.ExactSolver
import Georef.Proofs.Matrix.LeastSquares
import Mathlib.Analysis.Real.Sqrt
import Mathlib.Tactic.IntervalCases

/-!
# The only solution

Over exact numbers a square system that passes the checks has one solution, and elimination finds it. A taller one
need not have any, but its normal equations have one, and reflections find it, as long as no singular value is so
small that it does not count. `Solver.Reflecting` says of a solver that it rounds nothing and leaves such systems to
the reflections; the real numbers have one.

## Key results

- `LeastSquares.normalEquations`: a least-squares solution solves the normal equations
- `onlySolution_of_square`, `onlySolution_of_tall`: what is found is a solution, and the only one
- `solve_exact`: what solving leads to, whatever the system
-/

namespace Georef

namespace Matrix

/-! ## One solution at most -/

section Unique

variable {K : Type} [Field K] {a x y : Matrix K}

/-- `Independent` matrices can be cancelled. -/
theorem Independent.eq_of_product_eq (ha : a.Independent) (hx : x.rows = a.cols) (hy : y.rows = a.cols)
    (h : a.product x = a.product y) : x = y := by
  have hcols : (a.product x).cols = (a.product y).cols := by rw [h]
  refine ext_entry (hx.trans hy.symm) hcols ?_
  intro k c hk _
  -- Column `c` of the difference is taken to zero.
  have hzero (i : Nat) : a.mulVec (fun k => x.entry k c - y.entry k c) i = 0 := by
    rw [mulVec_sub, ← entry_product_eq_mulVec, ← entry_product_eq_mulVec, h, sub_self]
  exact sub_eq_zero.mp (ha _ hzero k (hx ▸ hk))

variable [LinearOrder K] [IsStrictOrderedRing K] {b : Matrix K}

/-- What is `LeastSquares` solves the normal equations. -/
theorem LeastSquares.normalEquations (h : LeastSquares a b x) :
    (a.transposed.product a).product x = a.transposed.product b := by
  refine ext_entry rfl h.cols_eq ?_
  intro k c (hk : k < a.cols) hc
  let left (i : Nat) : K := (a.product x).entry i c - b.entry i c
  have hleft : (a.transposed.product (a.product x)).entry k c - (a.transposed.product b).entry k c =
      a.transposed.mulVec left k := by
    rw [mulVec_sub, ← entry_product_eq_mulVec, ← entry_product_eq_mulVec]
  -- What is left is orthogonal to all columns, so also to what the transposed matrix makes of it.
  have horthogonal : sumSquares a.cols (a.transposed.mulVec left) = 0 := by
    rw [sumSquares, ← sum_mulVec_mul]
    exact h.sum_mulVec_mul_residual (h.cols_eq ▸ hc) _
  rw [product_assoc, ← sub_eq_zero, hleft]
  exact eq_zero_of_sumSquares horthogonal hk

end Unique

/-- No singular value is so small beside the largest one that it does not count: the condition number is below 2^52
    over the count of equations. A single one always counts. -/
inductive FullNumericalRank {K : Type} [Field K] [LinearOrder K] (a : Matrix K) : Prop
  | single (hcols : a.cols = 1)
  | conditioned (bound : K) (hpos : 0 ≤ bound) (hbound : bound * a.rows < 2 ^ 52) (h : a.ConditionAtMost bound)

end Matrix

/-- Nothing is rounded, and tall systems are solved by reflections if all their singular values count. -/
class Solver.Reflecting (K : Type) [Field K] [LinearOrder K] [Euclidean K] [Solver K] : Prop
    extends Solver.ExactPivots K where
  finite (x : K) : Solver.finite x = true
  wellConditioned_iff {a : Matrix K} : 1 ≤ a.cols → a.cols ≤ a.rows →
    (Solver.wellConditioned a = true ↔ a.ConditionAtMost (2 ^ 52))
  leastSquares_eq {a b : Matrix K} : a.cols < a.rows → b.rows = a.rows → a.FullNumericalRank →
    Solver.leastSquares a b = a.leastSquares b

namespace Matrix

/-! ## What is found -/

/-- The system is solved, and what is found is the only matrix of its size with a property. -/
def OnlySolution {K : Type} [Field K] [LinearOrder K] [Solver K] (a b : Matrix K) (P : Matrix K → Prop) : Prop :=
  ∃ x, a.solve b = .ok x ∧ x.rows = a.cols ∧ x.cols = b.cols ∧ ∀ y, y.rows = a.cols → (P y ↔ y = x)

/-- What solves a system of equations with independent columns is its `OnlySolution`. -/
theorem onlySolution_of_product {K : Type} [Field K] [LinearOrder K] [Solver K] {a b m side x : Matrix K}
    (hm : m.Independent) (hcols : m.cols = a.cols) (hx : a.solve b = .ok x) (hrows : x.rows = a.cols)
    (hsides : x.cols = b.cols) (h : m.product x = side) : a.OnlySolution b fun y => m.product y = side := by
  refine ⟨x, hx, hrows, hsides, ?_⟩
  intro y hy
  constructor
  · intro hside
    exact hm.eq_of_product_eq (hy.trans hcols.symm) (hrows.trans hcols.symm) (hside.trans h.symm)
  · rintro rfl
    exact h

section Solve

variable {K : Type} [Field K] [LinearOrder K] [IsStrictOrderedRing K] [Euclidean K] [Euclidean.Exact K]
  [Solver K] [Solver.Reflecting K] {a b : Matrix K}

omit [IsStrictOrderedRing K] [Euclidean.Exact K] in
/-- A system of exact numbers is `Checked` by its sizes alone, as all numbers are finite. -/
theorem checked_of_reflecting (hb : b.rows = a.rows) (hcols : 1 ≤ a.cols) (htall : a.cols ≤ a.rows) : Checked a b :=
  ⟨hb, Nat.ne_of_gt hcols, htall, List.all_eq_true.mpr fun y _ => Solver.Reflecting.finite y⟩

omit [Euclidean.Exact K] in
/-- `eliminate` finds the solution of a square system. -/
theorem onlySolution_of_square (hb : b.rows = a.rows) (hsquare : a.rows = a.cols) (hcols : 1 ≤ a.cols)
    (ha : a.ConditionAtMost (2 ^ 52)) : a.OnlySolution b fun y => a.product y = b := by
  obtain ⟨solution, hsolution, hproduct⟩ := exists_eliminate hsquare hb ha.independent
  have hcondition := (Solver.Reflecting.wellConditioned_iff hcols hsquare.ge).mpr ha
  have hchecked : Checked a b := checked_of_reflecting hb hcols hsquare.ge
  have hsolve := hchecked.solve_eq_ok hcondition (.elimination hsquare hsolution)
  exact onlySolution_of_product ha.independent rfl hsolve rfl rfl hproduct

/-- Reflections find the `OnlySolution` of the normal equations of a taller system. -/
theorem onlySolution_of_tall (hb : b.rows = a.rows) (htall : a.cols < a.rows) (hcols : 1 ≤ a.cols)
    (ha : a.ConditionAtMost (2 ^ 52)) (hrank : a.FullNumericalRank) :
    a.OnlySolution b fun y => (a.transposed.product a).product y = a.transposed.product b := by
  have hleast : LeastSquares a b (a.leastSquares b) := leastSquares_spec hb htall.le ha.independent
  have hcondition := (Solver.Reflecting.wellConditioned_iff hcols htall.le).mpr ha
  have hchecked : Checked a b := checked_of_reflecting hb hcols htall.le
  have hsolve := hchecked.solve_eq_ok hcondition (.leastSquares htall.ne')
  rw [Solver.Reflecting.leastSquares_eq htall hb hrank] at hsolve
  exact onlySolution_of_product ha.independent.gram rfl hsolve hleast.rows_eq hleast.cols_eq hleast.normalEquations

/-- What `solve` leads to. The sizes come first, for doubles too. Of the systems that fit, those
    with fewer equations than unknowns and those whose condition number is above the threshold are
    not solved. For the others the only solution is found: that of a square system, and that of the
    normal equations of a taller one. -/
theorem solve_exact (a b : Matrix K) (c d : Matrix Double) :
    (((∃ e, a.solve b = .error e ∧ e.isMismatch = true) ↔ b.rows ≠ a.rows) ∧
      ((∃ e, c.solve d = .error e ∧ e.isMismatch = true) ↔ d.rows ≠ c.rows)) ∧
    ((b.rows = a.rows → a.rows < a.cols → a.solve b = .error (.noUniqueSolution a.rows a.cols)) ∧
      (d.rows = c.rows → c.rows < c.cols → c.solve d = .error (.noUniqueSolution c.rows c.cols))) ∧
    (b.rows = a.rows → 1 ≤ a.cols → a.cols ≤ a.rows → ¬a.ConditionAtMost (2 ^ 52) →
      a.solve b = .error (.illConditioned a.rows a.cols)) ∧
    (a.rows = a.cols → 1 ≤ a.cols → a.ConditionAtMost (2 ^ 52) →
      (b.rows = a.rows → a.OnlySolution b fun y => a.product y = b) ∧
      ∃ x, a.inverse = .ok x ∧ a.product x = eye a.rows a.rows ∧ x.product a = eye a.cols a.cols) ∧
    (a.cols < a.rows → 1 ≤ a.cols → a.ConditionAtMost (2 ^ 52) → a.FullNumericalRank →
      (b.rows = a.rows →
        a.OnlySolution b fun y => (a.transposed.product a).product y = a.transposed.product b) ∧
      ∀ y, y.rows = a.cols → a.solve (a.product y) = .ok y) := by
  refine ⟨⟨isMismatch_of_solve_iff, isMismatch_of_solve_iff⟩, ⟨solve_of_wide, solve_of_wide⟩, ?_, ?_, ?_⟩
  · intro hb hcols htall ha
    have hcondition : Solver.wellConditioned a = false := by
      rw [← Bool.not_eq_true, Solver.Reflecting.wellConditioned_iff hcols htall]
      exact ha
    exact (checked_of_reflecting hb hcols htall).solve_of_illConditioned hcondition
  · intro hsquare hcols ha
    refine ⟨fun hb => onlySolution_of_square hb hsquare hcols ha, ?_⟩
    -- Solved for the identity, a square matrix has a right inverse, which is a left inverse too.
    have hidentity : (eye a.rows a.rows : Matrix K).rows = a.rows := rfl
    obtain ⟨x, hx, hrows, -, hspec⟩ := onlySolution_of_square hidentity hsquare hcols ha
    have hright := (hspec x hrows).mpr rfl
    exact ⟨x, hx, hright, ha.independent.leftInverse hrows hright⟩
  · intro htall hcols ha hrank
    refine ⟨fun hb => onlySolution_of_tall hb htall hcols ha hrank, ?_⟩
    intro y hy
    obtain ⟨x, hx, -, -, hspec⟩ := onlySolution_of_tall (rows_product a y) htall hcols ha hrank
    -- A solution of the system solves the normal equations, so it is the one that was found.
    obtain rfl := (hspec y hy).mp (product_assoc _ _ _)
    exact hx

end Solve

end Matrix

/-! ## Real numbers -/

noncomputable instance : Euclidean ℝ where
  lengthOf u := √(Equation.dot u u)
  isNegative x := decide (x < 0)

instance : Euclidean.Exact ℝ where
  lengthOf_mul_self u := Real.mul_self_sqrt (LeastSquares.squaredNorm_nonneg u)

/-- Conditions are compared by their definition, and tall systems are solved by reflections. -/
noncomputable instance : Solver ℝ :=
  { exactSolver ℝ with leastSquares := Matrix.leastSquares }

instance : Solver.Reflecting ℝ where
  smaller_iff _ _ := decide_eq_true_iff
  hasReciprocal _ := rfl
  finite _ := rfl
  wellConditioned_iff _ _ := @decide_eq_true_iff _ (Classical.propDecidable _)
  leastSquares_eq _ _ _ := rfl

namespace Matrix

/-- Equations that have to be exchanged, and a system of which one equation is to spare. -/
theorem solve_exact_real :
    (.ofRows 2 2 [[0, 1], [1, 0]] : Matrix ℝ).solve (.ofRows 2 1 [[3], [4]]) = .ok (.ofRows 2 1 [[4], [3]]) ∧
    (∃ x, (.ofRows 2 2 [[0, 1], [1, 0]] : Matrix ℝ).inverse = .ok x ∧
      x.product (.ofRows 2 2 [[0, 1], [1, 0]]) = eye 2 2) ∧
    (.ofRows 3 2 [[1, 0], [0, 1], [0, 0]] : Matrix ℝ).solve (.ofRows 3 1 [[5], [6], [7]]) =
      .ok (.ofRows 2 1 [[5], [6]]) := by
  have hexchange : (.ofRows 2 2 [[0, 1], [1, 0]] : Matrix ℝ).ConditionAtMost (2 ^ 52) := by
    refine .of_isometry (by norm_num) fun v => ?_
    simp [sumSquares, mulVec, Finset.sum_range_succ, entry_ofRows]
    ring
  have hspare (bound : ℝ) (hbound : 1 ≤ bound) :
      (.ofRows 3 2 [[1, 0], [0, 1], [0, 0]] : Matrix ℝ).ConditionAtMost bound := by
    refine .of_isometry hbound fun v => ?_
    simp [sumSquares, mulVec, Finset.sum_range_succ, entry_ofRows]
  have hrank : (.ofRows 3 2 [[1, 0], [0, 1], [0, 0]] : Matrix ℝ).FullNumericalRank :=
    .conditioned 1 zero_le_one (by norm_num) (hspare 1 le_rfl)
  obtain ⟨-, -, -, hsquare, -⟩ :=
    solve_exact (.ofRows 2 2 [[0, 1], [1, 0]] : Matrix ℝ) (.ofRows 2 1 [[3], [4]]) (eye 1 1) (eye 1 1)
  obtain ⟨-, -, -, -, htall⟩ := solve_exact (.ofRows 3 2 [[1, 0], [0, 1], [0, 0]] : Matrix ℝ)
    (.ofRows 3 1 [[5], [6], [7]]) (eye 1 1) (eye 1 1)
  obtain ⟨hsolved, x, hx, -, hleft⟩ := hsquare rfl one_le_two hexchange
  obtain ⟨y, hy, -, -, hspec⟩ := hsolved rfl
  -- The solution is the matrix that satisfies the system, which a candidate is shown to do.
  have hfound : .ofRows 2 1 [[4], [3]] = y := by
    refine (hspec _ rfl).mp (ext_entry rfl rfl fun i j (hi : i < 2) (hj : j < 1) => ?_)
    interval_cases i <;> interval_cases j <;> simp [entry_product, Finset.sum_range_succ, entry_ofRows]
  obtain ⟨z, hz, -, -, hnormal⟩ :=
    (htall (by decide) one_le_two (hspare _ (by norm_num)) hrank).1 rfl
  -- The least squares solution satisfies the normal equations.
  have hleast : .ofRows 2 1 [[5], [6]] = z := by
    refine (hnormal _ rfl).mp (ext_entry rfl rfl fun i j (hi : i < 2) (hj : j < 1) => ?_)
    interval_cases i <;> interval_cases j <;>
      simp [entry_product, transposed, entry_ofFn, Finset.sum_range_succ, entry_ofRows]
  rw [hfound, hleast]
  exact ⟨hy, ⟨x, hx, hleft⟩, hz⟩

/-- Columns that are independent are not enough: if one is too short beside the other, a taller system is not solved
    even where it has a solution. -/
theorem tall_not_solved :
    ((.ofRows 3 2 [[1, 0], [0, 1 / 2 ^ 60], [0, 0]] : Matrix ℝ).Independent ∧
      (.ofRows 3 2 [[1, 0], [0, 1 / 2 ^ 60], [0, 0]] : Matrix ℝ).product (.ofRows 2 1 [[1], [1]]) =
        .ofRows 3 1 [[1], [1 / 2 ^ 60], [0]] ∧
      (.ofRows 3 2 [[1, 0], [0, 1 / 2 ^ 60], [0, 0]] : Matrix ℝ).solve (.ofRows 3 1 [[1], [1 / 2 ^ 60], [0]]) =
        .error (.illConditioned 3 2)) ∧
    (.ofRows 3 2 [[1, 0], [0, 8.673617379884035e-19], [0, 0]] : Matrix Double).solve
        (.ofRows 3 1 [[1], [8.673617379884035e-19], [0]]) = .error (.illConditioned 3 2) := by
  refine ⟨⟨fun v hv j (hj : j < 2) => ?_, ?_, ?_⟩, by decide +kernel⟩
  · have hfirst := hv 0
    have hsecond := hv 1
    simp [mulVec, Finset.sum_range_succ, entry_ofRows] at hfirst hsecond
    interval_cases j
    · exact hfirst
    · exact hsecond
  · refine ext_entry rfl rfl fun i j (hi : i < 3) (hj : j < 1) => ?_
    interval_cases i <;> interval_cases j <;> simp [entry_product, Finset.sum_range_succ, entry_ofRows]
  · have htall : 2 ≤ 3 := by decide
    refine Checked.solve_of_illConditioned (checked_of_reflecting rfl one_le_two htall) ?_
    rw [← Bool.not_eq_true, Solver.Reflecting.wellConditioned_iff one_le_two htall]
    -- The two columns are stretched too differently for any bound that the judge may use.
    intro hcondition
    have hstretch := hcondition.stretch (fun k => if k = 0 then 1 else 0) fun k => if k = 0 then 0 else 1
    simp [sumSquares, mulVec, Finset.sum_range_succ, entry_ofRows] at hstretch
    norm_num at hstretch

end Matrix

end Georef

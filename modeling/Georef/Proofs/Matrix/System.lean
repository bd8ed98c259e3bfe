import Georef.Proofs.Matrix.Conditioning
import Georef.Proofs.Matrix.Elimination
import Georef.Proofs.Matrix.Sizes

/-!
# Solving linear systems over exact numbers

`Solver.Exact` says what the operations that solving relies on do where nothing is rounded: all numbers
are finite, the condition number is the true one, and the solution of a tall system is a least-squares one.
Elimination is not among them; that it finds the solution of a square system is proved.

## Key results

- `solve_sound`: what a solution is, if one is returned
- `exists_solve`: a system is solved if its condition number is not above the threshold
- `inverse_sound`: an inverse is a left inverse, and a right inverse too for a square matrix
-/

namespace Georef

/-- Nothing is rounded: the condition number and the least-squares solution are the true ones. -/
class Solver.Exact (K : Type) [Field K] [LinearOrder K] [Solver K] : Prop
    extends Solver.ExactPivots K where
  finite (x : K) : Solver.finite x = true
  wellConditioned_iff {a : Matrix K} : 1 ≤ a.cols → a.cols ≤ a.rows →
    (Solver.wellConditioned a = true ↔ a.ConditionAtMost (2 ^ 52))
  leastSquares {a b : Matrix K} : a.cols < a.rows → a.Independent → b.rows = a.rows →
    Matrix.LeastSquares a b (Solver.leastSquares a b)

namespace Matrix

/-! ## The equations of a system -/

section Equations

variable {K : Type} [Field K]

/-- `row` lists the entries of a row. -/
theorem getD_row (m : Matrix K) (i j : Nat) : (m.row i).getD j 0 = m.entry i j := by
  by_cases hj : j < m.cols
  · simp [row, hj]
  · rw [entry_of_cols_le (Nat.le_of_not_lt hj)]
    simp [row, hj]

/-- `Equation.dot` of a row is an entry of the product with a column. -/
theorem dot_row (m : Matrix K) (i : Nat) (x : List K) :
    Equation.dot (m.row i) x = m.mulVec (fun k => x.getD k 0) i := by
  have hlength : (m.row i).length = m.cols := by simp [row]
  rw [Equation.dot_eq_sum, hlength]
  exact Finset.sum_congr rfl fun k _ => by rw [getD_row]

/-- All `equations` of a system have as many coefficients and values. -/
theorem sized_equations (a b : Matrix K) : Equation.Sized a.cols b.cols (a.equations b) := by
  intro e he
  obtain ⟨i, -, rfl⟩ := List.mem_map.mp he
  simp [row]

/-- `equations` has an equation for each row. -/
theorem length_equations (a b : Matrix K) : (a.equations b).length = a.rows := by
  simp [equations]

/-- The equation of every row is among the `equations`. -/
theorem mem_equations (a b : Matrix K) {i : Nat} (hi : i < a.rows) :
    ⟨a.row i, b.row i⟩ ∈ a.equations b :=
  List.mem_map.mpr ⟨i, List.mem_range.mpr hi, rfl⟩

end Equations

variable {K : Type} [Field K] [LinearOrder K] [IsStrictOrderedRing K] [Solver K]
  {a b x : Matrix K}

/-- `Equation.eliminate` solves every square system with independent columns. -/
theorem exists_eliminate [Solver.ExactPivots K] (hsquare : a.rows = a.cols)
    (hb : b.rows = a.rows) (ha : a.Independent) :
    ∃ solution, Equation.eliminate a.cols (a.equations b) = .ok solution ∧
      a.product (ofRows a.cols b.cols solution) = b := by
  have hsized := sized_equations a b
  have hlength := (length_equations a b).trans hsquare
  cases h : Equation.eliminate a.cols (a.equations b) with
  | error fault =>
    -- The values that solve all equations with zeros on the right would be a column taken to zero.
    obtain ⟨x, hx, ⟨y, hy, hne⟩, hzero⟩ := Equation.exists_of_eliminate_eq_error hsized hlength h
    obtain ⟨k, hk, rfl⟩ := List.getElem_of_mem hy
    have hkernel (i : Nat) : a.mulVec (fun k => x.getD k 0) i = 0 := by
      by_cases hi : i < a.rows
      · rw [← dot_row]
        exact hzero _ (mem_equations a b hi)
      · exact mulVec_of_rows_le (Nat.le_of_not_lt hi) _
    refine absurd ?_ hne
    simpa [hk] using ha _ hkernel k (hx ▸ hk)
  | ok solution =>
    -- What elimination finds solves every equation, which says that the product is the right side,
    -- entry by entry.
    obtain ⟨hcount, -, hsolved⟩ := Equation.eliminate_sound hsized hlength h
    refine ⟨solution, rfl, ext_entry hb.symm rfl fun i c (hi : i < a.rows) (hc : c < b.cols) => ?_⟩
    have hrow := hsolved _ (mem_equations a b hi) c
    rw [dot_row, getD_row] at hrow
    rw [entry_product_eq_mulVec, ← hrow]
    refine congrFun (mulVec_congr fun k hk => ?_) i
    rw [entry_ofRows hk hc]
    simp [hcount, hk]

/-! ## Solutions -/

variable [Solver.Exact K]

/-- `solve` solves a system if it has no fewer equations than unknowns and its condition number is
    not above the threshold. The solution is a true one for a square system, and a least-squares one
    for a taller one. -/
theorem exists_solve (hb : b.rows = a.rows) (hcols : 1 ≤ a.cols) (htall : a.cols ≤ a.rows)
    (ha : a.ConditionAtMost (2 ^ 52)) :
    ∃ x, a.solve b = .ok x ∧ x.rows = a.cols ∧ x.cols = b.cols ∧
      (a.rows = a.cols → a.product x = b) ∧ (a.cols < a.rows → LeastSquares a b x) := by
  have hchecked : Checked a b :=
    ⟨hb, Nat.ne_of_gt hcols, htall, List.all_eq_true.mpr fun y _ => Solver.Exact.finite y⟩
  have hcondition := (Solver.Exact.wellConditioned_iff hcols htall).mpr ha
  by_cases hsquare : a.rows = a.cols
  · obtain ⟨solution, hsolution, hproduct⟩ := exists_eliminate hsquare hb ha.independent
    exact ⟨_, hchecked.solve_eq_ok hcondition (.elimination hsquare hsolution), rfl, rfl, fun _ => hproduct,
      fun h => absurd hsquare (Nat.ne_of_gt h)⟩
  · have hrows : a.cols < a.rows := Nat.lt_of_le_of_ne htall (Ne.symm hsquare)
    have hleast := Solver.Exact.leastSquares hrows ha.independent hb
    exact ⟨_, hchecked.solve_eq_ok hcondition (.leastSquares hsquare), hleast.rows_eq, hleast.cols_eq,
      fun h => absurd h hsquare, fun _ => hleast⟩

omit [IsStrictOrderedRing K] in
/-- What `solve` let through. -/
private theorem condition_of_solve (h : a.solve b = .ok x) :
    b.rows = a.rows ∧ 1 ≤ a.cols ∧ a.cols ≤ a.rows ∧ a.ConditionAtMost (2 ^ 52) := by
  obtain ⟨hchecked, hcondition, -⟩ := solve_eq_ok_iff.mp h
  have hcols : 1 ≤ a.cols := Nat.one_le_iff_ne_zero.mpr hchecked.cols_ne
  exact ⟨hchecked.rows_eq, hcols, hchecked.tall,
    (Solver.Exact.wellConditioned_iff hcols hchecked.tall).mp hcondition⟩

/-- If `solve` gives a solution, the condition number is not above the threshold, and the solution
    is a true one for a square system and a least-squares one for a taller one. -/
theorem solve_sound (h : a.solve b = .ok x) :
    b.rows = a.rows ∧ 1 ≤ a.cols ∧ a.cols ≤ a.rows ∧ a.ConditionAtMost (2 ^ 52) ∧
      x.rows = a.cols ∧ x.cols = b.cols ∧
      (a.rows = a.cols → a.product x = b) ∧ (a.cols < a.rows → LeastSquares a b x) := by
  obtain ⟨hb, hcols, htall, hcondition⟩ := condition_of_solve h
  -- The system has a solution with the properties, and there is only one result.
  obtain ⟨x', hx', hspec⟩ := exists_solve hb hcols htall hcondition
  obtain rfl : x' = x := Except.ok.inj (hx'.symm.trans h)
  exact ⟨hb, hcols, htall, hcondition, hspec⟩

/-- Nothing that is solved exactly has a solution of the wrong size. -/
instance : Solver.Sized K where
  size_solve h := by
    obtain ⟨-, -, -, -, hrows, hcols, -⟩ := solve_sound h
    exact ⟨hrows, hcols⟩

/-! ## Inverses -/

/-- What `inverse` gives is a left inverse. That of a square matrix is a right inverse too, and its
    condition number is not above the threshold either. -/
theorem inverse_sound (h : a.inverse = .ok x) :
    x.rows = a.cols ∧ x.cols = a.rows ∧ x.product a = eye a.cols a.cols ∧
      (a.rows = a.cols → a.product x = eye a.rows a.rows ∧ x.ConditionAtMost (2 ^ 52)) := by
  obtain ⟨-, -, htall, hcondition, hrows, hcols, hsquare, htaller⟩ := solve_sound h
  refine ⟨hrows, hcols, ?_, fun heq => ⟨hsquare heq, ?_⟩⟩
  -- A taller system is solved in the sense of least squares, which for an identity gives a left inverse.
  · obtain hlt | heq := Nat.lt_or_eq_of_le htall
    · exact (htaller hlt).leftInverse hcondition.independent
    · exact hcondition.independent.leftInverse hrows (hsquare heq.symm)
  · exact hcondition.of_inverse rfl heq.symm (hrows.trans heq.symm) hcols (hsquare heq)

/-- `inverse` finds the inverse of a square matrix if its condition number is not above the
    threshold. -/
theorem exists_inverse (hsquare : a.rows = a.cols) (hcols : 1 ≤ a.cols)
    (ha : a.ConditionAtMost (2 ^ 52)) : ∃ x, a.inverse = .ok x := by
  obtain ⟨x, hx, -⟩ := exists_solve (a := a) (b := eye a.rows a.rows) rfl hcols
    (Nat.le_of_eq hsquare.symm) ha
  exact ⟨x, hx⟩

end Matrix

end Georef

import Georef.Matrix.System

/-!
# What is checked before a system is solved

The sizes of the two sides are compared first, whatever their numbers, then the sizes of the system, its numbers and
its condition. This file says what each check leads to, for any numbers and any solver. What elimination and the
least-squares solution do is left open.

## Key results

- `solve_eq_ok_iff`: what is solved has passed the checks, and in which way it is solved
- `failure_of_solve`: the failures of what is not solved
- `isMismatch_of_solve_iff`: sizes do not fit exactly if the two sides differ in their rows
-/

namespace Georef

/-- The failure is that sizes do not fit. -/
def Failure.isMismatch : Failure → Bool
  | productSize .. | systemSize .. | pointShape .. | pointsShape .. | destinationShape .. | chainDimensions .. => true
  | _ => false

namespace Matrix

open Equation (eliminate)

variable {α : Type} [Zero α] [One α] [Sub α] [Mul α] [Div α] [BEq α] [Solver α] {a b x : Matrix α}

/-! ## Systems that pass -/

/-- The system passes all checks that come before that of its condition number. -/
structure Checked (a b : Matrix α) : Prop where
  rows_eq : b.rows = a.rows
  cols_ne : a.cols ≠ 0
  tall : a.cols ≤ a.rows
  finite : a.elements.toList.all Solver.finite = true

/-- The ways to solve a system that has passed all checks. -/
inductive SolvedBy (a b : Matrix α) : Matrix α → Prop
  | elimination {solution : List (List α)} (hsquare : a.rows = a.cols)
      (h : eliminate a.cols (a.equations b) = .ok solution) : SolvedBy a b (ofRows a.cols b.cols solution)
  | tinyPivot {x : Matrix α} (hsquare : a.rows = a.cols) (h : eliminate a.cols (a.equations b) = .error .tiny)
      (hx : Solver.solveTiny? a b = some x) : SolvedBy a b x
  | leastSquares (hne : a.rows ≠ a.cols) : SolvedBy a b (Solver.leastSquares a b)

namespace Checked

omit [Zero α] [One α] [Sub α] [Mul α] [Div α] [BEq α] in
private theorem not_fails (h : Checked a b) :
    ¬(decide (a.rows < a.cols) || !a.elements.toList.all Solver.finite) = true := by
  rw [h.finite, Bool.not_true, Bool.or_false, decide_eq_true_eq]
  exact Nat.not_lt.mpr h.tall

/-- `solve` looks at the condition number last, and refuses one above the threshold. -/
theorem solve_of_illConditioned (h : Checked a b) (hcondition : Solver.wellConditioned a = false) :
    a.solve b = .error (.illConditioned a.rows a.cols) := by
  rw [solve, if_neg (Decidable.not_not.mpr h.rows_eq), if_neg h.not_fails, if_neg h.cols_ne, hcondition]
  rfl

/-- What has passed all checks and is solved in one of the ways of `SolvedBy` is what `solve` gives. -/
theorem solve_eq_ok (h : Checked a b) (hcondition : Solver.wellConditioned a = true) (hx : SolvedBy a b x) :
    a.solve b = .ok x := by
  rw [solve, if_neg (Decidable.not_not.mpr h.rows_eq), if_neg h.not_fails, if_neg h.cols_ne, hcondition, if_neg (by decide)]
  cases hx with
  | elimination hsquare hsolution => rw [if_pos hsquare, hsolution]
  | tinyPivot hsquare htiny hx => rw [if_pos hsquare, htiny]; simp only [hx]
  | leastSquares hne => rw [if_neg hne]

end Checked

/-- What `solve` gives has passed the checks, and is solved in one of the ways. -/
theorem solve_eq_ok_iff :
    a.solve b = .ok x ↔ Checked a b ∧ Solver.wellConditioned a = true ∧ SolvedBy a b x := by
  refine ⟨fun h => ?_, fun ⟨hchecked, hcondition, hx⟩ => hchecked.solve_eq_ok hcondition hx⟩
  -- The checks are peeled off one after the other; a check that fails gives no solution.
  unfold solve at h
  split at h
  · cases h
  rename_i hrows
  split at h
  · cases h
  rename_i hnumbers
  split at h
  · cases h
  rename_i hcols
  split at h
  · cases h
  rename_i hcondition
  rw [Bool.or_eq_true, decide_eq_true_eq, not_or, Nat.not_lt, Bool.not_eq_true', Bool.not_eq_false] at hnumbers
  rw [Bool.not_eq_true', Bool.not_eq_false] at hcondition
  refine ⟨⟨Decidable.not_not.mp hrows, hcols, hnumbers.1, hnumbers.2⟩, hcondition, ?_⟩
  split at h
  · -- Square systems are solved by elimination, unless it meets a tiny pivot.
    rename_i hsquare
    split at h
    · obtain rfl := Except.ok.inj h
      exact .elimination hsquare ‹_›
    · cases h
    · split at h
      · obtain rfl := Except.ok.inj h
        exact .tinyPivot hsquare ‹_› ‹_›
      · cases h
  · obtain rfl := Except.ok.inj h
    exact .leastSquares ‹_›

/-! ## Systems that fail -/

/-- Why `solve` fails: the sides do not fit, there are no columns, or there is no solution or more
    than one. -/
theorem failure_of_solve {e : Failure} (h : a.solve b = .error e) :
    (b.rows ≠ a.rows ∧ e = .systemSize a.rows a.cols b.rows b.cols) ∨
      (b.rows = a.rows ∧ a.cols = 0 ∧ e = .emptySystem) ∨
      (b.rows = a.rows ∧
        (e = .noUniqueSolution a.rows a.cols ∨ e = .illConditioned a.rows a.cols ∨ e = .zeroPivot)) := by
  unfold solve at h
  -- One case for each check, in the order in which they are made.
  split at h
  · exact .inl ⟨‹_›, (Except.error.inj h).symm⟩
  rename_i hrows
  refine .inr ?_
  split at h
  · exact .inr ⟨Decidable.not_not.mp hrows, .inl (Except.error.inj h).symm⟩
  split at h
  · exact .inl ⟨Decidable.not_not.mp hrows, ‹_›, (Except.error.inj h).symm⟩
  refine .inr ⟨Decidable.not_not.mp hrows, .inr ?_⟩
  split at h
  · exact .inl (Except.error.inj h).symm
  refine .inr ?_
  split at h
  · split at h
    · cases h
    · exact (Except.error.inj h).symm
    · split at h
      · cases h
      · exact (Except.error.inj h).symm
  · cases h

/-- `solve` reports sizes that do not fit exactly if the two sides differ in their rows, whatever
    their numbers. -/
theorem isMismatch_of_solve_iff : (∃ e, a.solve b = .error e ∧ e.isMismatch = true) ↔ b.rows ≠ a.rows := by
  refine ⟨fun ⟨e, he, hmismatch⟩ => ?_, fun hne => ⟨_, if_pos hne, rfl⟩⟩
  obtain ⟨hne, -⟩ | ⟨-, -, rfl⟩ | ⟨-, rfl | rfl | rfl⟩ := failure_of_solve he
  · exact hne
  all_goals cases hmismatch

/-- `solve` finds no unique solution of a system with fewer equations than unknowns. -/
theorem solve_of_wide (hb : b.rows = a.rows) (hwide : a.rows < a.cols) :
    a.solve b = .error (.noUniqueSolution a.rows a.cols) := by
  unfold solve
  rw [if_neg (Decidable.not_not.mpr hb), if_pos]
  rw [decide_eq_true hwide]
  rfl

end Matrix

end Georef

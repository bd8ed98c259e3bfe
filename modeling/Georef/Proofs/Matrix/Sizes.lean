import Georef.Proofs.Matrix.Checks

/-!
# Sizes of solutions

However a linear system is solved, the solution has a row for each unknown and a column for each right
side. `Solver.Sized` says so for any numbers; it is what the dimensions of an inverse rest on, for doubles
with all their ways of solving as well as for exact numbers.

Main statement: `Matrix.size_inverse`, the inverse of a matrix has rows and columns exchanged.
-/

namespace Georef

/-- A solution has a row for each unknown and a column for each right side. -/
class Solver.Sized (α : Type) [Zero α] [One α] [Add α] [Sub α] [Mul α] [Div α] [BEq α] [Solver α] :
    Prop where
  size_solve {a b x : Matrix α} : a.solve b = .ok x → x.rows = a.cols ∧ x.cols = b.cols

namespace TinyPivot

/-- `TinyPivot.solve?` gives solutions of the right size only. -/
theorem size_solve? {a b x : Matrix Double} (h : solve? a b = some x) :
    x.rows = a.cols ∧ x.cols = b.cols := by
  obtain ⟨f, -, rfl⟩ := Option.map_eq_some_iff.mp h
  exact ⟨rfl, rfl⟩

end TinyPivot

namespace NumericalRank

/-- `NumericalRank.leastSquares` always gives a solution of the right size. -/
theorem size_leastSquares (a b : Matrix Double) :
    (leastSquares a b).rows = a.cols ∧ (leastSquares a b).cols = b.cols := by
  unfold leastSquares
  split
  · exact ⟨rfl, rfl⟩
  · -- Scaling changes no size, whichever of the two solutions is taken.
    dsimp only
    split
    · exact ⟨rfl, rfl⟩
    · exact ⟨rfl, rfl⟩

end NumericalRank

instance : Solver.Sized Double where
  size_solve {a b x} h := by
    obtain ⟨-, -, hx⟩ := Matrix.solve_eq_ok_iff.mp h
    cases hx with
    | elimination => exact ⟨rfl, rfl⟩
    | tinyPivot _ _ htiny => exact TinyPivot.size_solve? htiny
    | leastSquares => exact NumericalRank.size_leastSquares a b

/-- An inverse has rows and columns exchanged, with any solver that is `Solver.Sized`. -/
theorem Matrix.size_inverse {α : Type} [Zero α] [One α] [Add α] [Sub α] [Mul α] [Div α] [BEq α]
    [Solver α] [Solver.Sized α] {a x : Matrix α} (h : a.inverse = .ok x) :
    x.rows = a.cols ∧ x.cols = a.rows :=
  Solver.Sized.size_solve h

end Georef

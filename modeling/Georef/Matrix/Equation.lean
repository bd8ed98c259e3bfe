import Georef.Matrix.Basic

/-!
# Linear equations

An equation holds its coefficients, one for each unknown, and its values, one for each right side. In
a triangular system each equation lacks the unknowns of those before it, so the unknowns are found
from the last one to the first.
-/

namespace Georef

/-- One equation for every right side: the coefficients of the unknowns and the values. -/
structure Equation (α : Type) where
  coefficients : List α
  values : List α

variable {α : Type} [Zero α] [One α] [Sub α] [Mul α] [Div α]

namespace Equation

/-- Coefficient of the first unknown; zero if there are none. -/
def leading (e : Equation α) : α := e.coefficients.headD 0

/-- `u - factor * v`, element by element. -/
def subtractMultiple (factor : α) (u v : List α) : List α :=
  List.zipWith (fun x y => x - factor * y) u v

/-- Divides the values of an equation by a coefficient; several right sides share its reciprocal. -/
def divideValues (coefficient : α) : List α → List α
  | [value] => [value / coefficient]
  | values => values.map (· * (1 / coefficient))

/-- The values of the first unknown, given those of all further unknowns, of which the last one is
    taken away first by `subtractMultiple`. -/
def resolve (e : Equation α) (solution : List (List α)) : List α :=
  divideValues e.leading ((List.zip e.coefficients.tail solution).foldr
    (fun (u, x) values => subtractMultiple u values x) e.values)

/-- The values of each unknown of a triangular system, one per right side, from the last unknown to
    the first by `resolve`. -/
def solveTriangular : List (Equation α) → List (List α)
  | [] => []
  | e :: rest =>
    let solution := solveTriangular rest
    e.resolve solution :: solution

end Equation

/-- The equations of a system, row by row. -/
def Matrix.equations (a b : Matrix α) : List (Equation α) :=
  (List.range a.rows).map fun i => ⟨a.row i, b.row i⟩

end Georef

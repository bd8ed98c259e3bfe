import Georef.Matrix.Conditioning
import Georef.Matrix.NumericalRank
import Georef.Matrix.TinyPivot

/-!
# Linear systems

`Matrix.solve` finds `x` with `a * x = b`. Square systems are solved by elimination with row
exchanges, always on the largest coefficient of the column, which must not be too small to have a
reciprocal; numbers for which it may be have a way of their own. Systems with more equations than
unknowns are solved in the sense of least squares, as far as their numbers allow.
-/

namespace Georef

/-- What solving linear systems asks of numbers besides their arithmetic. -/
class Solver (α : Type) where
  /-- The number is an ordinary one. -/
  finite : α → Bool
  /-- The first number is smaller than the second, signs apart. -/
  smaller : α → α → Bool
  /-- The number is large enough for its reciprocal to be a number. -/
  hasReciprocal : α → Bool
  /-- The solution of a square system with a pivot that is neither zero nor has a reciprocal, unless
  another pivot turns out to be zero. -/
  solveTiny? : Matrix α → Matrix α → Option (Matrix α)
  /-- The matrix is safely away from those without full column rank. -/
  wellConditioned : Matrix α → Bool
  /-- The least-squares solution of a system with more equations than unknowns. -/
  leastSquares : Matrix α → Matrix α → Matrix α

instance : Solver Double where
  finite := Double.isFinite
  smaller x y := x.abs < y.abs
  hasReciprocal := Double.isNormal
  solveTiny? := TinyPivot.solve?
  wellConditioned := Conditioning.wellConditioned
  leastSquares := NumericalRank.leastSquares

variable {α : Type} [Zero α] [One α] [Add α] [Sub α] [Mul α] [Div α] [BEq α]

/-! ## Elimination -/

namespace Equation

/-- Place of the first equation whose leading coefficient is largest; `best` at `place` is the
largest so far, `next` the place of the next equation. -/
def pivotPlace [Solver α] (best : α) (place next : Nat) : List (Equation α) → Nat
  | [] => place
  | e :: rest =>
    if Solver.smaller best e.leading then pivotPlace e.leading next (next + 1) rest
    else pivotPlace best place (next + 1) rest

/-- The equation with the largest leading coefficient, by `pivotPlace`, and the others with the
    first equation put in its place. -/
def exchangePivot [Solver α] : List (Equation α) → Option (Equation α × List (Equation α))
  | [] => none
  | first :: rest =>
    match pivotPlace first.leading 0 1 rest with
    | 0 => some (first, rest)
    | place + 1 => (rest[place]?).map fun pivot => (pivot, rest.set place first)

/-- The equation `e` without its first unknown, which the pivot equation removes. The reciprocal of
    the pivot is the same for all equations. -/
def reduce (pivot e : Equation α) : Equation α :=
  let factor := e.leading * (1 / pivot.leading)
  ⟨subtractMultiple factor e.coefficients.tail pivot.coefficients.tail,
    subtractMultiple factor e.values pivot.values⟩

/-- Why elimination stops: the largest coefficient of a column is of no use as a pivot. -/
inductive PivotFault where
  | zero
  /-- It is not zero, but has no reciprocal. -/
  | tiny

/-- Solves as many equations as there are unknowns: the values of each unknown, one per right side.
    Each step keeps one equation for the unknown that the others lose by `reduce`. -/
def eliminate [Solver α] : Nat → List (Equation α) → Except PivotFault (List (List α))
  | 0, _ => .ok []
  | unknowns + 1, equations =>
    match exchangePivot equations with
    | none => .error .zero
    | some (pivot, rest) =>
      if pivot.leading == 0 then .error .zero
      else if !Solver.hasReciprocal pivot.leading then .error .tiny
      else do
        let solution ← eliminate unknowns (rest.map (reduce pivot))
        return resolve pivot solution :: solution

end Equation

namespace Matrix

/-- The matrix `x` with `a * x = b`: exact for a square `a`, least squares for a taller one. -/
def solve [Solver α] (a b : Matrix α) : Except Failure (Matrix α) :=
  -- The sizes come first, then what the numbers allow; the condition number is looked at last.
  if b.rows ≠ a.rows then .error (.systemSize a.rows a.cols b.rows b.cols)
  else if a.rows < a.cols || !a.elements.toList.all Solver.finite then
    .error (.noUniqueSolution a.rows a.cols)
  else if a.cols = 0 then .error .emptySystem
  else if !Solver.wellConditioned a then .error (.illConditioned a.rows a.cols)
  else if a.rows = a.cols then
    match Equation.eliminate a.cols (a.equations b) with
    | .ok solution => .ok (ofRows a.cols b.cols solution)
    | .error .zero => .error .zeroPivot
    | .error .tiny =>
      match Solver.solveTiny? a b with
      | some solution => .ok solution
      | none => .error .zeroPivot
  else .ok (Solver.leastSquares a b)

/-- The inverse of a square matrix, or the least-squares inverse of a taller one: `solve` for the
    identity. -/
def inverse [Solver α] (a : Matrix α) : Except Failure (Matrix α) :=
  a.solve (eye a.rows a.rows)

end Matrix

end Georef

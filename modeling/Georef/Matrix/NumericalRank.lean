import Georef.Matrix.SingularValues

/-!
# Numerical rank

The columns of a matrix may be independent and yet so close to dependence that rounding hides it. The
singular values tell how close: those that are tiny beside the largest one count as zero.

`NumericalRank.leastSquares` solves a system of doubles in the sense of least squares. If all singular
values count, the columns are taken as independent. If not, or if that ends in numbers that are not
finite, the solution is the sum over the singular values that count: the smallest of those that are as
good, and an infinity or a NaN is felt wherever it takes part.
-/

namespace Georef

instance : Euclidean Double := ⟨Double.lengthOf, Double.negative⟩

namespace NumericalRank

open LeastSquares (productSum)

/-- The distance from one to the next larger number, 2^-52. -/
def precision : Double := (2.220446049250313e-16 : Double)

/-! ## Scaling -/

/-- The largest number, signs apart. -/
def largest (xs : List Double) : Double :=
  (xs.map (·.abs)).foldl (fun a x => if a < x then x else a) 0

/-- The exponent of the least power of two above all numbers; zero if one of them is not finite. -/
def exponentOf (m : Matrix Double) : Int :=
  let elements := m.elements.toList
  if elements.all (·.isFinite) then (largest elements).binaryExponent else 0

/-- All numbers times the power of two with the exponent. -/
def rescaled (m : Matrix Double) (exponent : Int) : Matrix Double := m.map fun x => x.scaled exponent

/-- Matrices with numbers of this size can be solved as they are: up to 2^970, and down to 2^-970. -/
def greatestExponent : Int := 970

/-- The power of two that takes a matrix to where it can be solved, within `greatestExponent`. -/
def shiftOf (m : Matrix Double) : Int :=
  let exponent := exponentOf m
  if greatestExponent < exponent then greatestExponent - exponent
  else if exponent < -greatestExponent then -greatestExponent - exponent
  else 0

/-! ## Solutions -/

/-- Singular values up to this one count as zero, for a system with the given count of equations. -/
def cutoff (equations : Nat) (rows : List SingularRow) : Double :=
  precision * Double.ofInt equations * largest (rows.map (·.diagonal))

/-- The singular value of `r` counts, being above the `cutoff`. A single one always does. -/
def counts (equations : Nat) (rows : List SingularRow) (r : SingularRow) : Bool :=
  rows.length = 1 || cutoff equations rows < r.diagonal.abs

/-- How much of its direction a row contributes for each right side: nothing if it does not count by
    `counts`. -/
def sharesOf (equations : Nat) (rows : List SingularRow) (r : SingularRow) : List Double :=
  r.values.map fun x => if counts equations rows r then x / r.diagonal else 0

/-- The unknowns for right side `l`: the sum of all directions, each with its share. -/
def combine (unknowns : Nat) (directions shares : List (List Double)) (l : Nat) : List Double :=
  (List.range unknowns).map fun j =>
    productSum (directions.map (·.getD j 0)) (shares.map (·.getD l 0))

/-- A system whose coefficients are below one, with its matrix made diagonal. -/
structure Decomposition where
  system : Bidiagonal Double
  rows : List SingularRow

/-- The decomposition of a system of moderate coefficients. -/
def Decomposition.of (a b : Matrix Double) : Decomposition :=
  let system := Bidiagonal.ofSystem a b
  ⟨system, SingularValues.ofBidiagonal system.rows⟩

/-- The sum over the singular values that count, times a power of two. That is taken before the unknowns
are reflected back, as an infinity that it leads to takes part in the reflections. -/
def Decomposition.solve (d : Decomposition) (a b : Matrix Double) (exponent : Int) : Matrix Double :=
  let shares := d.rows.map (sharesOf a.rows d.rows)
  let unknowns := (List.range b.cols).map fun l =>
    let sums := combine a.cols (d.rows.map (·.direction)) shares l
    Bidiagonal.restore d.system.reflections (sums.map fun x => x.scaled exponent)
  .ofColumns a.cols b.cols unknowns

/-- The solution by `Matrix.leastSquares` of a system whose columns are independent, with both sides
    `rescaled` so that no product overflows or vanishes. -/
def solveIndependent (a b : Matrix Double) : Matrix Double :=
  let exponent := exponentOf a
  let sideExponent := exponentOf b
  rescaled ((rescaled a (-exponent)).leastSquares (rescaled b (-sideExponent)))
    (sideExponent - exponent)

/-- No number at all is left of right sides that hold an infinity but no NaN, as their scale is infinite.
-/
def drowns (sides : Matrix Double) : Bool :=
  sides.elements.any (·.isInfinite) && !sides.elements.any (·.isNaN)

/-- The least-squares solution of a system of finite coefficients with more equations than unknowns. -/
def leastSquares (a b : Matrix Double) : Matrix Double :=
  if drowns b then .ofFn a.cols b.cols fun _ _ => Double.invalid
  else
    let exponent := exponentOf a
    let moderate := rescaled a (-exponent)
    let sideShift := shiftOf b
    let d := Decomposition.of moderate (rescaled b sideShift)
    let solution := solveIndependent a b
    -- Reflections do if all singular values count; otherwise the values that do are summed over.
    if d.rows.all (counts a.rows d.rows) && solution.elements.all (·.isFinite) then solution
    else
      let shift := shiftOf a
      rescaled (d.solve moderate b (-exponent - shift)) (shift - sideShift)

end NumericalRank

end Georef

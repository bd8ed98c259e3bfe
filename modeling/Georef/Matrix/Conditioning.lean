import Georef.Matrix.Basic

/-!
# Condition numbers

The condition number of a matrix is the ratio of its largest to its smallest singular value. The
singular values are the square roots of the eigenvalues of the Gram matrix, so they can be compared
with any number by an exact test for positive definiteness in integer arithmetic; a binary search
over the doubles then gives each of the two rounded to a double. A diagonal matrix has the absolute
values of its diagonal as singular values, exactly.
-/

namespace Georef

namespace Conditioning

/-- The product of two lists of integers. -/
def dot (u v : List Int) : Int := (List.zipWith (· * ·) u v).foldl (· + ·) 0

/-- The greatest common divisor of all elements. -/
def content (rows : List (List Int)) : Nat :=
  rows.foldl (fun g row => row.foldl (fun g x => Nat.gcd g x.natAbs) g) 0

/-- All elements divided by their `content`, which keeps the numbers small. -/
def primitivePart (rows : List (List Int)) : List (List Int) :=
  let g := content rows
  rows.map fun row => row.map (· / (g : Int))

/-- What is left of a symmetric matrix after eliminating its first row and column, up to the factor
`pivot`: `pivot * m - b * bᵀ` for the first row `pivot :: b`. -/
def schurComplement (pivot : Int) (b : List Int) (rest : List (List Int)) : List (List Int) :=
  rest.map fun row =>
    match row with
    | [] => []
    | first :: tail => List.zipWith (fun x y => pivot * x - first * y) tail b

/-- A symmetric matrix of the given size is positive definite: the pivots of elimination by
    `schurComplement` are all positive. -/
def positiveDefinite : Nat → List (List Int) → Bool
  | 0, _ => true
  | size + 1, rows =>
    match primitivePart rows with
    | (pivot :: b) :: rest => 0 < pivot && positiveDefinite size (schurComplement pivot b rest)
    | _ => false

/-- The Gram matrix of a list of columns. -/
def gram (columns : List (List Int)) : List (List Int) :=
  columns.map fun u => columns.map (dot u)

/-- `scale * m + shift` times the identity. -/
def shifted (scale shift : Int) (m : List (List Int)) : List (List Int) :=
  m.zipIdx.map fun (row, i) => row.zipIdx.map fun (x, j) =>
    scale * x + if i = j then shift else 0

/-- Twice the number of units half-way between a magnitude and its predecessor. -/
def midpoint (magnitude : Nat) : Int :=
  Double.unitsOfMagnitude magnitude + Double.unitsOfMagnitude (magnitude - 1)

/-- All singular values of columns with the Gram matrix `g` lie above the `midpoint` below the
    magnitude. -/
def allAbove (g : List (List Int)) (magnitude : Nat) : Bool :=
  positiveDefinite g.length (shifted 4 (-(midpoint magnitude * midpoint magnitude)) g)

/-- All singular values lie below the `midpoint`. -/
def allBelow (g : List (List Int)) (magnitude : Nat) : Bool :=
  positiveDefinite g.length (shifted (-4) (midpoint magnitude * midpoint magnitude) g)

/-- The largest number below `base + 2 ^ bits` up to which `holds` stays true, from `base` on. -/
def lastTrue (holds : Nat → Bool) : Nat → Nat → Nat
  | 0, base => base
  | bits + 1, base =>
    if holds (base + powerOfTwo bits) then lastTrue holds bits (base + powerOfTwo bits)
    else lastTrue holds bits base

/-- The smallest singular value, rounded to a magnitude: the last one that all are above. -/
def smallestMagnitude (g : List (List Int)) : Nat :=
  min (lastTrue (allAbove g) 63 0) Double.infinityMagnitude

/-- The largest singular value, rounded to a magnitude: the last one that not all are below. -/
def largestMagnitude (g : List (List Int)) : Nat :=
  min (lastTrue (fun magnitude => !allBelow g magnitude) 63 0) Double.infinityMagnitude

/-- Columns in units, to compare singular values exactly. -/
def unitColumns (m : Matrix Double) : List (List Int) :=
  (List.range m.cols).map fun j => (m.column j).map (·.units)

/-- The condition number of a matrix of finite doubles with at least one column: the quotient of the
largest and the smallest singular value, both rounded to doubles. -/
def conditionNumber (m : Matrix Double) : Double :=
  let g := gram (unitColumns m)
  -- Both searches end below the bound; the test only carries that fact into the types.
  let largest := largestMagnitude g
  let smallest := smallestMagnitude g
  if h : largest < magnitudeBound ∧ smallest < magnitudeBound then
    ⟨false, largest, h.1⟩ / ⟨false, smallest, h.2⟩
  else Double.quietNaN false

/-- The largest condition number of a matrix that counts as invertible, 2^52. -/
def threshold : Double := (4503599627370496.0 : Double)

/-- `conditionNumber` of a matrix of finite doubles is not above the `threshold`. Zero over zero
    counts as infinite. -/
def wellConditioned (m : Matrix Double) : Bool :=
  let condition := conditionNumber m
  condition.isFinite && condition ≤ threshold

end Conditioning

end Georef

import Georef.Matrix.Equation

/-!
# Least squares

For a system with more equations than unknowns there are, in general, no values of the unknowns that
meet all of them. `Matrix.leastSquares` finds those for which the equations fail least, in the sense of
the sum of squares. Reflections, which keep all lengths, make the system triangular; what they leave of
the right sides below the triangle is what no values of the unknowns can account for. The columns of
the system have to be linearly independent.
-/

namespace Georef

/-- What taking lengths asks of numbers. -/
class Euclidean (α : Type) where
  /-- The length of a list of numbers as a vector: the square root of the sum of the squares. -/
  lengthOf : List α → α
  /-- The number has a minus sign. -/
  isNegative : α → Bool

/-- A reflection that takes a column to a multiple of the first unit vector. -/
structure Reflection (α : Type) where
  /-- The normal of the plane of reflection without the zeros at its end; its first element is one. -/
  normal : List α
  /-- How many normals are taken away for each unit along the normal. -/
  factor : α
  /-- The first element of the image of the column. -/
  image : α

variable {α : Type} [Zero α] [One α] [Add α] [Neg α] [Sub α] [Mul α] [Div α] [BEq α] [Euclidean α]

namespace LeastSquares

/-- Sum of products, added in order. -/
def productSum (u v : List α) : α := (List.zipWith (· * ·) u v).foldl (· + ·) 0

/-- The list without the zeros at its end. -/
def dropTrailingZeros (u : List α) : List α := (u.reverse.dropWhile (· == 0)).reverse

end LeastSquares

namespace Reflection

open LeastSquares (productSum dropTrailingZeros)

/-- The reflection for a column, if anything but its first element is to vanish. The image has the
other sign than the first element, so that nothing cancels. -/
def ofColumn? : List α → Option (Reflection α)
  | [] => none
  | first :: rest =>
    if Euclidean.lengthOf rest == 0 then none
    else
      let whole := Euclidean.lengthOf (first :: rest)
      let image := if Euclidean.isNegative first then whole else -whole
      let scale := 1 / (first - image)
      some ⟨1 :: dropTrailingZeros (rest.map (· * scale)), (image - first) / image, image⟩

/-- The image of a column under `r`. What stands behind the end of the normal stays as it is. -/
def apply (r : Reflection α) (column : List α) : List α :=
  Equation.subtractMultiple (r.factor * productSum r.normal column) (column.take r.normal.length)
    r.normal ++ column.drop r.normal.length

/-- What a reflection makes of a list, if there is a reflection. -/
def applyIfAny (r : Option (Reflection α)) (u : List α) : List α := (r.map fun r => r.apply u).getD u

/-- The first element of a list that a reflection was made for, as the reflection leaves it. -/
def leadingImage (r : Option (Reflection α)) (u : List α) : α := (r.map (·.image)).getD (u.headD 0)

end Reflection

namespace LeastSquares

/-- Makes a system triangular, given by its columns and right sides. Each step makes the first
    column vanish but for its first element (`leadingImage`), and goes on without its row. -/
def triangulate : List (List α) → List (List α) → List (Equation α)
  | [], _ => []
  | column :: columns, sides =>
    let reflection := Reflection.ofColumn? column
    let leading := Reflection.leadingImage reflection column
    let columns := columns.map (Reflection.applyIfAny reflection)
    let sides := sides.map (Reflection.applyIfAny reflection)
    ⟨leading :: columns.map (·.headD 0), sides.map (·.headD 0)⟩ ::
      triangulate (columns.map List.tail) (sides.map List.tail)
termination_by columns => columns.length
decreasing_by simp

end LeastSquares

/-- The triangular system that a system with more equations than unknowns comes down to. -/
def Matrix.triangle (a b : Matrix α) : List (Equation α) :=
  LeastSquares.triangulate a.columnList b.columnList

/-- The least-squares solution of a system with linearly independent columns: that of its
    `triangle`. -/
def Matrix.leastSquares (a b : Matrix α) : Matrix α :=
  ofRows a.cols b.cols (Equation.solveTriangular (a.triangle b))

end Georef

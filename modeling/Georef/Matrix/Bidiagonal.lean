import Georef.Matrix.LeastSquares

/-!
# Bidiagonal systems

Reflections of the equations make a system triangular. Reflections of the unknowns in between go further:
each equation keeps its first two unknowns only. A solution of the bidiagonal system becomes one of the
first system by the reflections of the unknowns, the last one first.
-/

namespace Georef

/-- An equation of a bidiagonal system. -/
structure BidiagonalRow (α : Type) where
  /-- The coefficient of the first unknown. -/
  diagonal : α
  /-- The coefficient of the second unknown; nothing depends on it in the last equation. -/
  above : α
  /-- The values, one for each right side. -/
  values : List α

/-- A system in bidiagonal form. -/
structure Bidiagonal (α : Type) where
  rows : List (BidiagonalRow α)
  /-- For each unknown, the reflection of all unknowns behind it. -/
  reflections : List (Option (Reflection α))

variable {α : Type} [Zero α] [One α] [Add α] [Neg α] [Sub α] [Mul α] [Div α] [BEq α] [Euclidean α]

namespace Bidiagonal

/-- The columns after a function was applied to every row. -/
def mapRows (f : List α → List α) (columns : List (List α)) : List (List α) :=
  let rows := (List.range (columns.headD []).length).map fun i => f (columns.map (·.getD i 0))
  (List.range columns.length).map fun j => rows.map (·.getD j 0)

omit [One α] [Add α] [Neg α] [Sub α] [Mul α] [Div α] [BEq α] [Euclidean α] in
@[simp] theorem length_mapRows (f : List α → List α) (columns : List (List α)) :
    (mapRows f columns).length = columns.length := by
  simp [mapRows]

/-- Makes a system bidiagonal, given by its columns and right sides. -/
def ofColumns : List (List α) → List (List α) → Bidiagonal α
  | [], _ => ⟨[], []⟩
  | column :: columns, sides =>
    let left := Reflection.ofColumn? column
    let columns := columns.map (Reflection.applyIfAny left)
    let sides := sides.map (Reflection.applyIfAny left)
    let top := columns.map (·.headD 0)
    let right := Reflection.ofColumn? top
    let rest := ofColumns (mapRows (Reflection.applyIfAny right) (columns.map List.tail))
      (sides.map List.tail)
    ⟨⟨Reflection.leadingImage left column, Reflection.leadingImage right top, sides.map (·.headD 0)⟩ ::
      rest.rows, right :: rest.reflections⟩
termination_by columns => columns.length
decreasing_by simp

/-- The values of the unknowns of the first system for those of the bidiagonal one. -/
def restore : List (Option (Reflection α)) → List α → List α
  | right :: reflections, x :: unknowns =>
    x :: Reflection.applyIfAny right (restore reflections unknowns)
  | _, unknowns => unknowns

/-- Column `j` of a triangular system, with zeros below the diagonal. -/
def triangleColumn (system : List (Equation α)) (j : Nat) : List α :=
  system.zipIdx.map fun (e, i) => if j < i then 0 else e.coefficients.getD (j - i) 0

/-- The bidiagonal form of a system with at least as many equations as unknowns. One with many more
equations is made triangular first. -/
def ofSystem (a b : Matrix α) : Bidiagonal α :=
  if 8 * a.cols / 5 ≤ a.rows then
    let system := a.triangle b
    ofColumns ((List.range a.cols).map (triangleColumn system))
      ((List.range b.cols).map fun l => system.map fun e => e.values.getD l 0)
  else ofColumns a.columnList b.columnList

end Bidiagonal

end Georef

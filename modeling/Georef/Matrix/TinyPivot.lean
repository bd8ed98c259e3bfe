import Georef.Double.Arithmetic
import Georef.Matrix.LeastSquares

/-!
# Systems with tiny pivots

A number below 2^-1022 has lost some of its bits, and its reciprocal may be infinite. Elimination works
column by column here, and leaves a column with such a pivot as it stands: its entries are not divided,
and the exchange of rows that puts the pivot in its place is only made in the columns that follow and in
the right sides.
-/

namespace Georef

/-- A square matrix after elimination. -/
structure Factors where
  /-- In each row the multiples of the rows before, and from the diagonal on what is left. -/
  rows : List (List Double)
  /-- For each row from the first one on, the row that it was exchanged with. -/
  exchanges : List Nat

namespace Factors

open LeastSquares (productSum)

/-- Nothing is factored yet. -/
def start (size : Nat) : Factors := ⟨List.replicate size [], []⟩

/-- The list with two places exchanged. -/
def exchange {α : Type} (u : List α) (i j : Nat) : List α :=
  match u[i]?, u[j]? with
  | some x, some y => (u.set i y).set j x
  | _, _ => u

@[simp] theorem length_exchange {α : Type} (u : List α) (i j : Nat) :
    (exchange u i j).length = u.length := by
  unfold exchange
  split <;> simp

/-- The list after all exchanges so far. -/
def arrange {α : Type} (f : Factors) (u : List α) : List α :=
  f.exchanges.zipIdx.foldl (fun u (j, i) => exchange u i j) u

/-- What elimination so far leaves of a column in its arrangement: of each entry, the multiples of the
entries before are taken away. -/
def reduce (f : Factors) (column : List Double) : List Double :=
  (List.zip f.rows column).foldl
    (fun above (multiples, x) =>
      above ++ [if multiples.isEmpty || above.isEmpty then x else x - productSum multiples above]) []

/-- Place of the largest entry, signs apart, the first one of several; `best` at `place` is the largest
so far, `next` the place of the next entry. -/
def largestPlace (best : Double) (place next : Nat) : List Double → Nat
  | [] => place
  | x :: rest =>
    if best < x.abs then largestPlace x.abs next (next + 1) rest
    else largestPlace best place (next + 1) rest

/-- The pivot is large enough to divide by. -/
def isDivisor (pivot : Double) : Bool := (2.2250738585072014e-308 : Double) ≤ pivot.abs

/-- The column whose entries behind a place are divided by a pivot. -/
def divideBehind (place : Nat) (pivot : Double) (column : List Double) : List Double :=
  column.take (place + 1) ++ (column.drop (place + 1)).map (· * (Double.one / pivot))

/-- The factors with one more entry in each row and one more exchange. -/
def append (rows : List (List Double)) (column : List Double) (exchanges : List Nat) : Factors :=
  ⟨List.zipWith (fun row x => row ++ [x]) rows column, exchanges⟩

/-- One more column is factored, unless its pivot is zero. -/
def addColumn (f : Factors) (column : List Double) : Option Factors :=
  let done := f.exchanges.length
  let reduced := f.reduce (f.arrange column)
  let place := largestPlace ((reduced.getD done 0).abs) done (done + 1) (reduced.drop (done + 1))
  let pivot := reduced.getD place 0
  let exchanges := f.exchanges ++ [place]
  if pivot == 0 then none
  else if isDivisor pivot then
    let column := divideBehind done pivot (exchange reduced done place)
    some (append (exchange f.rows done place) column exchanges)
  else some (append f.rows reduced exchanges)

/-- The factors of a square matrix, unless there is a zero pivot. -/
def ofMatrix? (a : Matrix Double) : Option Factors :=
  a.columnList.foldlM addColumn (start a.cols)

/-- The right sides after the multiples of each row were taken away from the rows behind it. -/
def forward (f : Factors) (sides : List (List Double)) : List (List Double) :=
  (List.zip f.rows sides).foldl
    (fun above (multiples, values) =>
      above ++ [(List.zip multiples above).foldl
        (fun values (m, x) => Equation.subtractMultiple m values x) values]) []

/-- The values of each unknown, one per right side. -/
def solve (f : Factors) (sides : List (List Double)) : List (List Double) :=
  let values := f.forward (f.arrange sides)
  Equation.solveTriangular
    ((List.zip f.rows values).zipIdx.map fun ((row, v), i) => ⟨row.drop i, v⟩)

end Factors

/-- The solution of a square system of any numbers, tiny ones included, unless there is a zero pivot. -/
def TinyPivot.solve? (a b : Matrix Double) : Option (Matrix Double) :=
  (Factors.ofMatrix? a).map fun f => .ofRows a.cols b.cols (f.solve b.rowList)

end Georef

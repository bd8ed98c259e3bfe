import Georef.Proofs.Matrix.Reflections

/-!
# Least squares by reflections

The sum of the squares of what a system leaves is, once its first column has been reflected, the square of what its
first equation leaves and the same for a system with one equation and one unknown less. Solving the triangular
system makes each of these squares zero but for those below the triangle, in which no unknown takes part: there is
no better solution.

## Key results

- `LeastSquares.squaredNorm_residual_cons`: a system and the one with its first column reflected
- `LeastSquares.Independent.reflected`: reflections keep columns independent
- `LeastSquares.squaredNorm_residual_solveTriangular`: no values of the unknowns leave less than those found
- `Matrix.leastSquares_spec`: the solution found is a least-squares solution
-/

namespace Georef

/-! ## Sizes -/

namespace Equation

/-- `solveTriangular` finds an unknown for each equation. -/
theorem length_solveTriangular {α : Type} [One α] [Sub α] [Mul α] [Div α] [Zero α] (es : List (Equation α)) :
    (solveTriangular es).length = es.length := by
  induction es with
  | nil => rfl
  | cons e es ih => rw [solveTriangular, List.length_cons, ih, List.length_cons]

/-- The unknowns that `solveTriangular` finds have as many values as the equations have. -/
theorem length_of_mem_solveTriangular {K : Type} [Field K] {r : Nat} {es : List (Equation K)}
    (h : ∀ e ∈ es, e.values.length = r) : ∀ x ∈ solveTriangular es, x.length = r := by
  induction es with
  | nil => exact fun x hx => absurd hx List.not_mem_nil
  | cons e es ih =>
    obtain ⟨he, hes⟩ := List.forall_mem_cons.mp h
    have hlengths := ih hes
    refine List.forall_mem_cons.mpr ⟨?_, hlengths⟩
    rw [length_resolve fun x hx => (hlengths x hx).trans he.symm, he]

end Equation

open Equation (subtractMultiple dot solveTriangular length_of_mem_solveTriangular)

namespace LeastSquares

open Reflection (applyIfAny ofColumn? leadingImage isometry_applyIfAny applyIfAny_self)

/-! ## What a system leaves -/

section Residual

variable {K : Type} [Field K] {m : Nat} {columns : List (List K)} {x side : List K}

/-- What is left of a side when multiples of the columns have been taken away. -/
def residual : List (List K) → List K → List K → List K
  | column :: columns, x :: xs, side => residual columns xs (subtractMultiple x side column)
  | _, _, side => side

/-- An `Isometry` can be applied to a `residual` before or after. -/
theorem Isometry.map_residual {f : List K → List K} (hf : Isometry m f) (hside : side.length = m)
    (hcolumns : ∀ column ∈ columns, column.length = m) :
    f (residual columns x side) = residual (columns.map f) x (f side) := by
  induction columns generalizing x side with
  | nil => rfl
  | cons column columns ih =>
    obtain ⟨hcolumn, hcolumns⟩ := List.forall_mem_cons.mp hcolumns
    cases x with
    | nil => rfl
    | cons x xs =>
      have hlength : (subtractMultiple x side column).length = m :=
        (Equation.length_subtractMultiple x (hside.trans hcolumn.symm)).trans hside
      rw [residual, ih hlength hcolumns, hf.map_subtractMultiple x hside hcolumn]
      rfl

/-- A `residual` is as long as the side. -/
theorem length_residual (hside : side.length = m) (hcolumns : ∀ column ∈ columns, column.length = m) :
    (residual columns x side).length = m := by
  induction columns generalizing x side with
  | nil => exact hside
  | cons column columns ih =>
    obtain ⟨hcolumn, hcolumns⟩ := List.forall_mem_cons.mp hcolumns
    cases x with
    | nil => exact hside
    | cons x xs => exact ih ((Equation.length_subtractMultiple x (hside.trans hcolumn.symm)).trans hside) hcolumns

/-- An element of a `residual`. -/
theorem getD_residual (hside : side.length = m) (hcolumns : ∀ column ∈ columns, column.length = m) (i : Nat) :
    (residual columns x side).getD i 0 = side.getD i 0 - dot (columns.map (·.getD i 0)) x := by
  induction columns generalizing x side with
  | nil => simp [residual, dot]
  | cons column columns ih =>
    obtain ⟨hcolumn, hcolumns⟩ := List.forall_mem_cons.mp hcolumns
    cases x with
    | nil => simp [residual, dot]
    | cons x xs =>
      have hsame := hside.trans hcolumn.symm
      rw [residual, ih ((Equation.length_subtractMultiple x hsame).trans hside) hcolumns,
        Equation.getD_subtractMultiple x hsame, List.map_cons, Equation.dot_cons]
      ring

/-- A `residual` without its first element is that of the tails. -/
theorem tail_residual (columns : List (List K)) (x side : List K) :
    (residual columns x side).tail = residual (columns.map List.tail) x side.tail := by
  induction columns generalizing x side with
  | nil => rfl
  | cons column columns ih =>
    cases x with
    | nil => rfl
    | cons x xs =>
      rw [residual, ih, List.map_cons, residual]
      congr 1
      cases side <;> cases column <;> simp [subtractMultiple]

/-- With zeros the `residual` is the side. -/
theorem residual_zeros (k : Nat) (hside : side.length = m) (hcolumns : ∀ column ∈ columns, column.length = m) :
    residual columns (List.replicate k 0) side = side := by
  induction columns generalizing k with
  | nil => rfl
  | cons column columns ih =>
    obtain ⟨hcolumn, hcolumns⟩ := List.forall_mem_cons.mp hcolumns
    cases k with
    | zero => rfl
    | succ k =>
      have hsame : subtractMultiple 0 side column = side := by
        refine List.ext_getElem (by simp [subtractMultiple, hside, hcolumn]) fun i hi hi' => ?_
        simp [subtractMultiple]
      rw [List.replicate_succ, residual, hsame, ih k hcolumns]

/-- No multiples of the columns but zeros add up to zero. -/
def Independent (m : Nat) (columns : List (List K)) : Prop :=
  ∀ x, x.length = columns.length → squaredNorm (residual columns x (List.replicate m 0)) = 0 → ∀ y ∈ x, y = 0

/-- The first element, in the two ways it is asked for. -/
theorem headD_eq_getD (u : List K) : u.headD 0 = u.getD 0 0 := by
  cases u <;> rfl

/-- `squaredNorm`, the first element taken apart. -/
theorem squaredNorm_eq_head_tail (u : List K) : squaredNorm u = u.headD 0 * u.headD 0 + squaredNorm u.tail := by
  cases u with
  | nil => simp [squaredNorm, dot]
  | cons x u => exact squaredNorm_cons x u

end Residual

/-! ## Triangular systems -/

section Triangulate

variable {K : Type} [Field K] [LinearOrder K] [IsStrictOrderedRing K] [Euclidean K] [Euclidean.Exact K]

/-- The square of what a system leaves is that of its first equation, reflected, and that of the
    system with one equation and one unknown less. -/
theorem squaredNorm_residual_cons (first : K) (rest : List K) {columns : List (List K)} (x : K) (xs : List K)
    {side : List K} (hcolumns : ∀ column ∈ columns, column.length = rest.length + 1)
    (hside : side.length = rest.length + 1) :
    let reflected := columns.map (applyIfAny (ofColumn? (first :: rest)))
    let reflectedSide := applyIfAny (ofColumn? (first :: rest)) side
    let error := reflectedSide.headD 0 -
      dot (leadingImage (ofColumn? (first :: rest)) (first :: rest) :: reflected.map (·.headD 0)) (x :: xs)
    squaredNorm (residual ((first :: rest) :: columns) (x :: xs) side) =
      error * error + squaredNorm (residual (reflected.map List.tail) xs reflectedSide.tail) := by
  intro reflected reflectedSide error
  have hisometry : Isometry (rest.length + 1) (applyIfAny (ofColumn? (first :: rest))) :=
    isometry_applyIfAny (first :: rest)
  have hall : ∀ column ∈ (first :: rest) :: columns, column.length = rest.length + 1 :=
    List.forall_mem_cons.mpr ⟨rfl, hcolumns⟩
  have hreflectedSide : reflectedSide.length = rest.length + 1 := hisometry.length_map hside
  -- Reflected, the first column is zero but for its first element.
  let system := (leadingImage (ofColumn? (first :: rest)) (first :: rest) :: List.replicate rest.length 0) :: reflected
  have hsystem : ∀ column ∈ system, column.length = rest.length + 1 := by
    refine List.forall_mem_cons.mpr ⟨by simp, List.forall_mem_map.mpr fun column hcolumn => ?_⟩
    exact hisometry.length_map (hcolumns column hcolumn)
  have hfirst : (residual system (x :: xs) reflectedSide).headD 0 = error := by
    rw [headD_eq_getD, getD_residual hreflectedSide hsystem]
    simp only [error, system, List.map_cons, headD_eq_getD, List.getD_cons_zero]
  have htail : (residual system (x :: xs) reflectedSide).tail =
      residual (reflected.map List.tail) xs reflectedSide.tail := by
    have hlength : reflectedSide.tail.length = rest.length := by
      rw [List.length_tail, hreflectedSide, Nat.add_sub_cancel]
    rw [tail_residual, List.map_cons, List.tail_cons, residual, ← hlength, subtractMultiple_zeros]
  calc squaredNorm (residual ((first :: rest) :: columns) (x :: xs) side)
      = squaredNorm (residual system (x :: xs) reflectedSide) := by
        rw [← hisometry.squaredNorm_map (length_residual hside hall), hisometry.map_residual hside hall, List.map_cons,
          applyIfAny_self]
    _ = error * error + squaredNorm (residual (reflected.map List.tail) xs reflectedSide.tail) := by
        rw [squaredNorm_eq_head_tail, hfirst, htail]

/-- Of independent columns the first one is not reflected to zero, and what is left of the others is
    independent. -/
theorem Independent.reflected {first : K} {rest : List K} {columns : List (List K)}
    (h : Independent (rest.length + 1) ((first :: rest) :: columns))
    (hcolumns : ∀ column ∈ columns, column.length = rest.length + 1) :
    leadingImage (ofColumn? (first :: rest)) (first :: rest) ≠ 0 ∧
      Independent rest.length ((columns.map (applyIfAny (ofColumn? (first :: rest)))).map List.tail) := by
  have hisometry : Isometry (rest.length + 1) (applyIfAny (ofColumn? (first :: rest))) :=
    isometry_applyIfAny (first :: rest)
  have hstep (x : K) (xs : List K) :
      squaredNorm (residual ((first :: rest) :: columns) (x :: xs) (List.replicate (rest.length + 1) 0)) =
        (leadingImage (ofColumn? (first :: rest)) (first :: rest) * x +
            dot ((columns.map (applyIfAny (ofColumn? (first :: rest)))).map (·.headD 0)) xs) ^ 2 +
          squaredNorm (residual ((columns.map (applyIfAny (ofColumn? (first :: rest)))).map List.tail) xs
            (List.replicate rest.length 0)) := by
    rw [squaredNorm_residual_cons first rest x xs hcolumns List.length_replicate]
    simp only [hisometry.map_zeros, Equation.dot_cons]
    rw [List.replicate_succ, List.headD_cons, List.tail_cons]
    ring
  have htails := hisometry.length_of_mem_tails hcolumns
  have hcount : (columns.map (applyIfAny (ofColumn? (first :: rest)))).length = columns.length := List.length_map _
  generalize columns.map (applyIfAny (ofColumn? (first :: rest))) = reflected at hstep htails hcount ⊢
  generalize leadingImage (ofColumn? (first :: rest)) (first :: rest) = leading at hstep ⊢
  have hleading : leading ≠ 0 := by
    rintro rfl
    -- Otherwise the first column alone would leave nothing.
    have hnorm := hstep 1 (List.replicate columns.length 0)
    have hdot : dot (reflected.map (·.headD 0)) (List.replicate columns.length 0) = 0 := by
      rw [Equation.dot_eq_sum]
      exact Finset.sum_eq_zero fun k _ => by simp
    rw [residual_zeros _ List.length_replicate htails, squaredNorm_zeros, hdot, zero_mul, add_zero, add_zero,
      zero_pow two_ne_zero] at hnorm
    exact one_ne_zero (h _ (by simp) hnorm 1 List.mem_cons_self)
  refine ⟨hleading, fun xs hxs hnorm y hy => ?_⟩
  -- The multiple of the first column makes up for the first elements of the others.
  have htotal := hstep (-dot (reflected.map (·.headD 0)) xs / leading) xs
  rw [hnorm, mul_div_cancel₀ _ hleading, neg_add_cancel, zero_pow two_ne_zero, add_zero] at htotal
  refine h _ ?_ htotal y (List.mem_cons_of_mem _ hy)
  rw [List.length_cons, hxs, List.length_map, hcount, List.length_cons]

/-- Where the first equation is solved, only the system with one equation and one unknown less
    leaves anything. -/
theorem squaredNorm_residual_resolve {first : K} {rest : List K} {columns sides solution : List (List K)}
    (hleading : leadingImage (ofColumn? (first :: rest)) (first :: rest) ≠ 0)
    (hcolumns : ∀ column ∈ columns, column.length = rest.length + 1)
    (hsolution : ∀ x ∈ solution, x.length = sides.length) {c : Nat} (hc : c < sides.length)
    (hside : sides[c].length = rest.length + 1) :
    let reflect := applyIfAny (ofColumn? (first :: rest))
    let e : Equation K := ⟨leadingImage (ofColumn? (first :: rest)) (first :: rest) ::
      (columns.map reflect).map (·.headD 0), (sides.map reflect).map (·.headD 0)⟩
    squaredNorm (residual ((first :: rest) :: columns) ((e.resolve solution :: solution).map (·.getD c 0)) sides[c]) =
      squaredNorm (residual ((columns.map reflect).map List.tail) (solution.map (·.getD c 0))
        (reflect sides[c]).tail) := by
  intro reflect e
  have hvalues : e.values.length = sides.length := by simp [e]
  have hleading' : e.leading ≠ 0 := hleading
  have hcoefficients : e.coefficients.length = columns.length + 1 := by simp [e]
  have hvalue : e.values.getD c 0 = (reflect sides[c]).headD 0 := by simp [e, hc]
  have hwidths : ∀ x ∈ solution, x.length = e.values.length := fun x hx => (hsolution x hx).trans hvalues.symm
  -- The first coordinate of the residual vanishes, as the equation is solved for its unknown.
  have hsolved : dot e.coefficients ((e.resolve solution :: solution).map (·.getD c 0)) = e.values.getD c 0 :=
    Equation.dot_resolve hleading' hcoefficients hwidths c
  rw [hvalue, List.map_cons] at hsolved
  rw [List.map_cons, squaredNorm_residual_cons first rest _ _ hcolumns hside, hsolved, sub_self, mul_zero, zero_add]

omit [IsStrictOrderedRing K] [Euclidean.Exact K] in
/-- `triangulate` makes an equation for each column. -/
theorem length_triangulate (columns sides : List (List K)) : (triangulate columns sides).length = columns.length := by
  induction hcount : columns.length generalizing columns sides with
  | zero =>
    obtain rfl := List.length_eq_zero_iff.mp hcount
    rw [triangulate]
    rfl
  | succ n ih =>
    obtain ⟨column, columns, rfl⟩ := List.exists_cons_of_length_eq_add_one hcount
    rw [triangulate, List.length_cons, ih _ _ (by simpa using hcount)]

omit [IsStrictOrderedRing K] [Euclidean.Exact K] in
/-- The equations of `triangulate` have a value for each side. -/
theorem length_values_triangulate (columns sides : List (List K)) :
    ∀ e ∈ triangulate columns sides, e.values.length = sides.length := by
  induction hcount : columns.length generalizing columns sides with
  | zero =>
    obtain rfl := List.length_eq_zero_iff.mp hcount
    rw [triangulate]
    exact fun e he => absurd he List.not_mem_nil
  | succ n ih =>
    obtain ⟨column, columns, rfl⟩ := List.exists_cons_of_length_eq_add_one hcount
    rw [triangulate]
    refine List.forall_mem_cons.mpr ⟨by simp, fun e he => ?_⟩
    simpa using ih _ _ (by simpa using hcount) e he

/-- No other values of the unknowns leave less of any side than `solveTriangular` does. -/
theorem squaredNorm_residual_solveTriangular {columns sides : List (List K)} {m : Nat}
    (hcolumns : ∀ column ∈ columns, column.length = m) (hsides : ∀ side ∈ sides, side.length = m)
    (hle : columns.length ≤ m) (hindependent : Independent m columns) {c : Nat} (hc : c < sides.length)
    {x : List K} (hx : x.length = columns.length) :
    squaredNorm (residual columns ((solveTriangular (triangulate columns sides)).map (·.getD c 0)) sides[c]) ≤
      squaredNorm (residual columns x sides[c]) := by
  induction hcount : columns.length generalizing columns sides m x with
  | zero =>
    obtain rfl := List.length_eq_zero_iff.mp hcount
    exact le_rfl
  | succ n ih =>
    obtain ⟨column, columns, rfl⟩ := List.exists_cons_of_length_eq_add_one hcount
    obtain ⟨x, xs, rfl⟩ := List.exists_cons_of_length_eq_add_one (hx.trans hcount)
    obtain ⟨hcolumn, hothers⟩ := List.forall_mem_cons.mp hcolumns
    obtain ⟨first, rest, rfl⟩ : ∃ first rest, column = first :: rest := by
      cases column with
      | nil => rw [← hcolumn] at hle; cases hle
      | cons first rest => exact ⟨first, rest, rfl⟩
    obtain rfl : rest.length + 1 = m := hcolumn
    obtain ⟨hleading, hrest⟩ := hindependent.reflected hothers
    have hside : sides[c].length = rest.length + 1 := hsides _ (List.getElem_mem hc)
    have hisometry : Isometry (rest.length + 1) (applyIfAny (ofColumn? (first :: rest))) :=
      isometry_applyIfAny (first :: rest)
    -- What is left of the columns and the sides is a smaller system, to which the induction applies.
    have hleast := ih (hisometry.length_of_mem_tails hothers) (hisometry.length_of_mem_tails hsides)
      (by simpa using hle) hrest (by simpa using hc) (by simpa using hx) (by simpa using hcount)
    have hwidths := length_of_mem_solveTriangular (length_values_triangulate
      ((columns.map (applyIfAny (ofColumn? (first :: rest)))).map List.tail)
      ((sides.map (applyIfAny (ofColumn? (first :: rest)))).map List.tail))
    simp only [List.length_map] at hwidths
    simp only [List.getElem_map] at hleast
    rw [triangulate, solveTriangular, squaredNorm_residual_resolve hleading hothers hwidths hc hside,
      squaredNorm_residual_cons first rest x xs hothers hside]
    -- Any other values leave something of the first equation, too.
    exact le_add_of_nonneg_of_le (mul_self_nonneg _) hleast

end Triangulate

end LeastSquares

/-! ## Matrices -/

open LeastSquares (residual squaredNorm getD_residual length_residual length_triangulate
  squaredNorm_residual_solveTriangular)

namespace Matrix

section Columns

variable {K : Type} [Field K]

/-- A `column` is as long as there are rows. -/
theorem length_column (a : Matrix K) : ∀ column ∈ a.columnList, column.length = a.rows :=
  List.forall_mem_map.mpr fun j _ => by simp [column]

/-- The elements of a `column` are entries of the matrix. -/
theorem getD_column (a : Matrix K) {i : Nat} (hi : i < a.rows) (j : Nat) : (a.column j).getD i 0 = a.entry i j := by
  simp [column, hi]

/-- The square of what a system of columns leaves is that of what its matrix leaves. -/
theorem squaredNorm_residual_columnList (a : Matrix K) (x : List K) {side : List K} (hside : side.length = a.rows) :
    squaredNorm (residual a.columnList x side) =
      sumSquares a.rows fun i => a.mulVec (fun k => x.getD k 0) i - side.getD i 0 := by
  have hcolumns := a.length_column
  rw [squaredNorm, Equation.dot_eq_sum, length_residual hside hcolumns, sumSquares]
  refine Finset.sum_congr rfl fun i hi => ?_
  have hrow : a.columnList.map (·.getD i 0) = a.row i := by
    rw [columnList, List.map_map, row]
    exact List.map_congr_left fun j _ => a.getD_column (Finset.mem_range.mp hi) j
  rw [getD_residual hside hcolumns, hrow, dot_row]
  ring

end Columns

variable {K : Type} [Field K] [LinearOrder K] [IsStrictOrderedRing K] {a b : Matrix K}

/-- The `columnList` of a matrix with independent columns is independent. -/
theorem Independent.columnList (ha : a.Independent) : Georef.LeastSquares.Independent a.rows a.columnList := by
  intro x hx hnorm y hy
  rw [squaredNorm_residual_columnList a x List.length_replicate] at hnorm
  have hzero (i : Nat) : a.mulVec (fun k => x.getD k 0) i = 0 := by
    by_cases hi : i < a.rows
    · have hi' := eq_zero_of_sumSquares hnorm hi
      rwa [List.getD_eq_getElem?_getD, List.getElem?_replicate, if_pos hi, Option.getD_some, sub_zero] at hi'
    · exact mulVec_of_rows_le (Nat.le_of_not_lt hi) _
  obtain ⟨k, hk, rfl⟩ := List.getElem_of_mem hy
  have hcols : k < a.cols := by simpa [Matrix.columnList, hx] using hk
  simpa [hk] using ha _ hzero k hcols

variable [Euclidean K] [Euclidean.Exact K]

/-- The reflections of `leastSquares` find a least-squares solution of every system with independent
    columns. -/
theorem leastSquares_spec (hb : b.rows = a.rows) (htall : a.cols ≤ a.rows) (ha : a.Independent) :
    LeastSquares a b (a.leastSquares b) := by
  have hcount : a.columnList.length = a.cols := by simp [columnList]
  have hsides : ∀ side ∈ b.columnList, side.length = a.rows := fun side hside =>
    (b.length_column side hside).trans hb
  have hlength : (solveTriangular (a.triangle b)).length = a.cols := by
    rw [Equation.length_solveTriangular, triangle, length_triangulate, hcount]
  refine ⟨rfl, rfl, ?_⟩
  intro c hc v
  have hc' : c < b.columnList.length := by simpa [Matrix.columnList] using hc
  have hside : b.columnList[c] = b.column c := by simp [Matrix.columnList]
  have hsideLength : (b.column c).length = a.rows := by simp [column, hb]
  have hle := squaredNorm_residual_solveTriangular a.length_column hsides (hcount.le.trans htall) ha.columnList hc'
    (x := (List.range a.cols).map v) (by simp [Matrix.columnList])
  rw [hside, squaredNorm_residual_columnList a _ hsideLength, squaredNorm_residual_columnList a _ hsideLength] at hle
  have hfound (k : Nat) (hk : k < a.cols) : (a.leastSquares b).entry k c =
      ((solveTriangular (a.triangle b)).map (·.getD c 0)).getD k 0 := by
    have hk' : k < (solveTriangular (a.triangle b)).length := hlength ▸ hk
    rw [leastSquares, entry_ofRows hk hc]
    simp [hk']
  -- Both sides of the inequality are sums of squares of what a column of numbers leaves.
  have hsumSquares (x : List K) (w : Nat → K) (hw : ∀ k, k < a.cols → w k = x.getD k 0) :
      sumSquares a.rows (fun i => a.mulVec w i - b.entry i c) =
        sumSquares a.rows fun i => a.mulVec (fun k => x.getD k 0) i - (b.column c).getD i 0 := by
    rw [mulVec_congr hw]
    refine Finset.sum_congr rfl fun i hi => ?_
    have hentry : (b.column c).getD i 0 = b.entry i c := b.getD_column (hb ▸ Finset.mem_range.mp hi) c
    simp only [hentry]
  simp only [entry_product_eq_mulVec]
  rw [hsumSquares _ _ hfound, hsumSquares ((List.range a.cols).map v) v fun k hk => by simp [hk]]
  exact hle

end Matrix

end Georef

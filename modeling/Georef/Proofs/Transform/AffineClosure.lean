import Georef.Proofs.Matrix.AffineBounds
import Georef.Proofs.Transform.NormalForm

/-!
# Affine matrices are closed exactly

A matrix counts as affine only if its last row consists of zeros and a one, exactly. Products and inverses are rounded
everywhere else, but not there, as long as all numbers are finite: zeros take nothing away and a one changes nothing.
For doubles nothing has to be asked of the inverse of a transform of the plane. Its matrix is well-conditioned, or it
has no inverse, and then no number of elimination overflows.

## Key results

- `Matrix.endsInUnitRow_of_inverse`, `Matrix.endsInUnitRow_of_finiteInverse`: the last row of an inverse
- `Matrix.finiteInverse_of_size`: inverses of doubles whose numbers are finite all the way
- `LinearTransform.affineClosure_spec`: what stays affine in any arithmetic
- `LinearTransform.isAffineOrIdentity_of_inverse`: inverses of doubles with the default solver
-/

namespace Georef

namespace Matrix

open Equation (eliminate FinitePivots)

section Any

variable {α : Type} [Zero α] [One α] [Add α] [Sub α] [Mul α] [Div α] [BEq α] [Solver α] {a x : Matrix α}

/-- `eliminate` finds an inverse, row by row, and all numbers it finds on the way are finite. -/
structure FiniteElimination (a : Matrix α) : Prop where
  succeeds : ∃ solution, eliminate a.cols (a.equations (eye a.rows a.rows)) = .ok solution
  finite : FinitePivots a.cols (a.equations (eye a.rows a.rows))

variable [ExactUnits α]

/-- An inverse found row by row ends with zeros and a one, `EndsInUnitRow`. -/
theorem endsInUnitRow_of_inverse (ha : a.isAffine = true) (hfinite : FiniteElimination a) (h : a.inverse = .ok x) :
    x.EndsInUnitRow ∧ x.cols = a.rows := by
  obtain ⟨-, hsquare, -⟩ := isAffine_iff_unitRow.mp ha
  obtain ⟨solution, hsolution⟩ := hfinite.succeeds
  obtain ⟨-, -, hsolved⟩ := solve_eq_ok_iff.mp h
  cases hsolved with
  | elimination _ hsolution => exact ⟨endsInUnitRow_of_eliminate ha hfinite.finite hsolution, rfl⟩
  | tinyPivot _ htiny _ =>
    rw [hsolution] at htiny
    cases htiny
  | leastSquares hne => exact absurd hsquare hne

end Any

/-! ## Doubles -/

variable {a x : Matrix Double}

/-- All numbers found on the way to an inverse are finite, in whichever way it is found: by
    `eliminate` or, if that stops at a tiny pivot, column by column. -/
inductive FiniteInverse (a : Matrix Double) : Prop
  | byRows (h : FiniteElimination a) : FiniteInverse a
  | byColumns (htiny : eliminate a.cols (a.equations (eye a.rows a.rows)) = .error .tiny)
      (h : FiniteFactors a (eye a.rows a.rows)) : FiniteInverse a

/-- Tiny pivots do not change the last row of an inverse either: it still `EndsInUnitRow`. -/
theorem endsInUnitRow_of_finiteInverse (ha : a.isAffine = true) (hfinite : FiniteInverse a) (h : a.inverse = .ok x) :
    x.EndsInUnitRow := by
  cases hfinite with
  | byRows hfinite => exact (endsInUnitRow_of_inverse ha hfinite h).1
  | byColumns htiny hfinite =>
    obtain ⟨-, hsquare, -⟩ := isAffine_iff_unitRow.mp ha
    obtain ⟨-, -, hsolved⟩ := solve_eq_ok_iff.mp h
    cases hsolved with
    | elimination _ hsolution =>
      rw [hsolution] at htiny
      cases htiny
    | tinyPivot _ _ hx => exact endsInUnitRow_of_solveTiny? ha hfinite hx
    | leastSquares hne => exact absurd hsquare hne

/-- Nothing overflows on the way to the inverse of a matrix that is not very large, so it is a
    `FiniteInverse`. -/
theorem finiteInverse_of_size (ha : a.isAffine = true) (hsize : a.rows ≤ 30) (h : a.inverse = .ok x) :
    FiniteInverse a := by
  obtain ⟨-, hsquare, -⟩ := isAffine_iff_unitRow.mp ha
  obtain ⟨hchecked, hcondition, hsolved⟩ := solve_eq_ok_iff.mp h
  have hentries := all_elements_iff.mp hchecked.finite
  have hbounds : ∀ i j, i < a.rows → j < a.cols → (a.entry i j).UpTo 1074 := by
    intro i j hi hj
    exact upTo_of_wellConditioned ha hentries hcondition hi hj
  cases hsolved with
  | elimination _ hsolution => exact .byRows ⟨⟨_, hsolution⟩, finitePivots_of_upTo hbounds (by omega) hsolution⟩
  | tinyPivot _ htiny _ => exact .byColumns htiny (finiteFactors_of_upTo hbounds hsquare (by omega))
  | leastSquares hne => exact absurd hsquare hne

end Matrix

namespace LinearTransform

section Plane

variable {α : Type} [Zero α] [One α] [BEq α]

/-- The transform of the plane needs no division. -/
def IsAffineOrIdentity (u : LinearTransform α) : Prop :=
  u = .identity 2 ∨ ∃ m00 m10 m01 m11 m02 m12, u = .affine m00 m10 m01 m11 m02 m12

/-- What `ofMatrix` makes of an affine matrix with three columns. -/
theorem isAffineOrIdentity_of_ofMatrix {m : Matrix α} {u : LinearTransform α} (haffine : m.isAffine = true)
    (hcols : m.cols = 3) (h : ofMatrix m = .ok u) : u.IsAffineOrIdentity := by
  obtain ⟨-, -, hkept⟩ := ofMatrix_eq_ok_iff.mp h
  cases hkept with
  | identity =>
    left
    rw [hcols]
  | scaleOffset _ _ htwo =>
    rw [hcols] at htwo
    cases htwo
  | affine => exact .inr ⟨_, _, _, _, _, _, rfl⟩
  | planar hnot =>
    rw [haffine] at hnot
    cases hnot
  | selection hunplaced _ =>
    -- Only larger affine matrices are kept as selections or whole.
    have := hunplaced.large_of_affine haffine
    omega
  | projective hunplaced _ =>
    have := hunplaced.large_of_affine haffine
    omega

variable [UnitsApart α]

/-- `matrix` of an affine transform of the plane ends with zeros and a one. -/
theorem isAffine_matrix_affine (m00 m10 m01 m11 m02 m12 : α) :
    (affine m00 m10 m01 m11 m02 m12).matrix.isAffine = true := by
  have hlast (j : Nat) (hj : j < 3) : (affine m00 m10 m01 m11 m02 m12).matrix.entry 2 j = [0, 0, 1].getD j 0 :=
    Matrix.entry_ofRows (by decide) hj
  refine Matrix.isAffine_iff.mpr ⟨rfl, Matrix.endsAffine_iff.mpr ⟨?_, fun j (hj : j < 2) => ?_⟩⟩
  · show ((affine m00 m10 m01 m11 m02 m12).matrix.entry 2 2 == 1) = true
    rw [hlast 2 (by decide)]
    exact UnitsApart.one_beq_one
  · show ((affine m00 m10 m01 m11 m02 m12).matrix.entry 2 j == 0) = true
    rw [hlast j (by omega)]
    obtain rfl | rfl : j = 0 ∨ j = 1 := by omega
    · exact UnitsApart.zero_beq_zero
    · exact UnitsApart.zero_beq_zero

end Plane

/-- `inverse` of an affine transform of the plane is made of the inverse of its matrix. -/
theorem exists_of_inverse_affine {α : Type} [Zero α] [One α] [Add α] [Sub α] [Mul α] [Div α] [BEq α] [Neg α] [Solver α]
    {m00 m10 m01 m11 m02 m12 : α} {u : LinearTransform α} (h : (affine m00 m10 m01 m11 m02 m12).inverse = .ok u) :
    ∃ x, (affine m00 m10 m01 m11 m02 m12).matrix.inverse = .ok x ∧ ofMatrix x = .ok u := by
  cases invertsTo_of_inverse h with
  | solved hinverse hmatrix => exact ⟨_, hinverse, hmatrix⟩

/-- In any arithmetic in which zero and one are neutral for finite numbers, products of affine matrices are affine, and
so are inverses that are found row by row with finite numbers; their last rows are zeros and a one, exactly. So the
inverse of an affine transform of the plane is affine or the identity. -/
theorem affineClosure_spec {α : Type} [Zero α] [One α] [Add α] [Sub α] [Mul α] [Div α] [Neg α] [BEq α] [Solver α]
    [ExactUnits α] :
    (∀ a b : Matrix α, a.isAffine = true → b.isAffine = true → a.cols = b.rows →
      (∀ i < b.rows, ∀ j < b.cols, Solver.finite (b.entry i j) = true) →
        ∃ m, a.multiply b = .ok m ∧ m.isAffine = true) ∧
    (∀ a x : Matrix α, a.isAffine = true → Matrix.FiniteElimination a → a.inverse = .ok x →
      x.EndsInUnitRow ∧ x.isAffine = true) ∧
    (∀ (m00 m10 m01 m11 m02 m12 : α) (u : LinearTransform α),
      Matrix.FiniteElimination (affine m00 m10 m01 m11 m02 m12).matrix →
        (affine m00 m10 m01 m11 m02 m12).inverse = .ok u → u.IsAffineOrIdentity) := by
  refine ⟨?_, ?_, ?_⟩
  · intro a b ha hb hsize hfinite
    exact ⟨_, if_pos hsize, Matrix.isAffine_product hsize hfinite ha hb⟩
  · intro a x ha hfinite h
    have hrow := (Matrix.endsInUnitRow_of_inverse ha hfinite h).1
    exact ⟨hrow, hrow.isAffine⟩
  · intro m00 m10 m01 m11 m02 m12 u hfinite h
    obtain ⟨x, hx, hu⟩ := exists_of_inverse_affine h
    obtain ⟨hrow, hcols⟩ := Matrix.endsInUnitRow_of_inverse (isAffine_matrix_affine ..) hfinite hx
    exact isAffineOrIdentity_of_ofMatrix hrow.isAffine hcols hu

/-- A product of transforms of the plane with numbers that are rounded in it, and an inverse of one. -/
theorem affineClosure_spec_plane :
    (∃ m, (affine 1.0 0.1 0.2 4.0 3.0 5.0 : LinearTransform Double).matrix.multiply
        (affine 1.0 0.1 0.2 4.0 3.0 5.0).matrix = .ok m ∧ m.isAffine = true) ∧
    ∃ x u, (affine 1.0 0.1 0.2 4.0 3.0 5.0 : LinearTransform Double).matrix.FiniteElimination ∧
      (affine 1.0 0.1 0.2 4.0 3.0 5.0 : LinearTransform Double).matrix.inverse = .ok x ∧
      (x.EndsInUnitRow ∧ x.isAffine = true) ∧
      (affine 1.0 0.1 0.2 4.0 3.0 5.0 : LinearTransform Double).inverse = .ok u ∧ u.IsAffineOrIdentity := by
  obtain ⟨hproduct, hrows, hplane⟩ := affineClosure_spec (α := Double)
  have haffine := isAffine_matrix_affine (α := Double)
  refine ⟨hproduct _ _ (haffine ..) (haffine ..) rfl (by decide +kernel), ?_⟩
  have hok : (affine 1.0 0.1 0.2 4.0 3.0 5.0 : LinearTransform Double).inverse.isOk = true := by decide +kernel
  obtain ⟨u, hu⟩ : ∃ u, (affine 1.0 0.1 0.2 4.0 3.0 5.0 : LinearTransform Double).inverse = .ok u := by
    cases hu : (affine 1.0 0.1 0.2 4.0 3.0 5.0 : LinearTransform Double).inverse with
    | ok u => exact ⟨u, rfl⟩
    | error e =>
      rw [hu] at hok
      cases hok
  obtain ⟨x, hx, -⟩ := exists_of_inverse_affine hu
  -- Elimination did find an inverse here, so the other way is not taken.
  have hfinite : (affine 1.0 0.1 0.2 4.0 3.0 5.0 : LinearTransform Double).matrix.FiniteElimination := by
    cases Matrix.finiteInverse_of_size (haffine ..) (show 3 ≤ 30 by decide) hx with
    | byRows h => exact h
    | byColumns htiny _ =>
      have hok : (Equation.eliminate 3 ((affine 1.0 0.1 0.2 4.0 3.0 5.0 : LinearTransform Double).matrix.equations
          (.eye 3 3))).isOk = true := by decide +kernel
      have htiny : Equation.eliminate 3 ((affine 1.0 0.1 0.2 4.0 3.0 5.0 : LinearTransform Double).matrix.equations
          (.eye 3 3)) = .error .tiny := htiny
      rw [htiny] at hok
      cases hok
  exact ⟨x, u, hfinite, hx, hrows _ x (haffine ..) hfinite hx, hu, hplane _ _ _ _ _ _ u hfinite hu⟩

/-- With the default solver for doubles nothing has to be asked: whatever its numbers are, the inverse of an affine
transform of the plane is affine or the identity. -/
theorem isAffineOrIdentity_of_inverse {m00 m10 m01 m11 m02 m12 : Double} {u : LinearTransform Double}
    (h : (affine m00 m10 m01 m11 m02 m12).inverse = .ok u) : u.IsAffineOrIdentity := by
  obtain ⟨x, hx, hu⟩ := exists_of_inverse_affine h
  have haffine := isAffine_matrix_affine m00 m10 m01 m11 m02 m12
  have hfinite := Matrix.finiteInverse_of_size haffine (show 3 ≤ 30 by decide) hx
  have hrow := Matrix.endsInUnitRow_of_finiteInverse haffine hfinite hx
  exact isAffineOrIdentity_of_ofMatrix hrow.isAffine (Matrix.size_inverse hx).2 hu

end LinearTransform

end Georef

import Georef.Proofs.Matrix.Sizes
import Georef.Proofs.Transform.NormalForm
import Georef.Proofs.Transform.Walk

/-!
# Dimensions of points and images

A transform takes points of its source to points of its target, and its derivative has a row for each
ordinate of the image and a column for each one of the point. For linear transforms this follows from
their parts, for mappings it is what they promise. Nothing here depends on how numbers are added or
multiplied, so it holds for doubles as well as for exact numbers.

## Key results

- `LinearTransform.length_apply`, `Step.length_apply`: images have the dimension of the target
- `Step.rows_jacobian`, `Step.cols_jacobian`: the size of a derivative
- `LinearTransform.source_inverse`: an inverse has source and target exchanged
-/

namespace Georef

variable {α : Type}

/-! ## Linear transforms -/

namespace LinearTransform

/-- The parts of a transform make sense: the indices of a selection mean ordinates of the source, and
    the matrix of a projective transform has a last row and a last column. -/
def WellFormed : LinearTransform α → Prop
  | selection source indices => ∀ i ∈ indices, -(source : Int) ≤ i ∧ i < source
  | projective _ m => 1 ≤ m.rows ∧ 1 ≤ m.cols
  | _ => True

variable [Zero α] [One α]

/-- The `matrix` of a transform has a row for each ordinate of its images, and one more. -/
theorem rows_matrix (t : LinearTransform α) : (t.matrix.rows : Int) = t.target + 1 := by
  cases t with
  | projective planar m => simp [matrix, target]
  | selection source indices => rfl
  | identity dimension => rfl
  | scaleOffset => rfl
  | affine => rfl

/-- The `matrix` of a transform has a column for each ordinate of its points, and one more. -/
theorem cols_matrix (t : LinearTransform α) : (t.matrix.cols : Int) = t.source + 1 := by
  cases t with
  | projective planar m => simp [matrix, source]
  | selection source indices => rfl
  | identity dimension => rfl
  | scaleOffset => rfl
  | affine => rfl

/-- What `ofMatrix` makes, `IsNormal`, makes sense. -/
theorem IsNormal.wellFormed [BEq α] [UnitsApart α] {t : LinearTransform α} (h : t.IsNormal) :
    t.WellFormed := by
  obtain ⟨hrows, hcols, -⟩ := ofMatrix_eq_ok_iff.mp h
  cases t with
  | selection source indices =>
    obtain ⟨places, rfl, hlt, -⟩ := IsNormal.selection_places h
    intro i hi
    obtain ⟨j, hj, rfl⟩ := List.mem_map.mp hi
    obtain ⟨k, hk, rfl⟩ := List.getElem_of_mem hj
    have := hlt k hk
    omega
  | projective planar m =>
    exact ⟨Nat.le_of_succ_le hrows, Nat.le_of_succ_le hcols⟩
  | _ => trivial

section Points

variable [Add α] [Mul α] [Sub α] [Div α] {t : LinearTransform α} {p : List α}

omit [One α] [Sub α] in
/-- `project` leaves the last row out. -/
@[simp] theorem length_project (m : Matrix α) (p : List α) : (project m p).length = m.rows - 1 := by
  simp [project]

omit [One α] [Sub α] in
/-- Images under `apply` have the dimension of the target. -/
theorem length_apply (ht : t.WellFormed) (hp : (p.length : Int) = t.source) :
    ((t.apply p).length : Int) = t.target := by
  cases t with
  | identity dimension => exact hp
  | scaleOffset scale offset => rfl
  | affine m00 m10 m01 m11 m02 m12 => rfl
  | selection source indices => simp [apply, target]
  | projective planar m =>
    have hrows : 1 ≤ m.rows := ht.1
    simp only [apply, target, length_project]
    omega

/-- `jacobian` has a row for each ordinate of the image. -/
theorem rows_jacobian (ht : t.WellFormed) (p : List α) : ((t.jacobian p).rows : Int) = t.target := by
  cases t with
  | projective planar m =>
    have hrows : 1 ≤ m.rows := ht.1
    simp only [jacobian, projectJacobian, target, Matrix.rows_ofFn]
    omega
  | _ => rfl

/-- `jacobian` has a column for each ordinate of the point. -/
theorem cols_jacobian (ht : t.WellFormed) (p : List α) : ((t.jacobian p).cols : Int) = t.source := by
  cases t with
  | projective planar m =>
    have hcols : 1 ≤ m.cols := ht.2
    simp only [jacobian, projectJacobian, source, Matrix.cols_ofFn]
    omega
  | _ => rfl

end Points

end LinearTransform

/-! ## Inverses of linear transforms -/

namespace LinearTransform

variable [Zero α] [One α] [Add α] [Mul α] [Sub α] [Div α] [Neg α] [BEq α] [UnitsApart α] [Solver α]
  [Solver.Sized α] {t u : LinearTransform α}

/-- An `inverse` has source and target exchanged, in whichever way it was made. -/
theorem source_inverse (h : t.inverse = .ok u) : u.source = t.target ∧ u.target = t.source := by
  cases invertsTo_of_inverse h with
  | identity dimension => exact ⟨rfl, rfl⟩
  | scaleOffset offset _ =>
    unfold ofScale
    split <;> exact ⟨rfl, rfl⟩
  | @selection source indices hpermutation =>
    have hlength : indices.length = source := by
      rw [isPermutation, Bool.and_eq_true, beq_iff_eq] at hpermutation
      exact hpermutation.1
    simp [LinearTransform.source, LinearTransform.target, inversePermutation, hlength]
  | solved hinverse hmatrix =>
    -- The sizes go through three matrices: that of `t`, its inverse, and that of `u`.
    obtain ⟨hrows, hcols⟩ := Matrix.size_inverse hinverse
    have hback := eqUpToUnits_matrix hmatrix
    have hrows' := hback.rows_eq
    have hcols' := hback.cols_eq
    have := rows_matrix t
    have := cols_matrix t
    have := rows_matrix u
    have := cols_matrix u
    omega

end LinearTransform

/-! ## Mappings and steps -/

/-- What a `Mapping` promises: points of the source go to points of the target, and the derivatives
    there have the sizes that belong to them. -/
structure Mapping.WellFormed (m : Mapping α) : Prop where
  length_map (p : List α) : (p.length : Int) = m.source → ((m.map p).length : Int) = m.target
  rows_jacobian (p : List α) : (p.length : Int) = m.source → ((m.jacobian p).rows : Int) = m.target
  cols_jacobian (p : List α) : (p.length : Int) = m.source → ((m.jacobian p).cols : Int) = m.source

namespace Step

/-- The parts of a linear step make sense, and a mapping keeps what it promises. -/
def WellFormed : Step α → Prop
  | linear t => t.WellFormed
  | managed m | foreign m => m.WellFormed

section Points

variable [Zero α] [One α] [Add α] [Mul α] [Sub α] [Div α] {s : Step α} {p : List α}

omit [One α] [Sub α] in
/-- Images under a step have the dimension of its target. -/
theorem length_apply (hs : s.WellFormed) (hp : (p.length : Int) = s.source) :
    ((s.apply p).length : Int) = s.target := by
  cases s with
  | linear t => exact LinearTransform.length_apply hs hp
  | managed m => exact hs.length_map p hp
  | foreign m => exact hs.length_map p hp

/-- The derivative of a step has a row for each ordinate of the image. -/
theorem rows_jacobian (hs : s.WellFormed)
    (hp : (p.length : Int) = s.source) : ((s.jacobian p).rows : Int) = s.target := by
  cases s with
  | linear t => exact LinearTransform.rows_jacobian hs p
  | managed m => exact hs.rows_jacobian p hp
  | foreign m => exact hs.rows_jacobian p hp

/-- The derivative of a step has a column for each ordinate of the point. -/
theorem cols_jacobian (hs : s.WellFormed) (hp : (p.length : Int) = s.source) :
    ((s.jacobian p).cols : Int) = s.source := by
  cases s with
  | linear t => exact LinearTransform.cols_jacobian hs p
  | managed m => exact hs.cols_jacobian p hp
  | foreign m => exact hs.cols_jacobian p hp

end Points

section Inverse

variable [Zero α] [One α] [Add α] [Mul α] [Sub α] [Div α] [Neg α] [BEq α] [Solver α] {s s' : Step α}

omit [Add α] in
/-- Only linear steps have an `inverse`, and it is linear. -/
theorem inverse_eq_ok_iff :
    s.inverse = .ok s' ↔ ∃ t u, s = .linear t ∧ t.inverse = .ok u ∧ s' = .linear u := by
  constructor
  · intro h
    cases s with
    | managed m => exact nomatch h
    | foreign m => exact nomatch h
    | linear t =>
      cases hu : t.inverse with
      | error e =>
        rw [Step.inverse, hu] at h
        exact nomatch h
      | ok u =>
        rw [Step.inverse, hu] at h
        exact ⟨t, u, rfl, hu, (Except.ok.inj h).symm⟩
  · rintro ⟨t, u, rfl, hu, rfl⟩
    rw [Step.inverse, hu]
    rfl

/-- The `inverse` of a step has source and target exchanged. -/
theorem source_inverse [UnitsApart α] [Solver.Sized α] (h : s.inverse = .ok s') :
    s'.source = s.target ∧ s'.target = s.source := by
  obtain ⟨t, u, rfl, hu, rfl⟩ := inverse_eq_ok_iff.mp h
  exact LinearTransform.source_inverse hu

end Inverse

end Step

end Georef

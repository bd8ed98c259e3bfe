import Georef.Proofs.Matrix.Algebra
import Georef.Proofs.Transform.Dimensions
import Georef.Proofs.Transform.Points
import Mathlib.Tactic.IntervalCases
import Mathlib.Tactic.NormNum

/-!
# Homogeneous coordinates

Over exact numbers a linear transform is what its homogeneous matrix says: `lift p` is the point `p`
followed by a one, and the matrix takes `lift p` to a multiple of the lifted image. The multiple is the
denominator of the transform at the point. The five forms compute images and derivatives in five ways,
which all agree with the general way of the matrix.

## Key results

- `mulVec_lift` and `project_eq_of_mulVec`: projecting a point is multiplying its lift, up to a factor
- `apply_eq_project`, `jacobian_eq_projectJacobian`: every form agrees with its matrix
- `ofMatrix_evaluates`: whatever form is chosen for a matrix, images and derivatives are those of the
  matrix
-/

namespace Georef

namespace LinearTransform

/-! ## Lifted points -/

section Lift

variable {α : Type} [Zero α] [One α] {p : List α} {j : Nat}

/-- Ordinate `j` of a point in homogeneous coordinates: the point is followed by a one, and by nothing
    but zeros. -/
def lift (p : List α) (j : Nat) : α := (p ++ [1]).getD j 0

/-- Up to the length of the point, `lift` has its ordinates. -/
theorem lift_of_lt (h : j < p.length) : lift p j = p[j] := by
  simp [lift, List.getElem?_append_left h, h]

/-- Then `lift` has a one. -/
@[simp] theorem lift_length (p : List α) : lift p p.length = 1 := by
  simp [lift]

/-- After the one, `lift` has zeros. -/
theorem lift_of_length_lt (h : p.length < j) : lift p j = 0 := by
  have hlength : (p ++ [(1 : α)]).length ≤ j := by rw [List.length_append]; exact h
  simp [lift, List.getElem?_eq_none hlength]

end Lift

variable {K : Type} [Field K]

/-! ## Projecting points -/

section Project

variable {m : Matrix K} {p : List K}

/-- `homogeneous` sums up what `mulVec` does of the lifted point. -/
theorem homogeneous_eq_mulVec (hp : p.length + 1 = m.cols) (i : Nat) :
    homogeneous m p i = m.mulVec (lift p) i := by
  have hlast : m.cols - 1 = p.length := by omega
  rw [homogeneous, List.foldl_range_add, hlast, Matrix.mulVec, ← hp, Finset.sum_range_succ,
    lift_length, mul_one, add_comm]
  congr 1
  refine Finset.sum_congr rfl fun j hj => ?_
  have hj' := Finset.mem_range.mp hj
  simp [lift_of_lt hj', hj']

/-- The `denominator` is the last ordinate of the product with the lifted point. -/
theorem denominator_eq_mulVec (hp : p.length + 1 = m.cols) :
    denominator m p = m.mulVec (lift p) (m.rows - 1) :=
  homogeneous_eq_mulVec hp _

/-- `project` divides the ordinates of the product by its last one. -/
theorem getElem_project (hp : p.length + 1 = m.cols) {i : Nat} (h : i < (project m p).length) :
    (project m p)[i] = m.mulVec (lift p) i / denominator m p := by
  simp [project, homogeneous_eq_mulVec hp]

/-- An identity matrix leaves a lifted point as it is. -/
theorem mulVec_eye_lift (p : List K) :
    (Matrix.eye (p.length + 1) (p.length + 1)).mulVec (lift p) = lift p := by
  funext i
  by_cases hi : i < p.length + 1
  · exact Matrix.mulVec_eye hi (lift p)
  · have hrows : (Matrix.eye (p.length + 1) (p.length + 1) : Matrix K).rows ≤ i := by simpa using hi
    rw [Matrix.mulVec_of_rows_le hrows, lift_of_length_lt (by omega)]

/-- A matrix takes a lifted point to its lifted image, times the `denominator`. -/
theorem mulVec_lift (hp : p.length + 1 = m.cols) (hrows : 1 ≤ m.rows) (hw : denominator m p ≠ 0) :
    m.mulVec (lift p) = fun i => denominator m p * lift (project m p) i := by
  funext i
  have hlength := length_project m p
  -- An ordinate of the image, the denominator itself, or nothing.
  obtain hi | rfl | hi : i < m.rows - 1 ∨ i = m.rows - 1 ∨ m.rows ≤ i := by omega
  · have hi' : i < (project m p).length := by rw [hlength]; exact hi
    rw [lift_of_lt hi', getElem_project hp, mul_div_cancel₀ _ hw]
  · rw [← hlength, lift_length, mul_one, hlength, denominator_eq_mulVec hp]
  · rw [Matrix.mulVec_of_rows_le hi, lift_of_length_lt (by omega), mul_zero]

/-- If a matrix takes a lifted point to a multiple of another one, that is its image under
    `project`. -/
theorem project_eq_of_mulVec {q : List K} {w : K} (hp : p.length + 1 = m.cols)
    (hq : q.length + 1 = m.rows) (hw : w ≠ 0) (h : m.mulVec (lift p) = fun i => w * lift q i) :
    denominator m p = w ∧ project m p = q := by
  have hlast : m.rows - 1 = q.length := by omega
  have hrow (i : Nat) : m.mulVec (lift p) i = w * lift q i := congrFun h i
  have hdenominator : denominator m p = w := by
    rw [denominator_eq_mulVec hp, hrow, hlast, lift_length, mul_one]
  refine ⟨hdenominator, List.ext_getElem (by rw [length_project, hlast]) fun i hi hi' => ?_⟩
  rw [getElem_project hp, hdenominator, hrow, lift_of_lt hi', mul_div_cancel_left₀ _ hw]

/-- `projectJacobian` has a column less than the matrix. -/
@[simp] theorem cols_projectJacobian (m : Matrix K) (p : List K) :
    (projectJacobian m p).cols = m.cols - 1 := rfl

/-- The quotient rule, entry by entry: `projectJacobian` takes the share of the denominator off. -/
theorem entry_projectJacobian {i j : Nat} (hi : i < m.rows - 1) (hj : j < m.cols - 1) :
    (projectJacobian m p).entry i j =
      (m.entry i j - lift (project m p) i * m.entry (m.rows - 1) j) / denominator m p := by
  have hi' : i < (project m p).length := by rw [length_project]; exact hi
  rw [projectJacobian, Matrix.entry_ofFn hi hj, lift_of_lt hi']
  simp [project]

/-- Without a denominator `projectJacobian` is the matrix itself, less its last row and column. -/
theorem projectJacobian_of_affine (hw : denominator m p = 1)
    (hlast : ∀ j, j < m.cols - 1 → m.entry (m.rows - 1) j = 0) :
    projectJacobian m p = .ofFn (m.rows - 1) (m.cols - 1) m.entry := by
  refine Matrix.ext_entry rfl rfl fun i j (hi : i < m.rows - 1) (hj : j < m.cols - 1) => ?_
  rw [projectJacobian, Matrix.entry_ofFn hi hj, Matrix.entry_ofFn hi hj, hw, hlast j hj, mul_zero,
    sub_zero, div_one]

end Project

/-! ## The five forms -/

/-- Transforms of the forms without a denominator. -/
def IsAffine : LinearTransform K → Prop
  | projective .. => False
  | _ => True

variable {t : LinearTransform K} {p : List K}

/-- `ordinatePlace` of an index that means an ordinate is one of its places. -/
theorem ordinatePlace_lt {source : Nat} {i : Int} (h : -(source : Int) ≤ i ∧ i < source) :
    ordinatePlace source i < source := by
  unfold ordinatePlace
  split <;> omega

/-- A row of `selectionMatrix` picks the ordinate that its index means. -/
theorem mulVec_selectionMatrix {source : Nat} {indices : List Int} {i : Nat}
    (hi : i < indices.length) (hplace : ordinatePlace source indices[i] < source) (v : Nat → K) :
    (selectionMatrix source indices).mulVec v i = v (ordinatePlace source indices[i]) :=
  Matrix.mulVec_of_unit_row (Nat.lt_succ_of_lt hplace)
    (fun _ hj => entry_selectionMatrix hi hplace hj) v

/-- The same for places counted from the front, with no `ordinatePlace` left. -/
theorem mulVec_selectionMatrix_natCast {source : Nat} {places : List Nat} {i : Nat}
    (hi : i < places.length) (hlt : places[i] < source) (v : Nat → K) :
    (selectionMatrix source (places.map fun (j : Nat) => (j : Int))).mulVec v i = v places[i] := by
  rw [mulVec_selectionMatrix (by simpa using hi) (by simpa using hlt)]
  simp

/-- The last row of `selectionMatrix` picks the last homogeneous coordinate. -/
theorem mulVec_selectionMatrix_last {source : Nat} {indices : List Int} {i : Nat}
    (hi : i = indices.length) (v : Nat → K) :
    (selectionMatrix source indices).mulVec v i = v source :=
  Matrix.mulVec_of_unit_row (Nat.lt_succ_self _) (fun _ hj => entry_selectionMatrix_last hi hj) v

/-- The matrix of a form that `IsAffine` takes a lifted point to the lifted image. -/
private theorem mulVec_lift_of_isAffine (haffine : t.IsAffine) (ht : t.WellFormed)
    (hp : (p.length : Int) = t.source) : t.matrix.mulVec (lift p) = lift (t.apply p) := by
  funext i
  cases t with
  | identity dimension =>
    obtain rfl : dimension = p.length := Int.ofNat_inj.mp hp.symm
    exact congrFun (mulVec_eye_lift p) i
  | scaleOffset scale offset =>
    obtain ⟨x, rfl⟩ : ∃ x, p = [x] := List.length_eq_one_iff.mp (Int.ofNat_inj.mp hp)
    obtain hi | hi : i < 2 ∨ 2 ≤ i := by omega
    · interval_cases i <;>
        simp [matrix, Matrix.mulVec, Finset.sum_range_succ, Matrix.entry_ofRows, lift, apply, mul_comm]
    · exact (Matrix.mulVec_of_rows_le hi _).trans (lift_of_length_lt (show 1 < i by omega)).symm
  | affine m00 m10 m01 m11 m02 m12 =>
    obtain ⟨x, y, rfl⟩ : ∃ x y, p = [x, y] := List.length_eq_two.mp (Int.ofNat_inj.mp hp)
    obtain hi | hi : i < 3 ∨ 3 ≤ i := by omega
    · interval_cases i <;>
        simp [matrix, Matrix.mulVec, Finset.sum_range_succ, Matrix.entry_ofRows, lift, apply]
    · exact (Matrix.mulVec_of_rows_le hi _).trans (lift_of_length_lt (show 2 < i by omega)).symm
  | selection source indices =>
    obtain rfl : source = p.length := Int.ofNat_inj.mp hp.symm
    have hlength : ((selection p.length indices : LinearTransform K).apply p).length =
        indices.length := by simp [apply]
    -- A row that picks an ordinate, the last row, or none.
    obtain hi | rfl | hi : i < indices.length ∨ i = indices.length ∨ indices.length < i := by omega
    · have hplace := ordinatePlace_lt (ht _ (List.getElem_mem hi))
      rw [matrix, mulVec_selectionMatrix hi hplace, lift_of_lt hplace,
        lift_of_lt (by rw [hlength]; exact hi)]
      simp [apply, List.getElem?_eq_getElem hplace]
    · rw [matrix, mulVec_selectionMatrix_last rfl, lift_length, ← hlength, lift_length]
    · rw [lift_of_length_lt (by rw [hlength]; exact hi)]
      exact Matrix.mulVec_of_rows_le hi _
  | projective planar m => exact haffine.elim

/-- The forms that are `IsAffine` have the denominator one everywhere. -/
theorem denominator_of_isAffine (haffine : t.IsAffine) (ht : t.WellFormed)
    (hp : (p.length : Int) = t.source) :
    denominator t.matrix p = 1 ∧ project t.matrix p = t.apply p := by
  have hrows := rows_matrix t
  have hcols := cols_matrix t
  have hlength := length_apply ht hp
  refine project_eq_of_mulVec (by omega) (by omega) one_ne_zero ?_
  rw [mulVec_lift_of_isAffine haffine ht hp]
  simp only [one_mul]

/-- `apply` of every form gives the images that `project` gives for its matrix. -/
theorem apply_eq_project (ht : t.WellFormed) (hp : (p.length : Int) = t.source) :
    t.apply p = project t.matrix p := by
  by_cases haffine : t.IsAffine
  · exact (denominator_of_isAffine haffine ht hp).2.symm
  · cases t with
    | projective planar m => rfl
    | _ => exact absurd trivial haffine

/-- The last row of the matrix of a form that `IsAffine` is zero up to its end. -/
private theorem entry_last_of_isAffine (haffine : t.IsAffine) {j : Nat}
    (hj : j < t.matrix.cols - 1) : t.matrix.entry (t.matrix.rows - 1) j = 0 := by
  cases t with
  | identity dimension =>
    have hj' : j < dimension := hj
    exact (Matrix.entry_eye (Nat.lt_succ_self _) (Nat.lt_succ_of_lt hj')).trans
      (if_neg (Nat.ne_of_gt hj'))
  | scaleOffset scale offset =>
    obtain rfl : j = 0 := Nat.lt_one_iff.mp hj
    exact Matrix.entry_ofRows Nat.one_lt_two Nat.zero_lt_two
  | affine m00 m10 m01 m11 m02 m12 =>
    have hj' : j < 2 := hj
    have hentry : ((affine m00 m10 m01 m11 m02 m12).matrix : Matrix K).entry 2 j = _ :=
      Matrix.entry_ofRows (show 2 < 3 by decide) (Nat.lt_succ_of_lt hj')
    refine hentry.trans ?_
    interval_cases j <;> rfl
  | selection source indices =>
    have hj' : j < source := hj
    exact (entry_selectionMatrix_last rfl (Nat.lt_succ_of_lt hj')).trans (if_neg (Nat.ne_of_lt hj'))
  | projective planar m => exact haffine.elim

/-- `jacobian` of every form gives the derivatives that `projectJacobian` gives for its matrix. -/
theorem jacobian_eq_projectJacobian (ht : t.WellFormed) (hp : (p.length : Int) = t.source) :
    t.jacobian p = projectJacobian t.matrix p := by
  by_cases haffine : t.IsAffine
  · -- Without a denominator the entries are those of the matrix, form by form.
    rw [projectJacobian_of_affine (denominator_of_isAffine haffine ht hp).1
      fun j hj => entry_last_of_isAffine haffine hj]
    cases t with
    | identity dimension =>
      refine Matrix.ext_entry rfl rfl fun i j (hi : i < dimension) (hj : j < dimension) => ?_
      rw [jacobian, Matrix.entry_eye hi hj]
      refine Eq.trans ?_ (Matrix.entry_ofFn hi hj).symm
      exact (Matrix.entry_eye (Nat.lt_succ_of_lt hi) (Nat.lt_succ_of_lt hj)).symm
    | scaleOffset scale offset =>
      refine Matrix.ext_entry rfl rfl fun i j (hi : i < 1) (hj : j < 1) => ?_
      obtain rfl := Nat.lt_one_iff.mp hi
      obtain rfl := Nat.lt_one_iff.mp hj
      rw [jacobian, Matrix.entry_ofRows hi hj]
      refine Eq.trans ?_ (Matrix.entry_ofFn hi hj).symm
      exact (Matrix.entry_ofRows Nat.zero_lt_two Nat.zero_lt_two).symm
    | affine m00 m10 m01 m11 m02 m12 =>
      refine Matrix.ext_entry rfl rfl fun i j (hi : i < 2) (hj : j < 2) => ?_
      rw [jacobian, Matrix.entry_ofRows hi hj]
      refine Eq.trans ?_ (Matrix.entry_ofFn hi hj).symm
      refine Eq.trans ?_ (Matrix.entry_ofRows (Nat.lt_succ_of_lt hi) (Nat.lt_succ_of_lt hj)).symm
      interval_cases i <;> interval_cases j <;> rfl
    | selection source indices => rfl
    | projective planar m => exact haffine.elim
  · cases t with
    | projective planar m => rfl
    | _ => exact absurd trivial haffine

/-! ## Single points -/

/-- `transform` of a point of the right dimension, as the operation on arrays gives it. -/
theorem transform_linear (ht : t.WellFormed) (hp : (p.length : Int) = t.source) :
    (Transform.step (.linear t)).transform (.ofList p) .fresh =
      .ok ⟨.ofList (project t.matrix p), .ofList p⟩ := by
  rw [← apply_eq_project ht hp]
  exact Transform.transform_ofList (t := .step (.linear t)) (.cons rfl (.nil _))
    (fun s hs => List.mem_singleton.mp hs ▸ ht) hp

/-- `derivative` at a point of the right dimension. -/
theorem derivative_linear (ht : t.WellFormed) (hp : (p.length : Int) = t.source) :
    (Transform.step (.linear t)).derivative (.ofList p) = .ok (projectJacobian t.matrix p) := by
  rw [← jacobian_eq_projectJacobian ht hp]
  exact Transform.derivative_ofList (t := .step (.linear t)) (.cons rfl (.nil _))
    (fun s hs => List.mem_singleton.mp hs ▸ ht) hp

/-! ## Transforms made of a matrix -/

section Made

variable [DecidableEq K] {m : Matrix K}

/-- Over exact numbers `matrix` gives back what `ofMatrix` was given. -/
theorem matrix_of_ofMatrix (h : ofMatrix m = .ok t) : t.matrix = m := (eqUpToUnits_matrix h).eq

/-- Whatever form is chosen for a matrix, the image of a point is the product of the matrix and the
    lifted point divided by its last ordinate, and the derivative is that of the general form. -/
theorem ofMatrix_evaluates (hrows : 2 ≤ m.rows) (hcols : 2 ≤ m.cols) :
    ∃ t, ofMatrix m = .ok t ∧ ∀ p : List K, p.length = m.cols - 1 →
      m.mulVec (lift p) (m.rows - 1) ≠ 0 →
      ∃ q : List K,
        (Transform.step (.linear t)).transform (.ofList p) .fresh = .ok ⟨.ofList q, .ofList p⟩ ∧
        q.length = m.rows - 1 ∧
        (∀ i (h : i < q.length),
          q[i] = m.mulVec (lift p) i / m.mulVec (lift p) (m.rows - 1)) ∧
        (Transform.step (.linear t)).derivative (.ofList p) = .ok (projectJacobian m p) ∧
        (projectJacobian m p).rows = m.rows - 1 ∧ (projectJacobian m p).cols = m.cols - 1 := by
  obtain ⟨t, ht⟩ := exists_ofMatrix hrows hcols
  have hwellFormed := (isNormal_of_ofMatrix ht).wellFormed
  obtain rfl : t.matrix = m := matrix_of_ofMatrix ht
  refine ⟨t, ht, fun p hp _ => ?_⟩
  have hsource : (p.length : Int) = t.source := by
    have := cols_matrix t
    omega
  refine ⟨project t.matrix p, transform_linear hwellFormed hsource, length_project _ _,
    fun i h => ?_, derivative_linear hwellFormed hsource, rfl, rfl⟩
  rw [getElem_project (by omega), denominator_eq_mulVec (by omega)]

/-- The line put into the plane in perspective: two goes to `(5/3, 1)`. -/
theorem ofMatrix_evaluates_perspective :
    ∃ t, ofMatrix (.ofRows 3 2 [[2, 1], [0, 3], [1, 1]] : Matrix ℚ) = .ok t ∧
      (Transform.step (.linear t)).transform (.ofList [2]) .fresh =
        .ok ⟨.ofList [5 / 3, 1], .ofList [2]⟩ ∧
      (Transform.step (.linear t)).derivative (.ofList [2]) =
        .ok (.ofRows 2 1 [[1 / 9], [-1 / 3]]) := by
  let m : Matrix ℚ := .ofRows 3 2 [[2, 1], [0, 3], [1, 1]]
  have hproduct (i : Nat) (hi : i < 3) : m.mulVec (lift [2]) i = [5, 3, 3].getD i 0 := by
    interval_cases i <;>
      norm_num [m, Matrix.mulVec, Finset.sum_range_succ, Matrix.entry_ofRows, lift]
  -- The point is divided by the last homogeneous coordinate, three.
  have hdenominator : denominator m [2] = 3 :=
    (denominator_eq_mulVec rfl).trans (hproduct 2 (by decide))
  obtain ⟨t, ht, hpoint⟩ := ofMatrix_evaluates (show 2 ≤ m.rows by decide)
    (show 2 ≤ m.cols by decide)
  obtain ⟨q, himage, hlength, hentry, hderivative, -⟩ := hpoint [2] rfl
    ((hproduct 2 (by decide)).trans_ne (show (3 : ℚ) ≠ 0 by norm_num))
  have hq : q = [5 / 3, 1] := by
    refine List.ext_getElem hlength fun i hi (hi' : i < 2) => (hentry i hi).trans ?_
    rw [show m.rows - 1 = 2 from rfl, hproduct 2 (by decide), hproduct i (by omega)]
    interval_cases i <;> norm_num
  have hjacobian : projectJacobian m [2] = .ofRows 2 1 [[1 / 9], [-1 / 3]] := by
    refine Matrix.ext_entry rfl rfl fun i j (hi : i < 2) (hj : j < 1) => ?_
    have hi' : i < (project m [2]).length := by rw [length_project]; exact hi
    rw [entry_projectJacobian hi hj, lift_of_lt hi', getElem_project rfl, hdenominator,
      hproduct i (by omega), Matrix.entry_ofRows hi hj]
    interval_cases j
    interval_cases i <;> norm_num [m, Matrix.entry_ofRows]
  exact ⟨t, ht, hq ▸ himage, hderivative.trans (congrArg Except.ok hjacobian)⟩

end Made

end LinearTransform

end Georef

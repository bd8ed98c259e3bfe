import Georef.Proofs.Transform.Homogeneous
import Mathlib.Algebra.BigOperators.Field
import Mathlib.Data.List.GetD
import Mathlib.Tactic.Ring

/-!
# Differences of images

The derivative of a linear transform at a point tells how the images of all other points differ from the image
of this one, and not only those of points near by. For a transform without a denominator it takes the difference
of two points to the difference of their images. With one, what it gives has to be multiplied by the ratio of
the denominators at the two points.

## Key results

- `project_sub`: the difference of two images under a homogeneous matrix
- `transform_sub`: the difference of two images as the operations on points give them
-/

namespace Georef

namespace LinearTransform

variable {K : Type} [Field K]

/-! ## Homogeneous matrices -/

section Project

variable {m : Matrix K} {p q : List K}

/-- Two lifted points of one dimension differ in their own ordinates only, as `lift` puts a one
    behind both. -/
theorem sum_mul_lift_sub (hlength : q.length = p.length) (f : Nat → K) :
    ∑ j ∈ Finset.range (p.length + 1), f j * (lift q j - lift p j) =
      ∑ j ∈ Finset.range p.length, f j * (q.getD j 0 - p.getD j 0) := by
  -- Both are followed by a one.
  have hlast : lift q p.length - lift p p.length = 0 := by
    rw [← hlength, lift_length, hlength, lift_length, sub_self]
  rw [Finset.sum_range_succ, hlast, mul_zero, add_zero]
  refine Finset.sum_congr rfl fun j hj => ?_
  have hj : j < p.length := Finset.mem_range.mp hj
  have hj' : j < q.length := by omega
  rw [lift_of_lt hj, lift_of_lt hj', List.getD_eq_getElem q 0 hj', List.getD_eq_getElem p 0 hj]

/-- `mulVec` says what a row of the matrix makes of the difference of two points. -/
theorem sum_mul_sub (hp : p.length + 1 = m.cols) (hlength : q.length = p.length) (i : Nat) :
    ∑ j ∈ Finset.range p.length, m.entry i j * (q.getD j 0 - p.getD j 0) =
      m.mulVec (lift q) i - m.mulVec (lift p) i := by
  rw [← sum_mul_lift_sub hlength, ← Matrix.mulVec_sub, Matrix.mulVec, ← hp]

/-- `projectJacobian` at a point, applied to the difference to another point, is the difference of
    the images times the ratio of the denominators. -/
theorem mulVec_projectJacobian (hp : p.length + 1 = m.cols) (hlength : q.length = p.length)
    (hrows : 1 ≤ m.rows) (hwp : denominator m p ≠ 0) (hwq : denominator m q ≠ 0) {i : Nat}
    (hi : i < m.rows - 1) :
    (projectJacobian m p).mulVec (fun j => q.getD j 0 - p.getD j 0) i =
      denominator m q / denominator m p * (lift (project m q) i - lift (project m p) i) := by
  have hq : q.length + 1 = m.cols := by omega
  have hcols : (projectJacobian m p).cols = p.length := by rw [cols_projectJacobian]; omega
  -- Row `i` and the last row of the matrix, applied to the lifted points.
  have hrowq : m.mulVec (lift q) i = denominator m q * lift (project m q) i :=
    congrFun (mulVec_lift hq hrows hwq) i
  have hrowp : m.mulVec (lift p) i = denominator m p * lift (project m p) i :=
    congrFun (mulVec_lift hp hrows hwp) i
  calc (projectJacobian m p).mulVec (fun j => q.getD j 0 - p.getD j 0) i
      = ∑ j ∈ Finset.range p.length,
          (m.entry i j - lift (project m p) i * m.entry (m.rows - 1) j) / denominator m p *
            (q.getD j 0 - p.getD j 0) := by
        rw [Matrix.mulVec, hcols]
        refine Finset.sum_congr rfl fun j hj => ?_
        have hj : j < p.length := Finset.mem_range.mp hj
        rw [entry_projectJacobian hi (by omega)]
    _ = (∑ j ∈ Finset.range p.length, m.entry i j * (q.getD j 0 - p.getD j 0) -
          lift (project m p) i *
            ∑ j ∈ Finset.range p.length, m.entry (m.rows - 1) j * (q.getD j 0 - p.getD j 0)) /
          denominator m p := by
        rw [Finset.mul_sum, ← Finset.sum_sub_distrib, Finset.sum_div]
        exact Finset.sum_congr rfl fun j _ => by ring
    _ = (denominator m q * lift (project m q) i - denominator m p * lift (project m p) i -
          lift (project m p) i * (denominator m q - denominator m p)) / denominator m p := by
        rw [sum_mul_sub hp hlength, sum_mul_sub hp hlength, hrowq, hrowp, ← denominator_eq_mulVec hp,
          ← denominator_eq_mulVec hq]
    _ = denominator m q / denominator m p * (lift (project m q) i - lift (project m p) i) := by
        -- The image of `p` times its own denominator is taken away and put back.
        ring

/-- The difference of two images under `project` is the derivative at the first point, applied to
    the difference of the points, times the ratio of the denominators. -/
theorem project_sub (hp : p.length + 1 = m.cols) (hlength : q.length = p.length) (hrows : 1 ≤ m.rows)
    (hwp : denominator m p ≠ 0) (hwq : denominator m q ≠ 0) (i : Nat) :
    (project m q).getD i 0 - (project m p).getD i 0 =
      denominator m p / denominator m q *
        (projectJacobian m p).mulVec (fun j => q.getD j 0 - p.getD j 0) i := by
  have hlengthp : (project m p).length = m.rows - 1 := length_project m p
  have hlengthq : (project m q).length = m.rows - 1 := length_project m q
  by_cases hi : i < m.rows - 1
  · have hip : i < (project m p).length := by omega
    have hiq : i < (project m q).length := by omega
    have hcancel : denominator m p / denominator m q * (denominator m q / denominator m p) = 1 := by
      rw [div_mul_div_cancel₀ hwq, div_self hwp]
    rw [mulVec_projectJacobian hp hlength hrows hwp hwq hi, ← mul_assoc, hcancel, one_mul, lift_of_lt hip,
      lift_of_lt hiq, List.getD_eq_getElem _ 0 hip, List.getD_eq_getElem _ 0 hiq]
  · -- Images and derivatives end at the same place.
    have houtside : (projectJacobian m p).rows ≤ i := Nat.le_of_not_lt hi
    rw [Matrix.mulVec_of_rows_le houtside, mul_zero, List.getD_eq_default _ 0 (by omega),
      List.getD_eq_default _ 0 (by omega), sub_self]

end Project

/-! ## Linear transforms -/

/-- A linear transform of any form takes two points, at which its denominator is not zero, to images that differ
    by the derivative at the first point, applied to the difference of the points, times the ratio of the
    denominators. The forms without a denominator have the denominator one everywhere. -/
theorem transform_sub {t : LinearTransform K} (ht : t.WellFormed) {p q : List K}
    (hp : (p.length : Int) = t.source) (hq : (q.length : Int) = t.source)
    (hwp : denominator t.matrix p ≠ 0) (hwq : denominator t.matrix q ≠ 0) :
    ∃ (x y : List K) (d : Matrix K),
      (Transform.step (.linear t)).transform (.ofList p) .fresh = .ok ⟨.ofList x, .ofList p⟩ ∧
      (Transform.step (.linear t)).transform (.ofList q) .fresh = .ok ⟨.ofList y, .ofList q⟩ ∧
      (Transform.step (.linear t)).derivative (.ofList p) = .ok d ∧
      (x.length : Int) = t.target ∧ (y.length : Int) = t.target ∧
      (d.rows : Int) = t.target ∧ (d.cols : Int) = t.source ∧
      (∀ i, y.getD i 0 - x.getD i 0 =
        denominator t.matrix p / denominator t.matrix q *
          d.mulVec (fun j => q.getD j 0 - p.getD j 0) i) ∧
      (t.IsAffine → denominator t.matrix p = 1 ∧ denominator t.matrix q = 1) := by
  have hrows := rows_matrix t
  have hcols := cols_matrix t
  have hpositive : 1 ≤ t.matrix.rows := by
    have := length_apply ht hp
    omega
  -- The sizes are known of the derivative itself, whose entries are those of the matrix.
  have hsize : ((projectJacobian t.matrix p).rows : Int) = t.target ∧
      ((projectJacobian t.matrix p).cols : Int) = t.source := by
    rw [← jacobian_eq_projectJacobian ht hp]
    exact ⟨rows_jacobian ht p, cols_jacobian ht p⟩
  have hlength (r : List K) : ((project t.matrix r).length : Int) = t.target := by
    rw [length_project]
    omega
  refine ⟨project t.matrix p, project t.matrix q, projectJacobian t.matrix p, transform_linear ht hp,
    transform_linear ht hq, derivative_linear ht hp, hlength p, hlength q, hsize.1, hsize.2, fun i => ?_,
    fun haffine => ?_⟩
  · exact project_sub (by omega) (by omega) hpositive hwp hwq i
  · exact ⟨(denominator_of_isAffine haffine ht hp).1, (denominator_of_isAffine haffine ht hq).1⟩

/-- The line put into the plane in perspective: from two to zero the denominator falls from three to one, and the
    image moves from `(5/3, 1)` to `(1, 3)`. -/
theorem transform_sub_perspective :
    let t : LinearTransform ℚ := .projective false (.ofRows 3 2 [[2, 1], [0, 3], [1, 1]])
    t.WellFormed ∧ denominator t.matrix [2] = 3 ∧ denominator t.matrix [0] = 1 ∧
      ∃ d : Matrix ℚ,
        (Transform.step (.linear t)).transform (.ofList [2]) .fresh =
          .ok ⟨.ofList [5 / 3, 1], .ofList [2]⟩ ∧
        (Transform.step (.linear t)).transform (.ofList [0]) .fresh =
          .ok ⟨.ofList [1, 3], .ofList [0]⟩ ∧
        (Transform.step (.linear t)).derivative (.ofList [2]) = .ok d ∧
        ∀ i, [1, 3].getD i 0 - [5 / 3, 1].getD i 0 =
          3 / 1 * d.mulVec (fun j => [0].getD j 0 - [2].getD j 0) i := by
  intro t
  have ht : t.WellFormed := ⟨by decide, by decide⟩
  have hdenominators : denominator t.matrix [2] = 3 ∧ denominator t.matrix [0] = 1 := by
    constructor
    · decide +kernel
    · decide +kernel
  have himages : project t.matrix [2] = [5 / 3, 1] ∧ project t.matrix [0] = [1, 3] := by
    constructor
    · decide +kernel
    · decide +kernel
  have hp : ([2] : List ℚ).length = t.source := rfl
  have hq : ([0] : List ℚ).length = t.source := rfl
  obtain ⟨x, y, d, hx, hy, hd, -, -, -, -, hdifference, -⟩ :=
    transform_sub ht hp hq (by rw [hdenominators.1]; norm_num) (by rw [hdenominators.2]; norm_num)
  -- The images of the theorem are those of the matrix.
  obtain rfl : x = [5 / 3, 1] := by
    have himage := hx.symm.trans (transform_linear ht hp)
    rw [himages.1] at himage
    exact congrArg Tensor.elements (congrArg Images.result (Except.ok.inj himage))
  obtain rfl : y = [1, 3] := by
    have himage := hy.symm.trans (transform_linear ht hq)
    rw [himages.2] at himage
    exact congrArg Tensor.elements (congrArg Images.result (Except.ok.inj himage))
  rw [hdenominators.1, hdenominators.2] at hdifference
  exact ⟨ht, hdenominators.1, hdenominators.2, d, hx, hy, hd, hdifference⟩

end LinearTransform

end Georef

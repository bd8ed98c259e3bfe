import Georef.Proofs.Matrix.Algebra
import Mathlib.Algebra.Order.BigOperators.Ring.Finset
import Mathlib.Algebra.QuadraticDiscriminant
import Mathlib.Tactic.Linarith

/-!
# Independent columns, condition and least squares

What the numerical notions around a linear system mean over exact numbers. The columns of a matrix are
independent if only zero is taken to zero. Its condition number is the ratio of the largest to the
smallest factor by which it stretches a column, which is said here without square roots. A least-squares
solution of a system comes as close to solving it as any column does.

## Key results

- `Independent.leftInverse`: a right inverse of a matrix with independent columns is a left inverse
- `ConditionAtMost.of_inverse`: a matrix and its inverse have the same condition number
- `LeastSquares.sum_mulVec_mul_residual`: what a least-squares solution leaves is orthogonal to the columns
- `LeastSquares.leftInverse`: solving for the identity in the sense of least squares gives a left inverse
-/

namespace Georef

namespace Matrix

/-! ## Independent columns -/

section Independent

variable {K : Type} [Field K] {a x : Matrix K} {n : Nat}

/-- No column of numbers but zero is taken to zero. -/
def Independent (a : Matrix K) : Prop :=
  ∀ v : Nat → K, (∀ i, a.mulVec v i = 0) → ∀ j, j < a.cols → v j = 0

/-- A matrix with a left inverse is `Independent`. -/
theorem Independent.of_leftInverse (h : x.product a = eye n n) (hn : a.cols = n) :
    a.Independent := by
  intro v hv j hj
  calc v j = (eye n n).mulVec v j := (mulVec_eye (hn ▸ hj) v).symm
    _ = x.mulVec (a.mulVec v) j := by rw [← h, mulVec_product]
    _ = 0 := Finset.sum_eq_zero fun k _ => by rw [hv k, mul_zero]

/-- If the columns are independent, a right inverse is also a left inverse. -/
theorem Independent.leftInverse (ha : a.Independent) (hx : x.rows = a.cols)
    (h : a.product x = eye a.rows a.rows) : x.product a = eye a.cols a.cols := by
  refine ext_entry hx rfl fun i j hi (hj : j < a.cols) => ?_
  have hi' : i < a.cols := hx ▸ hi
  -- The image of column `j` of the difference is zero, hence so is the column.
  have hsame : a.product (x.product a) = a.product (eye a.cols a.cols) := by
    rw [← product_assoc, h, eye_product rfl, product_eye rfl]
  refine sub_eq_zero.mp (ha (fun k => (x.product a).entry k j - (eye a.cols a.cols).entry k j)
    (fun i => ?_) i hi')
  rw [mulVec_sub, ← entry_product_eq_mulVec, ← entry_product_eq_mulVec, hsame, sub_self]

end Independent

variable {K : Type} [Field K] [LinearOrder K]

/-- The sum of the squares of the first numbers of a column. -/
def sumSquares (n : Nat) (v : Nat → K) : K := ∑ i ∈ Finset.range n, v i * v i

/-- The condition number is at most `bound`: no column is stretched more than `bound` times as much as any
    other one. -/
structure ConditionAtMost (bound : K) (a : Matrix K) : Prop where
  independent : a.Independent
  stretch : ∀ u v : Nat → K, sumSquares a.rows (a.mulVec u) * sumSquares a.cols v ≤
    bound ^ 2 * (sumSquares a.rows (a.mulVec v) * sumSquares a.cols u)

/-- The columns of `x` solve the system with the columns of `b` as right sides as well as any do. -/
structure LeastSquares (a b x : Matrix K) : Prop where
  rows_eq : x.rows = a.cols
  cols_eq : x.cols = b.cols
  le : ∀ c, c < b.cols → ∀ v : Nat → K,
    sumSquares a.rows (fun i => (a.product x).entry i c - b.entry i c) ≤
      sumSquares a.rows fun i => a.mulVec v i - b.entry i c

/-! ## Condition numbers -/

section Condition

variable {a x : Matrix K}

omit [LinearOrder K] in
/-- `sumSquares` looks at the first `n` numbers only. -/
private theorem sumSquares_congr {n : Nat} {u v : Nat → K} (h : ∀ i, i < n → u i = v i) :
    sumSquares n u = sumSquares n v :=
  Finset.sum_congr rfl fun i hi => by rw [h i (Finset.mem_range.mp hi)]

/-- The inverse of a square matrix has its condition number: `ConditionAtMost` goes over to it with
    the same bound. -/
theorem ConditionAtMost.of_inverse {bound : K} {n : Nat} (ha : a.ConditionAtMost bound)
    (hrows : a.rows = n) (hcols : a.cols = n) (hx : x.rows = n) (hx' : x.cols = n)
    (h : a.product x = eye n n) : x.ConditionAtMost bound := by
  refine ⟨.of_leftInverse h hx', fun u v => ?_⟩
  have hback (w : Nat → K) : sumSquares n (a.mulVec (x.mulVec w)) = sumSquares n w := by
    refine sumSquares_congr fun i hi => ?_
    rw [← mulVec_product, h, mulVec_eye hi]
  -- Taken at columns of the inverse, the bound of the matrix is that of the inverse.
  have hstretch := ha.stretch (x.mulVec v) (x.mulVec u)
  rw [hrows, hcols, hback, hback] at hstretch
  rw [hx, hx', mul_comm (sumSquares n _), mul_comm (sumSquares n (x.mulVec v))]
  exact hstretch

end Condition

/-! ## Least squares -/

section LeastSquares

variable [IsStrictOrderedRing K] {a b x : Matrix K}

/-- `sumSquares` are not negative. -/
theorem sumSquares_nonneg (n : Nat) (v : Nat → K) : 0 ≤ sumSquares n v :=
  Finset.sum_nonneg fun i _ => mul_self_nonneg (v i)

/-- If `sumSquares` are zero, all numbers are. -/
theorem eq_zero_of_sumSquares {n : Nat} {v : Nat → K} (h : sumSquares n v = 0) {i : Nat}
    (hi : i < n) : v i = 0 := by
  have hall := (Finset.sum_eq_zero_iff_of_nonneg fun i _ => mul_self_nonneg (v i)).mp h
  exact mul_self_eq_zero.mp (hall i (Finset.mem_range.mpr hi))

omit [LinearOrder K] [IsStrictOrderedRing K] in
/-- `sumSquares` along a line is a polynomial of degree two. -/
theorem sumSquares_add_mul (n : Nat) (r w : Nat → K) (t : K) :
    sumSquares n (fun i => r i + t * w i) =
      sumSquares n w * (t * t) + 2 * (∑ i ∈ Finset.range n, w i * r i) * t + sumSquares n r := by
  simp only [sumSquares, Finset.mul_sum, Finset.sum_mul, ← Finset.sum_add_distrib]
  exact Finset.sum_congr rfl fun i _ => by ring

/-- A matrix that stretches no column satisfies `ConditionAtMost` one. -/
theorem ConditionAtMost.of_isometry {bound : K} (hbound : 1 ≤ bound)
    (h : ∀ v, sumSquares a.rows (a.mulVec v) = sumSquares a.cols v) : a.ConditionAtMost bound := by
  have hnonneg := sumSquares_nonneg (K := K) a.cols
  refine ⟨fun v hv j hj => ?_, fun u v => ?_⟩
  · have hzero : sumSquares a.rows (a.mulVec v) = 0 :=
      Finset.sum_eq_zero fun i _ => by rw [hv i, mul_zero]
    exact eq_zero_of_sumSquares ((h v).symm.trans hzero) hj
  · rw [h u, h v, mul_comm (sumSquares a.cols v)]
    exact le_mul_of_one_le_left (mul_nonneg (hnonneg u) (hnonneg v)) (one_le_pow₀ hbound)

/-- What a least-squares solution leaves of a right side is orthogonal to all columns. -/
theorem LeastSquares.sum_mulVec_mul_residual (h : LeastSquares a b x) {c : Nat} (hc : c < b.cols)
    (v : Nat → K) :
    ∑ i ∈ Finset.range a.rows,
      a.mulVec v i * ((a.product x).entry i c - b.entry i c) = 0 := by
  have hquadratic (t : K) : 0 ≤ sumSquares a.rows (a.mulVec v) * (t * t) +
      2 * (∑ i ∈ Finset.range a.rows, a.mulVec v i * ((a.product x).entry i c - b.entry i c)) * t +
        0 := by
    -- Compare the solution with the one moved by `t` along `v`.
    have hle := h.le c hc fun k => x.entry k c + t * v k
    have hmoved : (fun i => a.mulVec (fun k => x.entry k c + t * v k) i - b.entry i c) =
        fun i => ((a.product x).entry i c - b.entry i c) + t * a.mulVec v i := by
      funext i
      rw [mulVec_add_mul, ← entry_product_eq_mulVec]
      ring
    rw [hmoved, sumSquares_add_mul] at hle
    linarith
  -- Without a constant term, a polynomial of degree two is nonnegative only if it has no linear term either.
  have hdiscriminant := discrim_le_zero hquadratic
  rw [discrim, mul_zero, sub_zero] at hdiscriminant
  have hzero := pow_eq_zero_iff two_ne_zero |>.mp (le_antisymm hdiscriminant (sq_nonneg _))
  exact (mul_eq_zero.mp hzero).resolve_left two_ne_zero

/-- The least-squares solution for the identity is a left inverse of a matrix with independent
    columns. -/
theorem LeastSquares.leftInverse (ha : a.Independent) (h : LeastSquares a (eye a.rows a.rows) x) :
    x.product a = eye a.cols a.cols := by
  refine ext_entry h.rows_eq rfl fun i j hi (hj : j < a.cols) => ?_
  have hi' : i < a.cols := h.rows_eq ▸ hi
  let w (k : Nat) : K := (x.product a).entry k j - (eye a.cols a.cols).entry k j
  -- The image of the difference is put together from what the solution leaves of the right sides.
  have himage (i : Nat) (hi : i < a.rows) : a.mulVec w i =
      ∑ c ∈ Finset.range a.rows,
        ((a.product x).entry i c - (eye a.rows a.rows).entry i c) * a.entry c j := by
    have hidentity : a.mulVec (fun k => (eye a.cols a.cols).entry k j) i =
        ∑ c ∈ Finset.range a.rows, (eye a.rows a.rows).entry i c * a.entry c j := by
      rw [← entry_product_eq_mulVec, product_eye rfl]
      exact (congrArg (entry · i j) (eye_product rfl)).symm.trans (entry_product _ _ i j)
    have hproduct : a.mulVec (fun k => (x.product a).entry k j) i =
        ∑ c ∈ Finset.range a.rows, (a.product x).entry i c * a.entry c j := by
      rw [← entry_product_eq_mulVec, ← product_assoc, entry_product, cols_product, h.cols_eq,
        cols_eye]
    simp only [w, mulVec_sub, hidentity, hproduct, sub_mul, Finset.sum_sub_distrib]
  -- What is left is orthogonal to the image, so the squares of the image add up to zero.
  have hzero : sumSquares a.rows (a.mulVec w) = 0 := by
    calc sumSquares a.rows (a.mulVec w)
        = ∑ i ∈ Finset.range a.rows, ∑ c ∈ Finset.range a.rows,
            a.mulVec w i *
              ((a.product x).entry i c - (eye a.rows a.rows).entry i c) * a.entry c j := by
          refine Finset.sum_congr rfl fun i hi => ?_
          simp only [mul_assoc, ← Finset.mul_sum]
          rw [← himage i (Finset.mem_range.mp hi)]
      _ = ∑ c ∈ Finset.range a.rows, (∑ i ∈ Finset.range a.rows, a.mulVec w i *
            ((a.product x).entry i c - (eye a.rows a.rows).entry i c)) * a.entry c j := by
          rw [Finset.sum_comm]
          exact Finset.sum_congr rfl fun c _ => (Finset.sum_mul _ _ _).symm
      _ = 0 := Finset.sum_eq_zero fun c hc => by
          rw [h.sum_mulVec_mul_residual (Finset.mem_range.mp hc), zero_mul]
  refine sub_eq_zero.mp (ha w (fun i => ?_) i hi')
  by_cases hrow : i < a.rows
  · exact eq_zero_of_sumSquares hzero hrow
  · exact mulVec_of_rows_le (Nat.le_of_not_lt hrow) w

end LeastSquares

end Matrix

end Georef

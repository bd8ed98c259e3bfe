import Georef.Proofs.List
import Georef.Proofs.Matrix.Entries
import Mathlib.Algebra.BigOperators.Group.Finset.Sigma
import Mathlib.Algebra.BigOperators.Ring.Finset
import Mathlib.Algebra.Field.Basic

/-!
# Matrices over exact numbers

`Matrix.mulVec` is the product of a matrix and a column of numbers; a column is a function of
the place, which is zero from some place on.

Main statements: `mulVec_product` says that a product acts as its factors one after the other, and
`eq_of_inverses` that a matrix has only one inverse.
-/

namespace Georef

namespace Matrix

/-! ## Products -/

variable {K : Type} [Field K]

/-- `product` has the rows of its first factor. -/
@[simp] theorem rows_product (a b : Matrix K) : (a.product b).rows = a.rows := rfl

/-- `product` has the columns of its second factor. -/
@[simp] theorem cols_product (a b : Matrix K) : (a.product b).cols = b.cols := rfl

/-- Over exact numbers the order of the terms does not matter, so `sumRange` is a finite sum. -/
theorem sumRange_eq_sum (n : Nat) (f : Nat → K) : sumRange n f = ∑ k ∈ Finset.range n, f k := by
  rw [sumRange, List.foldl_range_add, zero_add]

/-- The entries of `product`, also outside of it. -/
theorem entry_product (a b : Matrix K) (i j : Nat) :
    (a.product b).entry i j = ∑ k ∈ Finset.range a.cols, a.entry i k * b.entry k j := by
  -- Outside of the product its entry is zero, and so is every entry of the row or the column summed over.
  by_cases hi : i < a.rows
  · by_cases hj : j < b.cols
    · rw [product, entry_ofFn hi hj, sumRange_eq_sum]
    · rw [entry_of_cols_le (by simpa using hj)]
      simp only [entry_of_cols_le (Nat.le_of_not_lt hj), mul_zero, Finset.sum_const_zero]
  · rw [entry_of_rows_le (by simpa using hi)]
    simp only [entry_of_rows_le (Nat.le_of_not_lt hi), zero_mul, Finset.sum_const_zero]

/-- The product of a matrix and a column of numbers. -/
def mulVec (m : Matrix K) (v : Nat → K) (i : Nat) : K :=
  ∑ j ∈ Finset.range m.cols, m.entry i j * v j

/-- Below the last row, `mulVec` is zero. -/
theorem mulVec_of_rows_le {m : Matrix K} {i : Nat} (h : m.rows ≤ i) (v : Nat → K) :
    m.mulVec v i = 0 := by
  simp only [mulVec, entry_of_rows_le h, zero_mul, Finset.sum_const_zero]

/-- `mulVec` looks at as many numbers as there are columns. -/
theorem mulVec_congr {m : Matrix K} {v w : Nat → K} (h : ∀ j, j < m.cols → v j = w j) :
    m.mulVec v = m.mulVec w := by
  funext i
  exact Finset.sum_congr rfl fun j hj => by rw [h j (Finset.mem_range.mp hj)]

/-- A row whose only entry other than zero is a one picks a number out of a column. -/
theorem mulVec_of_unit_row {m : Matrix K} {i k : Nat} (hk : k < m.cols)
    (h : ∀ j, j < m.cols → m.entry i j = if j = k then 1 else 0) (v : Nat → K) :
    m.mulVec v i = v k := by
  calc m.mulVec v i = ∑ j ∈ Finset.range m.cols, if j = k then v j else 0 := by
        refine Finset.sum_congr rfl fun j hj => ?_
        rw [h j (Finset.mem_range.mp hj)]
        split <;> simp
    _ = v k := by rw [Finset.sum_ite_eq' _ k, if_pos (Finset.mem_range.mpr hk)]

/-- `mulVec` takes multiples to multiples. -/
theorem mulVec_mul (m : Matrix K) (c : K) (v : Nat → K) :
    m.mulVec (fun j => c * v j) = fun i => c * m.mulVec v i := by
  funext i
  simp only [mulVec, Finset.mul_sum]
  exact Finset.sum_congr rfl fun j _ => mul_left_comm _ _ _

/-- `mulVec` is linear. -/
theorem mulVec_add_mul (m : Matrix K) (v w : Nat → K) (c : K) (i : Nat) :
    m.mulVec (fun j => v j + c * w j) i = m.mulVec v i + c * m.mulVec w i := by
  simp only [mulVec, mul_add, Finset.sum_add_distrib, Finset.mul_sum]
  congr 1
  exact Finset.sum_congr rfl fun j _ => mul_left_comm _ _ _

/-- `mulVec` takes differences to differences. -/
theorem mulVec_sub (m : Matrix K) (v w : Nat → K) (i : Nat) :
    m.mulVec (fun j => v j - w j) i = m.mulVec v i - m.mulVec w i := by
  simp only [mulVec, mul_sub, Finset.sum_sub_distrib]

/-- `mulVec` with a product is that with the right factor followed by the left one. -/
theorem mulVec_product (a b : Matrix K) (v : Nat → K) :
    (a.product b).mulVec v = a.mulVec (b.mulVec v) := by
  funext i
  simp only [mulVec, entry_product, cols_product, Finset.sum_mul, Finset.mul_sum]
  -- Both are sums over the same two places, in different orders.
  rw [Finset.sum_comm]
  exact Finset.sum_congr rfl fun k _ => Finset.sum_congr rfl fun j _ => mul_assoc _ _ _

/-- Column `j` of a product is `mulVec` of the left factor and column `j` of the right one. -/
theorem entry_product_eq_mulVec (a b : Matrix K) (i j : Nat) :
    (a.product b).entry i j = a.mulVec (fun k => b.entry k j) i :=
  entry_product a b i j

/-! ## The identity and inverses -/

/-- `mulVec` with an identity leaves a column as it is. -/
theorem mulVec_eye {n i : Nat} (hi : i < n) (v : Nat → K) : (eye n n).mulVec v i = v i := by
  refine mulVec_of_unit_row hi (fun j (hj : j < n) => ?_) v
  rw [entry_eye hi hj]
  simp only [eq_comm]

/-- `eye` is neutral on the left. -/
theorem eye_product {a : Matrix K} {n : Nat} (h : a.rows = n) : (eye n n).product a = a := by
  subst h
  refine ext_entry rfl rfl fun i j (hi : i < a.rows) _ => ?_
  rw [entry_product_eq_mulVec, mulVec_eye hi]

/-- `eye` is neutral on the right. -/
theorem product_eye {a : Matrix K} {n : Nat} (h : a.cols = n) : a.product (eye n n) = a := by
  subst h
  refine ext_entry rfl rfl fun i j _ (hj : j < a.cols) => ?_
  rw [entry_product, Finset.sum_eq_single_of_mem j (Finset.mem_range.mpr hj)]
  · rw [entry_eye hj hj, if_pos rfl, mul_one]
  · intro k hk hne
    rw [entry_eye (Finset.mem_range.mp hk) hj, if_neg hne, mul_zero]

/-- `product` may be put in brackets anyhow, as both ways act alike on the columns. -/
theorem product_assoc (a b c : Matrix K) :
    (a.product b).product c = a.product (b.product c) := by
  refine ext_entry rfl rfl fun i j _ _ => ?_
  rw [entry_product_eq_mulVec, mulVec_product, entry_product_eq_mulVec]
  simp only [entry_product_eq_mulVec]

/-- A left inverse and a right inverse of a square matrix are the same. -/
theorem eq_of_inverses {a x y : Matrix K} {n : Nat} (hx : x.cols = n) (hy : y.rows = n)
    (hxa : x.product a = eye n n) (hay : a.product y = eye n n) : x = y := by
  calc x = x.product (a.product y) := by rw [hay, product_eye hx]
    _ = (x.product a).product y := (product_assoc x a y).symm
    _ = y := by rw [hxa, eye_product hy]

end Matrix

end Georef

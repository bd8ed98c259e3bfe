import Georef.Matrix.Basic

/-!
# Entries of matrices

The entries of a matrix are zero outside of it, so a sum over a row may run over any range that covers the
row. The rest of the file reads the entries of the matrices that are given by their rows, as a transposed
matrix or as an identity.
-/

namespace Georef

namespace Matrix

variable {α : Type} [Zero α] {m : Matrix α} {i j : Nat}

/-- `sumRange` of nothing is zero. -/
@[simp] theorem sumRange_zero [Add α] (f : Nat → α) : sumRange 0 f = 0 := rfl

/-- `sumRange` adds its last term at the end. -/
theorem sumRange_succ [Add α] (n : Nat) (f : Nat → α) : sumRange (n + 1) f = sumRange n f + f n := by
  rw [sumRange, List.range_succ, List.foldl_append]
  rfl

/-- Below the last row, `entry` is zero. -/
theorem entry_of_rows_le (h : m.rows ≤ i) : m.entry i j = 0 := by
  unfold entry
  split
  · have hsize : m.elements.size ≤ i * m.cols + j := by
      rw [m.size_eq]
      exact Nat.le_trans (Nat.mul_le_mul_right m.cols h) (Nat.le_add_right _ _)
    rw [Array.getElem?_eq_none hsize]
    rfl
  · rfl

/-- Behind the last column, `entry` is zero. -/
theorem entry_of_cols_le (h : m.cols ≤ j) : m.entry i j = 0 := by
  unfold entry
  rw [if_neg (by omega)]

/-- Inside of it, `ofRows` has the entries of its lists; short lists are filled with zeros. -/
theorem entry_ofRows {rows cols : Nat} {lists : List (List α)} (hi : i < rows) (hj : j < cols) :
    (ofRows rows cols lists).entry i j = (lists.getD i []).getD j 0 :=
  entry_ofFn hi hj

@[simp] theorem rows_ofRows {rows cols : Nat} {lists : List (List α)} :
    (ofRows rows cols lists).rows = rows := rfl

@[simp] theorem cols_ofRows {rows cols : Nat} {lists : List (List α)} :
    (ofRows rows cols lists).cols = cols := rfl

@[simp] theorem rows_transposed (m : Matrix α) : m.transposed.rows = m.cols := rfl

@[simp] theorem cols_transposed (m : Matrix α) : m.transposed.cols = m.rows := rfl

/-- `transposed` exchanges row and column, also outside of the matrix. -/
theorem entry_transposed (m : Matrix α) (i j : Nat) : m.transposed.entry i j = m.entry j i := by
  by_cases hi : i < m.cols
  · by_cases hj : j < m.rows
    · exact entry_ofFn hi hj
    · rw [entry_of_cols_le (show m.transposed.cols ≤ j from Nat.le_of_not_lt hj),
        entry_of_rows_le (Nat.le_of_not_lt hj)]
  · rw [entry_of_rows_le (show m.transposed.rows ≤ i from Nat.le_of_not_lt hi),
      entry_of_cols_le (Nat.le_of_not_lt hi)]

variable [One α] {rows cols : Nat}

@[simp] theorem rows_eye : (eye rows cols : Matrix α).rows = rows := rfl

@[simp] theorem cols_eye : (eye rows cols : Matrix α).cols = cols := rfl

/-- `eye` has ones on the diagonal and zeros elsewhere, square or not. -/
theorem entry_eye (hi : i < rows) (hj : j < cols) :
    (eye rows cols : Matrix α).entry i j = if i = j then 1 else 0 :=
  entry_ofFn hi hj

end Matrix

end Georef

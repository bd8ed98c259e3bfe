import Georef.Matrix.Comparison
import Georef.Proofs.Matrix.Sizes

/-!
# Matrices with entries

A matrix is made with at least one row and one column, and every operation gives a matrix with entries if the
matrices it is given have some. Only an operand that was an array may have no columns, and its columns are the
columns of products and solutions. A matrix with entries has a last row to look at, and it can be written down
as an array and read back.

## Key results

- `Positive.multiply`, `Positive.solve`: operations give matrices with entries
- `Positive.ofArray_toTensor`: a matrix with entries can be written down as an array and read back
-/

namespace Georef

namespace Matrix

variable {α : Type} {a b m : Matrix α}

/-- There is at least one row and at least one column. -/
def Positive (m : Matrix α) : Prop := 0 < m.rows ∧ 0 < m.cols

instance (m : Matrix α) : Decidable m.Positive := inferInstanceAs (Decidable (_ ∧ _))

/-! ## New matrices -/

/-- `checkSize` lets positive sizes through only. -/
theorem of_checkSize {rows cols : Int} (h : checkSize rows cols = .ok ()) : 0 < rows ∧ 0 < cols := by
  unfold checkSize at h
  split at h
  · cases h
  · omega

section New

variable [Zero α]

/-- `create` makes matrices with entries. -/
theorem positive_of_create [One α] {rows cols : Int} {elements : Option (Nested α)}
    (h : create rows cols elements = .ok m) : m.Positive := by
  unfold create at h
  cases hsize : checkSize rows cols with
  | error e => rw [hsize] at h; cases h
  | ok _ =>
    obtain ⟨hrows, hcols⟩ := of_checkSize hsize
    rw [hsize] at h
    -- With elements their number has to fit, without there are ones on the diagonal.
    cases elements with
    | none =>
      cases h
      exact ⟨show 0 < rows.toNat by omega, show 0 < cols.toNat by omega⟩
    | some nested =>
      cases hnested : nested.toTensor with
      | error e => simp only [hnested] at h; cases h
      | ok t =>
        simp only [hnested] at h
        change (if _ : _ then _ else _) = _ at h
        split at h
        · cases h
          exact ⟨show 0 < rows.toNat by omega, show 0 < cols.toNat by omega⟩
        · cases h

/-- `createZeros` makes matrices with entries. -/
theorem positive_of_createZeros {rows cols : Int} (h : createZeros rows cols = .ok m) : m.Positive := by
  unfold createZeros at h
  cases hsize : checkSize rows cols with
  | error e => rw [hsize] at h; cases h
  | ok _ =>
    obtain ⟨hrows, hcols⟩ := of_checkSize hsize
    rw [hsize] at h
    cases h
    exact ⟨show 0 < rows.toNat by omega, show 0 < cols.toNat by omega⟩

end New

/-! ## Arrays -/

/-- `ofTensor?` reads a matrix back from the array that it is written down as. -/
theorem ofTensor?_toTensor (m : Matrix α) : ofTensor? m.toTensor = some m := by
  simp [ofTensor?, toTensor]

/-- `ofTensor?` reads arrays with two axes only. -/
theorem shape_of_ofTensor? {t : Tensor α} (h : ofTensor? t = some m) : t.shape = [m.rows, m.cols] := by
  unfold ofTensor? at h
  split at h
  · cases h
    rfl
  · cases h

/-- `ofArray` makes matrices with entries. -/
theorem positive_of_ofArray {t : Tensor α} (h : ofArray t = .ok m) : m.Positive := by
  unfold ofArray at h
  cases hm : ofTensor? t with
  | none => simp only [hm] at h; cases h
  | some m' =>
    simp only [hm] at h
    split at h
    · cases h
    · rename_i hsize
      cases h
      constructor
      · exact Nat.pos_iff_ne_zero.mpr fun hrows => hsize (by rw [hrows, Nat.zero_mul])
      · exact Nat.pos_iff_ne_zero.mpr fun hcols => hsize (by rw [hcols, Nat.mul_zero])

/-- `ofArray` reads a matrix back from the array that it is written down as, if it has entries. -/
theorem Positive.ofArray_toTensor (h : m.Positive) : ofArray m.toTensor = .ok m := by
  have hsize : m.rows * m.cols ≠ 0 := Nat.ne_of_gt (Nat.mul_pos h.1 h.2)
  rw [ofArray, ofTensor?_toTensor]
  exact if_neg hsize

/-- `operand`, the second operand of a product or of a linear system, is any array with two axes. -/
theorem shape_of_operand {t : Tensor α} (h : operand t = .ok m) : t.shape = [m.rows, m.cols] := by
  unfold operand at h
  cases hm : ofTensor? t with
  | none => simp only [hm] at h; cases h
  | some m' =>
    simp only [hm] at h
    cases h
    exact shape_of_ofTensor? hm

/-! ## Operations -/

section Operations

/-- `multiply` gives a matrix with entries. The second factor has as many rows as the first one has
    columns, but it may have no columns. -/
theorem Positive.multiply [Zero α] [Add α] [Mul α] (ha : a.Positive) (hb : 0 < b.cols)
    (h : a.multiply b = .ok m) : m.Positive := by
  unfold Matrix.multiply at h
  split at h
  · cases h
    exact ⟨ha.1, hb⟩
  · cases h

/-- `solve` gives a matrix with entries, if the right side has columns. -/
theorem Positive.solve [Zero α] [One α] [Add α] [Sub α] [Mul α] [Div α] [BEq α] [Solver α]
    [Solver.Sized α] (ha : a.Positive) (hb : 0 < b.cols) (h : a.solve b = .ok m) : m.Positive := by
  obtain ⟨hrows, hcols⟩ := Solver.Sized.size_solve h
  exact ⟨hrows ▸ ha.2, hcols ▸ hb⟩

/-- `inverse` gives a matrix with entries. -/
theorem Positive.inverse [Zero α] [One α] [Add α] [Sub α] [Mul α] [Div α] [BEq α] [Solver α]
    [Solver.Sized α] (ha : a.Positive) (h : a.inverse = .ok m) : m.Positive := by
  obtain ⟨hrows, hcols⟩ := size_inverse h
  exact ⟨hrows ▸ ha.2, hcols ▸ ha.1⟩

/-- `setElement` keeps the size. -/
theorem Positive.setElement [Zero α] {row col : Int} {x : α} (ha : a.Positive)
    (h : a.setElement row col x = .ok m) : m.Positive := by
  unfold Matrix.setElement at h
  cases hindex : a.checkIndex row col with
  | error e => rw [hindex] at h; cases h
  | ok _ =>
    rw [hindex] at h
    cases h
    exact ha

/-- `setElements` keeps the size, however the new elements are nested. -/
theorem size_setElements {elements : Nested α} (h : a.setElements elements = .ok m) :
    m.rows = a.rows ∧ m.cols = a.cols := by
  unfold Matrix.setElements at h
  cases hnested : elements.toTensor with
  | error e => rw [hnested] at h; cases h
  | ok t =>
    rw [hnested] at h
    change (if _ : _ then _ else _) = _ at h
    split at h
    · cases h
      exact ⟨rfl, rfl⟩
    · cases h

/-- `setElements` leaves a matrix with entries. -/
theorem Positive.setElements {elements : Nested α} (ha : a.Positive)
    (h : a.setElements elements = .ok m) : m.Positive := by
  obtain ⟨hrows, hcols⟩ := size_setElements h
  exact ⟨hrows ▸ ha.1, hcols ▸ ha.2⟩

/-- `transposed` gives a matrix with entries. -/
theorem Positive.transposed [Zero α] (ha : a.Positive) : a.transposed.Positive := ⟨ha.2, ha.1⟩

/-- `normalizedColumns` gives a matrix with entries. -/
theorem Positive.normalizedColumns {a : Matrix Double} (ha : a.Positive) :
    a.normalizedColumns.Positive := ha

end Operations

/-! ## Questions -/

/-- `affinity` answers for every matrix with entries. Only a matrix without rows and columns cannot
    be asked. -/
theorem Positive.affinity [Zero α] [One α] [BEq α] (h : m.Positive) : m.affinity = .ok m.isAffine :=
  if_neg fun hempty => Nat.ne_of_gt h.1 hempty.1

end Matrix

end Georef

import Georef.Matrix.Comparison
import Georef.Proofs.Matrix.Entries
import Mathlib.Algebra.NeZero

/-!
# Zeros and ones in matrices

Which form a linear transform takes depends on where its matrix has zeros and ones, as comparison sees
them. Numbers that compare equal need not be the same (a double has two zeros), so this file keeps
comparison and equality apart: `UnitsApart` is all that the tests of a matrix ask of comparison, and
`SameUnits` relates two matrices that the tests cannot tell apart.

`EqUpToUnit x y` is how a number comes back from a form that remembers only that it was a zero or a one.
-/

namespace Georef

/-- Comparison recognises zero and one and does not confuse them. -/
class UnitsApart (α : Type) [Zero α] [One α] [BEq α] : Prop where
  zero_beq_zero : ((0 : α) == 0) = true
  one_beq_one : ((1 : α) == 1) = true
  not_zero_of_one (x : α) : (x == 1) = true → (x == 0) = false

namespace UnitsApart

variable {α : Type} [Zero α] [One α] [BEq α] [UnitsApart α]

/-- One does not compare equal to zero under `UnitsApart`. -/
theorem one_beq_zero : ((1 : α) == 0) = false := not_zero_of_one 1 one_beq_one

/-- Zero does not compare equal to one under `UnitsApart`. -/
theorem zero_beq_one : ((0 : α) == 1) = false := by
  cases h : ((0 : α) == 1) with
  | false => rfl
  | true => exact absurd zero_beq_zero (by rw [not_zero_of_one 0 h]; exact Bool.false_ne_true)

end UnitsApart

instance : UnitsApart Double where
  zero_beq_zero := by decide
  one_beq_one := by decide
  not_zero_of_one x h := by
    have hx : x.ordinal = Double.one.ordinal := by
      simp only [BEq.beq, Double.numericEq, Bool.and_eq_true, decide_eq_true_eq] at h
      exact h.2
    have hne : x.ordinal ≠ Double.ordinal 0 := by rw [hx]; decide
    show Double.numericEq x 0 = false
    simp [Double.numericEq, hne]

instance {α : Type} [Zero α] [One α] [NeZero (1 : α)] [DecidableEq α] : UnitsApart α where
  zero_beq_zero := by simp
  one_beq_one := by simp
  not_zero_of_one x h := by
    rw [beq_iff_eq] at h
    simp [h]

namespace Matrix

variable {α : Type} [Zero α] [One α] [BEq α] {m : Matrix α}

/-- What `endsAffine` looks at: a one at the end of the last row, and zeros before it. -/
theorem endsAffine_iff : m.endsAffine = true ↔
    (m.entry (m.rows - 1) (m.cols - 1) == 1) = true ∧
      ∀ j, j < m.cols - 1 → (m.entry (m.rows - 1) j == 0) = true := by
  simp [endsAffine]

/-- What `isAffine` looks at. -/
theorem isAffine_iff : m.isAffine = true ↔ m.rows = m.cols ∧ m.endsAffine = true := by
  simp [isAffine]

/-- What `isIdentity` looks at. -/
theorem isIdentity_iff : m.isIdentity = true ↔ m.rows = m.cols ∧
    ∀ i, i < m.rows → ∀ j, j < m.cols → (m.entry i j == if i = j then 1 else 0) = true := by
  simp [isIdentity]

/-- What `isIdentity` is `isAffine`, if it has a last row. -/
theorem isAffine_of_isIdentity (h : m.isIdentity = true) (hrows : 1 ≤ m.rows) :
    m.isAffine = true := by
  obtain ⟨hsquare, hentry⟩ := isIdentity_iff.mp h
  refine isAffine_iff.mpr ⟨hsquare, endsAffine_iff.mpr ⟨?_, fun j hj => ?_⟩⟩
  · have := hentry (m.rows - 1) (by omega) (m.cols - 1) (by omega)
    rwa [if_pos (by omega)] at this
  · have := hentry (m.rows - 1) (by omega) j (by omega)
    rwa [if_neg (by omega)] at this

/-- Comparison with zero and one does not tell the entries of two matrices apart. -/
structure SameUnits (a b : Matrix α) : Prop where
  rows_eq : a.rows = b.rows
  cols_eq : a.cols = b.cols
  beq_zero (i j : Nat) : i < a.rows → j < a.cols → (a.entry i j == 0) = (b.entry i j == 0)
  beq_one (i j : Nat) : i < a.rows → j < a.cols → (a.entry i j == 1) = (b.entry i j == 1)

/-- `endsAffine` sees no difference between matrices with the same zeros and ones. -/
theorem endsAffine_congr {a b : Matrix α} (h : SameUnits a b) (hrows : 1 ≤ a.rows)
    (hcols : 1 ≤ a.cols) : a.endsAffine = b.endsAffine := by
  rw [Bool.eq_iff_iff, endsAffine_iff, endsAffine_iff, ← h.rows_eq, ← h.cols_eq,
    h.beq_one _ _ (by omega) (by omega)]
  refine and_congr_right fun _ => forall_congr' fun j => imp_congr_right fun hj => ?_
  rw [h.beq_zero _ _ (by omega) (by omega)]

/-- `isAffine` sees no difference between matrices with the same zeros and ones. -/
theorem isAffine_congr {a b : Matrix α} (h : SameUnits a b) (hrows : 1 ≤ a.rows)
    (hcols : 1 ≤ a.cols) : a.isAffine = b.isAffine := by
  simp only [isAffine, endsAffine_congr h hrows hcols, h.rows_eq, h.cols_eq]

/-- `isIdentity` sees no difference between matrices with the same zeros and ones. -/
theorem isIdentity_congr {a b : Matrix α} (h : SameUnits a b) : a.isIdentity = b.isIdentity := by
  rw [Bool.eq_iff_iff, isIdentity_iff, isIdentity_iff, ← h.rows_eq, ← h.cols_eq]
  refine and_congr_right fun _ => forall_congr' fun i => imp_congr_right fun hi =>
    forall_congr' fun j => imp_congr_right fun hj => ?_
  split
  · rw [h.beq_one i j hi hj]
  · rw [h.beq_zero i j hi hj]

end Matrix

/-- `x` is `y`, or the zero or the one that `y` compares equal to. -/
def EqUpToUnit {α : Type} [Zero α] [One α] [BEq α] (x y : α) : Prop :=
  x = y ∨ (x = 0 ∨ x = 1) ∧ (y == x) = true

namespace EqUpToUnit

variable {α : Type} [Zero α] [One α] [BEq α] {x y : α}

theorem refl (x : α) : EqUpToUnit x x := .inl rfl

/-- Zero comes back for a number that compares equal to it, as `EqUpToUnit` says. -/
theorem zero (h : (y == 0) = true) : EqUpToUnit 0 y := .inr ⟨.inl rfl, h⟩

/-- One comes back for a number that compares equal to it, as `EqUpToUnit` says. -/
theorem one (h : (y == 1) = true) : EqUpToUnit 1 y := .inr ⟨.inr rfl, h⟩

variable [UnitsApart α]

/-- A number that comes back for another compares equal to zero if that does. -/
theorem beq_zero (h : EqUpToUnit x y) : (x == 0) = (y == 0) := by
  obtain rfl | ⟨rfl | rfl, hy⟩ := h
  · rfl
  · rw [hy, UnitsApart.zero_beq_zero]
  · rw [UnitsApart.not_zero_of_one y hy, UnitsApart.one_beq_zero]

/-- A number that comes back for another compares equal to one if that does. -/
theorem beq_one (h : EqUpToUnit x y) : (x == 1) = (y == 1) := by
  obtain rfl | ⟨rfl | rfl, hy⟩ := h
  · rfl
  · rw [UnitsApart.zero_beq_one]
    cases hone : (y == 1) with
    | false => rfl
    | true => exact absurd hy (by rw [UnitsApart.not_zero_of_one y hone]; exact Bool.false_ne_true)
  · rw [hy, UnitsApart.one_beq_one]

end EqUpToUnit

namespace Matrix

/-- `a` is `b` but for zeros and ones that compare equal. -/
structure EqUpToUnits {α : Type} [Zero α] [One α] [BEq α] (a b : Matrix α) : Prop where
  rows_eq : a.rows = b.rows
  cols_eq : a.cols = b.cols
  entry (i j : Nat) : i < b.rows → j < b.cols → EqUpToUnit (a.entry i j) (b.entry i j)

namespace EqUpToUnits

variable {α : Type} [Zero α] [One α] {a b : Matrix α}

theorem refl [BEq α] (a : Matrix α) : a.EqUpToUnits a := ⟨rfl, rfl, fun _ _ _ _ => .refl _⟩

/-- `EqUpToUnits` matrices have the same zeros and ones. -/
theorem sameUnits [BEq α] [UnitsApart α] (h : a.EqUpToUnits b) : SameUnits a b where
  rows_eq := h.rows_eq
  cols_eq := h.cols_eq
  beq_zero i j hi hj := (h.entry i j (h.rows_eq ▸ hi) (h.cols_eq ▸ hj)).beq_zero
  beq_one i j hi hj := (h.entry i j (h.rows_eq ▸ hi) (h.cols_eq ▸ hj)).beq_one

/-- Where numbers that compare equal are the same, `EqUpToUnits` matrices are equal. -/
theorem eq [DecidableEq α] (h : a.EqUpToUnits b) : a = b := by
  refine ext_entry h.rows_eq h.cols_eq fun i j hi hj => ?_
  obtain heq | ⟨_, heq⟩ := h.entry i j (h.rows_eq ▸ hi) (h.cols_eq ▸ hj)
  · exact heq
  · exact (beq_iff_eq.mp heq).symm

/-- As `sameAs` compares doubles, `EqUpToUnits` matrices are equal. -/
theorem sameAs {a b : Matrix Double} (h : a.EqUpToUnits b) : a.sameAs b = true := by
  -- A NaN does not compare equal to itself, but NaNs agree.
  have hagrees (x y : Double) (h : EqUpToUnit x y) : Double.agrees 0 x y = true := by
    obtain rfl | ⟨_, heq⟩ := h
    · cases hnan : x.isNaN <;> simp [Double.agrees, BEq.beq, Double.numericEq, hnan]
    · have hflip : (x == y) = true := by
        simp only [BEq.beq, Double.numericEq, Bool.and_eq_true, decide_eq_true_eq] at heq ⊢
        exact ⟨heq.1.symm, heq.2.symm⟩
      simp [Double.agrees, hflip]
  simp only [Matrix.sameAs, equals, Bool.and_eq_true, beq_iff_eq, List.all_eq_true, List.mem_range]
  refine ⟨⟨h.rows_eq, h.cols_eq⟩, fun i hi j hj => hagrees _ _ ?_⟩
  exact h.entry i j (h.rows_eq ▸ hi) (h.cols_eq ▸ hj)

end EqUpToUnits

end Matrix

end Georef

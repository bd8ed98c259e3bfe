import Georef.Proofs.Double.Neutral
import Georef.Proofs.Double.RoundingError
import Georef.Proofs.Matrix.System
import Georef.Proofs.Matrix.Units

/-!
# Zeros and ones in rounded arithmetic

Whatever an arithmetic rounds, it leaves a finite number as it is when it is multiplied by one or when zero is added
to it or taken away. That is enough for products to keep the rows of zeros and a single one that are found in affine
matrices and identities. As numbers are compared, not told apart, a zero may have another sign in the product.

## Key results

- `ExactUnits`: what is asked of an arithmetic; doubles and exact numbers have it
- `sumRange_single`: a sum with a single term that is not a zero
- `isAffine_product`: products of affine matrices are affine
- `isIdentity_product`: products of identities are identities
-/

namespace Georef

/-- Zero and one are neutral for finite numbers, as comparison sees it. Nothing is said about other numbers. -/
class ExactUnits (α : Type) [Zero α] [One α] [Add α] [Sub α] [Mul α] [Div α] [BEq α] [Solver α] : Prop
    extends UnitsApart α, PartialEquivBEq α where
  finite_zero : Solver.finite (0 : α) = true
  finite_one : Solver.finite (1 : α) = true
  finite_of_beq {x y : α} : (x == y) = true → Solver.finite x = true → Solver.finite y = true
  zero_mul {z x : α} : (z == 0) = true → Solver.finite x = true → (z * x == 0) = true
  one_mul {u x : α} : (u == 1) = true → Solver.finite x = true → (u * x == x) = true
  zero_add {z x : α} : (z == 0) = true → Solver.finite x = true → (z + x == x) = true
  add_zero {x z : α} : Solver.finite x = true → (z == 0) = true → (x + z == x) = true
  sub_zero {x z : α} : Solver.finite x = true → (z == 0) = true → (x - z == x) = true
  /-- Zero and one themselves stay the same numbers. -/
  unit_sub_zero {x z : α} : x = 0 ∨ x = 1 → (z == 0) = true → x - z = x
  unit_mul_one {x : α} : x = 0 ∨ x = 1 → x * 1 = x
  one_div_one {u : α} : (u == 1) = true → 1 / u = 1
  /-- No number is smaller than a zero, signs apart. -/
  not_smaller_zero {x z : α} : (z == 0) = true → Solver.smaller x z = false

/-! ## Doubles -/

namespace Double

variable {x y z : Double}

/-- Numbers that compare equal are the same. -/
theorem sameNumber_of_beq (h : (x == y) = true) : SameNumber x y := (beq_iff_sameNumber.mp h).2

/-- Finite numbers that are the same compare equal. -/
theorem beq_of_sameNumber_finite (h : SameNumber x y) (hy : y.Finite) : (x == y) = true :=
  beq_iff_sameNumber.mpr ⟨h.isNaN_eq.trans hy.isNaN_eq_false, h⟩

/-- Only one compares equal to one. -/
theorem eq_one_of_beq (h : (x == 1) = true) : x = 1 :=
  (sameNumber_of_beq h).eq_of (p := (· == 1)) h fun a => by cases a <;> decide

/-- Only the two zeros compare equal to zero. -/
theorem eq_signedZero_of_beq (h : (z == 0) = true) : ∃ b, z = signedZero b := by
  obtain rfl | ⟨-, b, -, rfl⟩ := SameNumber.of_beq_zero h
  · exact ⟨false, rfl⟩
  · exact ⟨b, rfl⟩

/-- `Finite` factors may change places. -/
theorem Finite.mul_comm (hx : x.Finite) (hy : y.Finite) : x * y = y * x := by
  have hsign : (x.negative != y.negative) = (y.negative != x.negative) := by
    cases x.negative <;> cases y.negative <;> rfl
  rw [hx.mul_eq hy, hy.mul_eq hx, hsign, Nat.mul_comm]

/-- `Finite` summands may change places. -/
theorem Finite.add_comm (hx : x.Finite) (hy : y.Finite) : x + y = y + x := by
  rw [hx.add_eq hy, hy.add_eq hx, Int.add_comm, Bool.and_comm]

/-- Adding a zero of either sign gives the `SameNumber`. -/
theorem Finite.add_zero (hx : x.Finite) (hz : SameNumber z 0) : SameNumber (x + z) x :=
  ((SameNumber.refl x).add hz).trans (sameNumber_add_zero hx.isNaN_eq_false)

/-- No number is smaller than a zero, signs apart. -/
theorem not_abs_lt_abs_of_zero (hz : (z == 0) = true) : ¬x.abs < z.abs := by
  obtain ⟨b, rfl⟩ := eq_signedZero_of_beq hz
  intro h
  have hlt : x.abs.lt (signedZero b).abs = true := h
  have hzero : (signedZero b).abs.ordinal = 0 := rfl
  simp only [lt, Bool.and_eq_true, decide_eq_true_eq, hzero, ordinal_abs] at hlt
  omega

end Double

open Double in
instance : ExactUnits Double where
  symm h := by
    obtain ⟨hnan, hsame⟩ := beq_iff_sameNumber.mp h
    exact beq_iff_sameNumber.mpr ⟨hsame.isNaN_eq ▸ hnan, hsame.symm⟩
  trans h h' := ((sameNumber_of_beq h).beq_eq _).trans h'
  finite_zero := rfl
  finite_one := rfl
  finite_of_beq h hx := (sameNumber_of_beq h).isFinite_eq.symm.trans hx
  zero_mul := by
    intro z x hz hx
    obtain ⟨b, rfl⟩ := eq_signedZero_of_beq hz
    obtain ⟨c, hc⟩ := Finite.exists_signedZero_mul hx b
    rw [hc]
    cases c <;> decide
  one_mul := by
    intro u x hu hx
    obtain rfl := eq_one_of_beq hu
    have hone : (1 : Double).Finite := rfl
    have hsame : SameNumber (1 * x) x := Finite.mul_comm hone hx ▸ Finite.mul_one hx
    exact beq_of_sameNumber_finite hsame hx
  zero_add := by
    intro z x hz hx
    obtain ⟨b, rfl⟩ := eq_signedZero_of_beq hz
    have hsame : SameNumber (signedZero b + x) x :=
      Finite.add_comm (finite_signedZero b) hx ▸ Finite.add_zero hx (.zeros b false)
    exact beq_of_sameNumber_finite hsame hx
  add_zero := by
    intro x z hx hz
    exact beq_of_sameNumber_finite (Finite.add_zero hx (SameNumber.of_beq_zero hz).symm) hx
  sub_zero := by
    intro x z hx hz
    exact beq_of_sameNumber_finite (Finite.sub_zero hx (SameNumber.of_beq_zero hz).symm) hx
  unit_sub_zero := by
    intro x z hx hz
    obtain ⟨b, rfl⟩ := eq_signedZero_of_beq hz
    obtain rfl | rfl := hx
    · exact Double.zero_sub_signedZero b
    · exact Double.one_sub_signedZero b
  unit_mul_one := by
    intro x hx
    obtain rfl | rfl := hx
    · exact Double.zero_mul_one
    · exact Double.one_mul_one
  one_div_one := by
    intro u hu
    obtain rfl := eq_one_of_beq hu
    exact Double.one_div_one
  not_smaller_zero hz := decide_eq_false (not_abs_lt_abs_of_zero hz)

/-! ## Exact numbers -/

/-- Where nothing is rounded, everything asked for holds. -/
instance {K : Type} [Field K] [LinearOrder K] [IsStrictOrderedRing K] [Solver K] [Solver.Exact K] : ExactUnits K where
  symm h := beq_iff_eq.mpr (beq_iff_eq.mp h).symm
  trans h h' := beq_iff_eq.mpr ((beq_iff_eq.mp h).trans (beq_iff_eq.mp h'))
  finite_zero := Solver.Exact.finite 0
  finite_one := Solver.Exact.finite 1
  finite_of_beq _ _ := Solver.Exact.finite _
  zero_mul hz _ := by simp [beq_iff_eq.mp hz]
  one_mul hu _ := by simp [beq_iff_eq.mp hu]
  zero_add hz _ := by simp [beq_iff_eq.mp hz]
  add_zero _ hz := by simp [beq_iff_eq.mp hz]
  sub_zero _ hz := by simp [beq_iff_eq.mp hz]
  unit_sub_zero _ hz := by simp [beq_iff_eq.mp hz]
  unit_mul_one _ := mul_one _
  one_div_one hu := by simp [beq_iff_eq.mp hu]
  not_smaller_zero {x z} hz := by
    rw [Bool.eq_false_iff, ne_eq, Solver.ExactPivots.smaller_iff, beq_iff_eq.mp hz, abs_zero]
    exact not_lt.mpr (abs_nonneg x)

namespace Matrix

variable {α : Type} [Zero α] [One α] [Add α] [Sub α] [Mul α] [Div α] [BEq α] [Solver α] [ExactUnits α]

open ExactUnits

/-! ## Sums -/

/-- `sumRange` of zeros is a zero, whatever their signs. -/
theorem sumRange_zeros {n : Nat} {f : Nat → α} (h : ∀ k < n, (f k == 0) = true) : (sumRange n f == 0) = true := by
  induction n with
  | zero => exact UnitsApart.zero_beq_zero
  | succ n ih =>
    rw [sumRange_succ]
    have hlast := h n (Nat.lt_succ_self n)
    have hsum := zero_add (ih fun k hk => h k (by omega)) (finite_of_beq (PartialEquivBEq.symm hlast) finite_zero)
    exact PartialEquivBEq.trans hsum hlast

/-- `sumRange` with a single term that is not a zero is that term. -/
theorem sumRange_single {n i : Nat} {f : Nat → α} (hi : i < n) (hfinite : Solver.finite (f i) = true)
    (h : ∀ k < n, k ≠ i → (f k == 0) = true) : (sumRange n f == f i) = true := by
  induction n with
  | zero => cases hi
  | succ n ih =>
    rw [sumRange_succ]
    -- The term is the last one, or it is in the sum already.
    obtain rfl | hlt := Nat.eq_or_lt_of_le (Nat.le_of_lt_succ hi)
    · exact zero_add (sumRange_zeros fun k hk => h k (by omega) (by omega)) hfinite
    · have hsum := ih hlt fun k hk hki => h k (by omega) hki
      have hfinite' := finite_of_beq (PartialEquivBEq.symm hsum) hfinite
      exact PartialEquivBEq.trans (add_zero hfinite' (h n (by omega) (by omega))) hsum

/-! ## Rows with a single one -/

section UnitRow

omit [Add α] [Sub α] [Mul α] [Div α] [Solver α] [ExactUnits α]

variable {a : Matrix α}

/-- Row `i` of the matrix has a one at place `k` and zeros elsewhere. -/
def UnitRow (a : Matrix α) (i k : Nat) : Prop := ∀ j < a.cols, (a.entry i j == if j = k then 1 else 0) = true

/-- The one of a `UnitRow`. -/
theorem UnitRow.one {i k : Nat} (h : a.UnitRow i k) (hk : k < a.cols) : (a.entry i k == 1) = true := by
  simpa using h k hk

/-- The zeros of a `UnitRow`. -/
theorem UnitRow.zero {i j k : Nat} (h : a.UnitRow i k) (hj : j < a.cols) (hne : j ≠ k) :
    (a.entry i j == 0) = true := by
  simpa [hne] using h j hj

/-- `isAffine` holds of the square matrices that have a `UnitRow` at their end. -/
theorem isAffine_iff_unitRow [UnitsApart α] :
    a.isAffine = true ↔ 0 < a.rows ∧ a.rows = a.cols ∧ a.UnitRow (a.rows - 1) (a.rows - 1) := by
  rw [isAffine_iff, endsAffine_iff]
  constructor
  · rintro ⟨hsquare, hone, hzero⟩
    have hpos : 0 < a.rows := by
      rw [Nat.pos_iff_ne_zero]
      intro hrows
      -- Without rows there is no one to be found.
      rw [entry_of_rows_le (by omega), UnitsApart.zero_beq_one] at hone
      cases hone
    refine ⟨hpos, hsquare, fun j hj => ?_⟩
    split
    · rename_i hlast
      rw [hlast]
      rwa [← hsquare] at hone
    · exact hzero j (by omega)
  · rintro ⟨hpos, hsquare, hrow⟩
    refine ⟨hsquare, ?_, fun j hj => hrow.zero (by omega) (by omega)⟩
    rw [← hsquare]
    exact hrow.one (by omega)

/-- `isIdentity` holds of the square matrices that consist of `UnitRow`s with their ones on the
    diagonal. -/
theorem isIdentity_iff_unitRow : a.isIdentity = true ↔ a.rows = a.cols ∧ ∀ i < a.rows, a.UnitRow i i := by
  have hturn (i j : Nat) : (if i = j then 1 else 0 : α) = if j = i then 1 else 0 := if_congr eq_comm rfl rfl
  simp only [isIdentity_iff, UnitRow, hturn]

/-- A square `eye` is an identity. -/
theorem isIdentity_eye [UnitsApart α] (n : Nat) : (eye n n : Matrix α).isIdentity = true := by
  refine isIdentity_iff.mpr ⟨rfl, fun i (hi : i < n) j (hj : j < n) => ?_⟩
  rw [entry_eye hi hj]
  split
  · exact UnitsApart.one_beq_one
  · exact UnitsApart.zero_beq_zero

end UnitRow

/-! ## Products -/

variable {a b : Matrix α}

/-- A `UnitRow` takes out one of the rows of the other matrix. -/
theorem UnitRow.entry_product {i j k : Nat} (ha : a.UnitRow i k) (hi : i < a.rows) (hj : j < b.cols)
    (hk : k < a.cols) (hfinite : ∀ l < a.cols, Solver.finite (b.entry l j) = true) :
    ((a.product b).entry i j == b.entry k j) = true := by
  have hterm := one_mul (ha.one hk) (hfinite k hk)
  rw [product, entry_ofFn hi hj]
  refine PartialEquivBEq.trans (sumRange_single hk ?_ fun l hl hlk => ?_) hterm
  · exact finite_of_beq (PartialEquivBEq.symm hterm) (hfinite k hk)
  · exact zero_mul (ha.zero hl hlk) (hfinite l hl)

/-- A `UnitRow` of the product of two matrices. -/
theorem UnitRow.product {i k l : Nat} (ha : a.UnitRow i k) (hb : b.UnitRow k l) (hi : i < a.rows) (hk : k < a.cols)
    (hfinite : ∀ k < a.cols, ∀ j < b.cols, Solver.finite (b.entry k j) = true) : (a.product b).UnitRow i l := by
  intro j hj
  exact PartialEquivBEq.trans (ha.entry_product hi hj hk fun k hk => hfinite k hk j hj) (hb j hj)

/-- `product` of affine matrices is affine, if the entries of the second one are finite. -/
theorem isAffine_product (hsize : a.cols = b.rows)
    (hfinite : ∀ i < b.rows, ∀ j < b.cols, Solver.finite (b.entry i j) = true) (ha : a.isAffine = true)
    (hb : b.isAffine = true) : (a.product b).isAffine = true := by
  obtain ⟨hpos, hsquare, hrow⟩ := isAffine_iff_unitRow.mp ha
  obtain ⟨-, hsquare', hrow'⟩ := isAffine_iff_unitRow.mp hb
  have hrows : a.rows = b.rows := hsquare.trans hsize
  rw [← hrows] at hrow'
  exact isAffine_iff_unitRow.mpr ⟨hpos, hrows.trans hsquare',
    hrow.product hrow' (by omega) (by omega) fun k hk => hfinite k (hsize ▸ hk)⟩

/-- The entries of a `UnitRow` are finite. -/
theorem UnitRow.finite {i j k : Nat} (h : a.UnitRow i k) (hj : j < a.cols) : Solver.finite (a.entry i j) = true := by
  have hentry := h j hj
  split at hentry
  · exact finite_of_beq (PartialEquivBEq.symm hentry) finite_one
  · exact finite_of_beq (PartialEquivBEq.symm hentry) finite_zero

/-- `product` of identities is an identity. -/
theorem isIdentity_product (hsize : a.cols = b.rows) (ha : a.isIdentity = true) (hb : b.isIdentity = true) :
    (a.product b).isIdentity = true := by
  obtain ⟨hsquare, hrows⟩ := isIdentity_iff_unitRow.mp ha
  obtain ⟨hsquare', hrows'⟩ := isIdentity_iff_unitRow.mp hb
  refine isIdentity_iff_unitRow.mpr ⟨hsquare.trans (hsize.trans hsquare'), fun i (hi : i < a.rows) => ?_⟩
  exact (hrows i hi).product (hrows' i (by omega)) hi (by omega) fun k hk j hj => (hrows' k (by omega)).finite hj

end Matrix

end Georef

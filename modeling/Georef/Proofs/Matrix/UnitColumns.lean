import Georef.Matrix.Comparison
import Georef.Proofs.Matrix.Lengths
import Georef.Proofs.Matrix.SumErrors

/-!
# Columns divided by their norms

A column is divided by the root of its sum of squares, as it is computed. Where the sum is infinite every quotient is
a zero; where it is a zero, because all squares were lost, the column stays as it is although it may have elements
other than zero. In between the column gets the length one, up to what rounding does to the sum, to its root and to
the quotients. This is below 10^-12 for a column that is not too long and whose elements are not too large, with one
among them that is not too small.

## Key results

- `columnSquares_beq_zero_iff`, `not_finite_columnSquares`: when the sum of squares is a zero, or infinite
- `abs_columnLength_sub_one_le`: the length of a divided column
- `normalizedColumns_spec`: what becomes of each column
-/

namespace Georef

open Double

namespace Matrix

/-- The sum of the squares of a column, as it is computed. -/
def columnSquares (m : Matrix Double) (j : Nat) : Double := sumRange m.rows fun k => m.entry k j * m.entry k j

/-- The exact Euclidean length of a column. -/
noncomputable def columnLength (m : Matrix Double) (j : Nat) : ℝ :=
  euclideanLength m.rows fun k => (m.entry k j).toReal

variable {m : Matrix Double} {i j : Nat}

@[simp] theorem rows_normalizedColumns : m.normalizedColumns.rows = m.rows := rfl

@[simp] theorem cols_normalizedColumns : m.normalizedColumns.cols = m.cols := rfl

/-- `normalizedColumns` divides a column by the root of its sum of squares, unless this sum compares
    equal to zero. -/
theorem entry_normalizedColumns (hi : i < m.rows) (hj : j < m.cols) :
    m.normalizedColumns.entry i j =
      if m.columnSquares j == 0 then m.entry i j else m.entry i j / (m.columnSquares j).sqrt :=
  entry_ofFn hi hj

section Column

variable {rows : Nat} {x : Nat → Double} (hx : ∀ k < rows, (x k).Finite)

include hx

/-- No number is more than twice as large as `sqrt` of the sum of squares. -/
theorem abs_toReal_le_sqrt (h : (sumRange rows fun k => x k * x k).Finite)
    (hne : (sumRange rows fun k => x k * x k).magnitude ≠ 0) {k : Nat} (hk : k < rows) :
    |(x k).toReal| ≤ 2 * (sumRange rows fun k => x k * x k).sqrt.toReal := by
  have hround := roundoff_pos
  have hround' := roundoff_le
  have hsquare (k : Nat) (hk : k < rows) : (x k * x k).Nonneg := nonneg_mul_self (hx k hk)
  have hsum : (sumRange rows fun k => x k * x k).Nonneg := nonneg_sumRange hsquare
  obtain ⟨hterm, hle⟩ := sumRange_terms hsquare h k hk
  have herror := abs_toReal_mul_sub_le (hx k hk) (hx k hk) hterm
  rw [abs_of_nonneg (hsquare k hk).toReal_nonneg, ← sq] at herror
  have hunit := leastUnit_le hsum.negative_eq hne
  have hroot := (toReal_sqrt_pos h hsum.negative_eq hne).le
  have hsum_le := toReal_le_toReal_sqrt_sq h hsum.negative_eq hne
  generalize (sumRange rows fun k => x k * x k) = total at *
  generalize (x k * x k).toReal = square at *
  -- The exact square is below twice the sum, also if it was rounded down to a zero.
  have htwice : (x k).toReal ^ 2 ≤ 2 * total.toReal := by
    have hbelow := (abs_le.mp herror).1
    nlinarith
  refine abs_le_of_sq_le_sq ?_ (by positivity)
  nlinarith

/-- `euclideanLength` of a column that is divided by the root of its sum of squares. -/
theorem abs_euclideanLength_div_sub_one_le (h : (sumRange rows fun k => x k * x k).Finite)
    (hne : (sumRange rows fun k => x k * x k).magnitude ≠ 0) :
    |euclideanLength rows (fun k => (x k / (sumRange rows fun k => x k * x k).sqrt).toReal) - 1| ≤
      lengthTolerance rows (sumRange rows fun k => x k * x k).toReal := by
  have hunit := leastUnit_pos
  have hsum : (sumRange rows fun k => x k * x k).Nonneg := nonneg_sumRange fun k hk => nonneg_mul_self (hx k hk)
  have herror := abs_toReal_sumSquares_sub_le hx h
  have hterms (k : Nat) (hk : k < rows) := abs_toReal_le_sqrt hx h hne hk
  obtain ⟨hfinite, hsign, hsqrt⟩ := abs_toReal_sqrt_sub_le h hsum.negative_eq hne
  have hroot := toReal_sqrt_pos h hsum.negative_eq hne
  have hpositive : 0 < (sumRange rows fun k => x k * x k).toReal := hunit.trans_le (leastUnit_le hsum.negative_eq hne)
  generalize (sumRange rows fun k => x k * x k) = total at *
  have hmagnitude : total.sqrt.magnitude ≠ 0 := fun hzero => hroot.ne' (toReal_eq_zero_iff.mpr hzero)
  -- Every quotient loses as much, so the lengths before and after rounding are close.
  have hlengths := abs_euclideanLength_sub_le (n := rows) (f := fun k => (x k / total.sqrt).toReal)
    (g := fun k => (x k).toReal / total.sqrt.toReal) roundoff_pos.le (by positivity : 0 ≤ leastUnit / 2)
    fun k hk => abs_toReal_div_sub_le (hx k hk) hfinite hsign hmagnitude
      (Finite.div (hx k hk) hfinite hsign hmagnitude (hterms k hk))
  rw [euclideanLength_div hroot, euclideanLength] at hlengths
  exact abs_length_sub_one_le hpositive (Finset.sum_nonneg fun k _ => mul_self_nonneg _) hroot
    (by simpa only [sq] using herror) hsqrt hlengths

end Column

/-! ## Sums of squares -/

/-- The limits of the sizes, in units. -/
private theorem limit_units :
    (1e155 : Double).negative = false ∧ powerOfTwo 1586 ≤ unitsOfMagnitude (1e155 : Double).magnitude ∧
      (1e150 : Double).negative = false ∧ unitsOfMagnitude (1e150 : Double).magnitude ≤ powerOfTwo 1573 ∧
      (1e-150 : Double).negative = false ∧ powerOfTwo 575 ≤ unitsOfMagnitude (1e-150 : Double).magnitude := by
  decide +kernel

/-- A finite number divided by infinity. -/
theorem isZero_div_infinity {x : Double} (hx : x.Finite) : (x / infinity false).isZero = true := by
  show (x.div (infinity false)).isZero = true
  rw [div, hx.isNaN_eq_false, hx.isInfinite_eq_false]
  rfl

section Squares

variable (hm : ∀ i < m.rows, (m.entry i j).Finite)

include hm

theorem nonneg_columnSquares : (m.columnSquares j).Nonneg := nonneg_sumRange fun k hk => nonneg_mul_self (hm k hk)

/-- `columnSquares` compares equal to zero exactly if every square is lost. -/
theorem columnSquares_beq_zero_iff :
    (m.columnSquares j == 0) = true ↔
      ∀ i < m.rows, (m.entry i j).toReal * (m.entry i j).toReal ≤ leastUnit / 2 := by
  have hsquare (k : Nat) (hk : k < m.rows) := nonneg_mul_self (hm k hk)
  rw [(nonneg_columnSquares hm).beq_zero_iff, columnSquares, magnitude_sumRange_eq_zero_iff hsquare]
  refine forall₂_congr fun k hk => ?_
  rw [magnitude_mul_self_eq_zero_iff (hm k hk), sq]

/-- One element of 1e155 or more makes `columnSquares` infinite. -/
theorem not_finite_columnSquares (h : ∃ i < m.rows, (1e155 : Double) ≤ (m.entry i j).abs) :
    ¬(m.columnSquares j).Finite := by
  obtain ⟨i, hi, hlarge⟩ := h
  obtain ⟨hsign, hunits, -⟩ := limit_units
  intro hfinite
  have hterm := (sumRange_terms (fun k hk => nonneg_mul_self (hm k hk)) hfinite i hi).1
  refine not_finite_mul_self (hm i hi) (hunits.trans ?_) hterm
  exact unitsOfMagnitude_strictMono.monotone (magnitude_le_of_le_abs hsign hlarge)

/-- An infinite `columnSquares` leaves only zeros. -/
theorem isZero_normalizedColumns (h : ¬(m.columnSquares j).Finite) (hi : i < m.rows) (hj : j < m.cols) :
    (m.normalizedColumns.entry i j).isZero = true := by
  have hinfinity := (nonneg_columnSquares hm).finite_or_eq_infinity.resolve_left h
  have hne : (infinity false == 0) = false := by decide
  have hroot : (infinity false).sqrt = infinity false := by decide
  rw [entry_normalizedColumns hi hj, hinfinity, hne, if_neg Bool.false_ne_true, hroot]
  exact isZero_div_infinity (hm i hi)

/-- `columnLength` of a column whose sum of squares is finite and not lost. -/
theorem abs_columnLength_sub_one_le (hj : j < m.cols) (h : (m.columnSquares j).Finite)
    (hne : (m.columnSquares j == 0) = false) :
    |m.normalizedColumns.columnLength j - 1| ≤ lengthTolerance m.rows (m.columnSquares j).toReal := by
  rw [columnLength, rows_normalizedColumns]
  have hentry (k : Nat) (hk : k < m.rows) : m.normalizedColumns.entry k j =
      m.entry k j / (sumRange m.rows fun k => m.entry k j * m.entry k j).sqrt := by
    rw [entry_normalizedColumns hk hj, hne]
    rfl
  rw [euclideanLength_congr fun k hk => congrArg toReal (hentry k hk)]
  refine abs_euclideanLength_div_sub_one_le hm h fun hzero => ?_
  rw [(nonneg_columnSquares hm).beq_zero_iff.mpr hzero] at hne
  cases hne

/-- If no element is above 1e150, `columnSquares` is finite. -/
theorem finite_columnSquares (hrows : m.rows ≤ 18000) (h : ∀ i < m.rows, (m.entry i j).abs ≤ 1e150) :
    (m.columnSquares j).Finite := by
  obtain ⟨-, -, hsign, hunits, -⟩ := limit_units
  have hbound : 0 ≤ powerOfTwo (52 + 2020) * leastUnit := mul_nonneg (Nat.cast_nonneg _) leastUnit_pos.le
  have hterm (k : Nat) (hk : k < m.rows) :=
    toReal_mul_self_le (e := 2020) (hm k hk)
      ((unitsOfMagnitude_strictMono.monotone (magnitude_le_of_abs_le hsign (h k hk))).trans hunits)
      (by decide) (by decide)
  have hcount : (m.rows : ℝ) ≤ 18000 := by exact_mod_cast hrows
  have hroom : 2 * ((m.rows : ℝ) + 1) ≤ 33554432 := by linarith
  -- So many rows still leave the relative error of the whole sum below one.
  have hround : 2 * ((m.rows : ℝ) + 1) * roundoff ≤ 1 := by
    rw [roundoff_eq]
    linarith
  have hpower : (powerOfTwo (52 + 2045) : ℝ) = 33554432 * powerOfTwo (52 + 2020) := by
    have hfactor : powerOfTwo 25 = 33554432 := rfl
    rw [show 52 + 2045 = 25 + (52 + 2020) from rfl, powerOfTwo_add, hfactor, Nat.cast_mul, Nat.cast_ofNat]
  -- The sum has room for 25 more binary digits than a single square needs.
  refine (sumRange_finite (e := 2045) (fun k hk => nonneg_mul_self (hm k hk)) hterm hbound hround ?_
    (by decide)).1
  rw [hpower, mul_assoc 33554432]
  exact mul_le_mul_of_nonneg_right hroom hbound

/-- One element of 1e-150 or more keeps `columnSquares` away from zero. -/
theorem le_columnSquares (hfinite : (m.columnSquares j).Finite)
    (h : ∃ i < m.rows, (1e-150 : Double) ≤ (m.entry i j).abs) :
    powerOfTwo (52 + 24) * leastUnit ≤ (m.columnSquares j).toReal := by
  obtain ⟨i, hi, hlarge⟩ := h
  obtain ⟨-, -, -, -, hsign, hunits⟩ := limit_units
  have hsquare := le_toReal_mul_self (e := 24) (hm i hi)
    (hunits.trans (unitsOfMagnitude_strictMono.monotone (magnitude_le_of_le_abs hsign hlarge)))
    (by decide) (by decide)
  exact hsquare.trans (sumRange_terms (fun k hk => nonneg_mul_self (hm k hk)) hfinite i hi).2

end Squares

/-! ## What becomes of a column -/

/-- What becomes of a column when the columns are divided by their norms. -/
structure NormalizedColumn (m : Matrix Double) (j : Nat) : Prop where
  /-- If every square is lost, as in a column of zeros, the column stays as it is. -/
  unchanged : (∀ i < m.rows, (m.entry i j).toReal * (m.entry i j).toReal ≤ leastUnit / 2) →
    ∀ i < m.rows, m.normalizedColumns.entry i j = m.entry i j
  /-- If the sum of squares is infinite, only zeros are left. -/
  vanishes : ¬(m.columnSquares j).Finite → ∀ i < m.rows, (m.normalizedColumns.entry i j).isZero = true
  /-- One element of 1e155 or more is enough for this. -/
  overflows : (∃ i < m.rows, (1e155 : Double) ≤ (m.entry i j).abs) → ¬(m.columnSquares j).Finite
  /-- In all other cases the column gets the length one, up to the errors of rounding. -/
  length : (m.columnSquares j).Finite →
    (∃ i < m.rows, leastUnit / 2 < (m.entry i j).toReal * (m.entry i j).toReal) →
    |m.normalizedColumns.columnLength j - 1| ≤ lengthTolerance m.rows (m.columnSquares j).toReal
  /-- These are below 1e-12 if there are no more than 18000 elements, none above 1e150 in size and not all below
  1e-150. -/
  ordinary : m.rows ≤ 18000 → (∀ i < m.rows, (m.entry i j).abs ≤ 1e150) →
    (∃ i < m.rows, (1e-150 : Double) ≤ (m.entry i j).abs) → |m.normalizedColumns.columnLength j - 1| ≤ 1e-12

/-- Dividing the columns of a matrix of finite numbers by their norms keeps its size, and makes a column one of length
one unless the sum of its squares is lost or infinite. -/
theorem normalizedColumns_spec (m : Matrix Double) (hm : ∀ i < m.rows, ∀ j < m.cols, (m.entry i j).Finite) :
    m.normalizedColumns.rows = m.rows ∧ m.normalizedColumns.cols = m.cols ∧
      ∀ j < m.cols, m.NormalizedColumn j := by
  refine ⟨rfl, rfl, fun j hj => ?_⟩
  have hcolumn (i : Nat) (hi : i < m.rows) := hm i hi j hj
  have hzero := columnSquares_beq_zero_iff hcolumn
  have hlength := abs_columnLength_sub_one_le hcolumn hj
  constructor
  case unchanged =>
    intro hlost i hi
    rw [entry_normalizedColumns hi hj, hzero.mpr hlost]
    rfl
  case vanishes => exact fun hinfinite i hi => isZero_normalizedColumns hcolumn hinfinite hi hj
  case overflows => exact not_finite_columnSquares hcolumn
  case length =>
    rintro hfinite ⟨i, hi, hlarge⟩
    refine hlength hfinite (Bool.eq_false_iff.mpr fun hlost => ?_)
    exact absurd (hzero.mp hlost i hi) (not_le.mpr hlarge)
  case ordinary =>
    intro hrows hupper hlower
    have hfinite := finite_columnSquares hcolumn hrows hupper
    have htotal := le_columnSquares hcolumn hfinite hlower
    refine (hlength hfinite (Bool.eq_false_iff.mpr fun hlost => ?_)).trans (lengthTolerance_le hrows htotal)
    -- A sum that was lost would be zero.
    rw [(nonneg_columnSquares hcolumn).beq_zero_iff, ← toReal_eq_zero_iff] at hlost
    rw [hlost] at htotal
    exact absurd htotal (not_le.mpr (mul_pos (Nat.cast_pos.mpr (powerOfTwo_pos _)) leastUnit_pos))

/-- A column of ordinary numbers, one that overflows, one that is lost and one of zeros. -/
def mixedColumns : Matrix Double := ofRows 2 4 [[3.0, 1e200, 1e-200, 0], [4.0, 1, 0, 0]]

theorem normalizedColumns_spec_mixed :
    (∀ i < mixedColumns.rows, ∀ j < mixedColumns.cols, (mixedColumns.entry i j).Finite) ∧
      |mixedColumns.normalizedColumns.columnLength 0 - 1| ≤ 1e-12 ∧
      (∀ i < 2, (mixedColumns.normalizedColumns.entry i 1).isZero = true) ∧
      (∀ j < 4, mixedColumns.NormalizedColumn j) := by
  have hfinite : ∀ i < mixedColumns.rows, ∀ j < mixedColumns.cols, (mixedColumns.entry i j).Finite := by decide +kernel
  obtain ⟨-, -, hcolumns⟩ := normalizedColumns_spec mixedColumns hfinite
  have hlow : ∀ i < mixedColumns.rows, (mixedColumns.entry i 0).abs ≤ 1e150 := by decide +kernel
  have hhigh : (1e-150 : Double) ≤ (mixedColumns.entry 0 0).abs := by decide +kernel
  have hover : (1e155 : Double) ≤ (mixedColumns.entry 0 1).abs := by decide +kernel
  have hfirst := hcolumns 0 (by decide)
  have hsecond := hcolumns 1 (by decide)
  exact ⟨hfinite, hfirst.ordinary (by decide) hlow ⟨0, by decide, hhigh⟩,
    hsecond.vanishes (hsecond.overflows ⟨0, by decide, hover⟩), hcolumns⟩

/-- Not every column that is not zero gets the length one: 1e200 becomes zero, and 1e-200 stays. -/
theorem not_unit_columns :
    (¬∀ m : Matrix Double, (∀ i < m.rows, ∀ j < m.cols, (m.entry i j).Finite) →
      ∀ j < m.cols, (∃ i < m.rows, (m.entry i j).isZero = false) →
        |m.normalizedColumns.columnLength j - 1| ≤ 1e-12) ∧
      (ofRows 1 1 [[(1e200 : Double)]]).normalizedColumns.entry 0 0 = 0 ∧
      (ofRows 1 1 [[(1e-200 : Double)]]).normalizedColumns.entry 0 0 = 1e-200 := by
  have hzero : (ofRows 1 1 [[(1e200 : Double)]]).normalizedColumns.entry 0 0 = 0 := by decide +kernel
  refine ⟨fun h => ?_, hzero, by decide +kernel⟩
  have hlength := h (ofRows 1 1 [[1e200]]) (by decide +kernel) 0 (by decide) ⟨0, by decide, by decide +kernel⟩
  have hrows : (ofRows 1 1 [[(1e200 : Double)]]).normalizedColumns.rows = 1 := rfl
  simp only [columnLength, euclideanLength, hrows, Finset.sum_range_one, hzero, toReal_zero] at hlength
  norm_num at hlength

end Matrix

end Georef

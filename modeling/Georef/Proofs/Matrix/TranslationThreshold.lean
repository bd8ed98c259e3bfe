import Georef.Proofs.Matrix.Bordered
import Georef.Proofs.Matrix.DefaultSolver
import Georef.Proofs.Matrix.TranslationCondition
import Mathlib.Tactic.FieldSimp
import Mathlib.Tactic.LinearCombination

/-!
# Where the default solver draws the line between translations

The Gram matrix of a translation is bordered, so `Conditioning.positiveDefinite` comes down to one comparison, and the
singular values that `Conditioning.wellConditioned` finds can be located for every translation. The condition number is
not above the threshold of 2^52 exactly if the smallest singular value, as a double, is not below 2^-26, and that is a
bound on the length. So the default solver judges translations rightly, with hardly any margin.

## Key results

- `allAbove_translationMatrix_iff`, `allBelow_translationMatrix_iff`: where the singular values lie
- `wellConditioned_translationMatrix_iff`: a translation is well-conditioned exactly if it is short
- `Solver.gauges_translation`: the default solver is right about translations
-/

namespace Georef

open Double Georef.Matrix

/-! ## Translations -/

/-- Half-way between 2^-26 and the double below it. -/
def leastSingularValue : ℚ := 1 / 2 ^ 26 - 1 / 2 ^ 80

/-- The vector is shorter than `1 / c - c` for the least singular value `c`, which is a bit less than 2^26. -/
def IsShort (offsets : List Double) : Prop :=
  squaredLength (offsets.map value) * leastSingularValue ^ 2 < (1 - leastSingularValue ^ 2) ^ 2

/-- Vectors up to a bit less than 2^26 are `IsShort`, and vectors of a bit more are not. -/
theorem isShort_bounds (offsets : List Double) :
    (squaredLength (offsets.map value) ≤ 2 ^ 52 - 2 → IsShort offsets) ∧
      (2 ^ 52 - 1 ≤ squaredLength (offsets.map value) → ¬IsShort offsets) := by
  have hlow : (2 ^ 52 - 2 : ℚ) * leastSingularValue ^ 2 < (1 - leastSingularValue ^ 2) ^ 2 := by
    norm_num [leastSingularValue]
  have hhigh : (1 - leastSingularValue ^ 2) ^ 2 ≤ (2 ^ 52 - 1 : ℚ) * leastSingularValue ^ 2 := by
    norm_num [leastSingularValue]
  refine ⟨fun h => ?_, fun h => not_lt.mpr ?_⟩
  · exact (mul_le_mul_of_nonneg_right h (sq_nonneg _)).trans_lt hlow
  · exact hhigh.trans (mul_le_mul_of_nonneg_right h (sq_nonneg _))

namespace Conditioning

/-! ## Reciprocal singular values -/

/-- The magnitude of 2^26. -/
def greatestMagnitude : Nat := 1049 * fractionCount

/-- The magnitude of 2^-26. -/
def leastMagnitude : Nat := 997 * fractionCount

/-- The place half-way below `leastMagnitude`, how it compares with the places half-way below and
    above `greatestMagnitude`, and what quotients of the magnitudes are rounded to. -/
theorem magnitudes_spec :
    midpoint leastMagnitude * powerOfTwo 80 = 2 * unitsPerOne * (powerOfTwo 54 - 1) ∧
    (midpoint leastMagnitude * midpoint greatestMagnitude ≤ 4 * (unitsPerOne * unitsPerOne) ∧
      4 * (unitsPerOne * unitsPerOne) ≤ midpoint leastMagnitude * midpoint (greatestMagnitude + 1)) ∧
    nearestMagnitude (unitsOfMagnitude greatestMagnitude * unitsPerOne) (unitsOfMagnitude leastMagnitude) =
      threshold.magnitude ∧
    threshold.magnitude <
      nearestMagnitude (unitsOfMagnitude greatestMagnitude * unitsPerOne)
        (unitsOfMagnitude (leastMagnitude - 1)) := by
  decide +kernel

section Quotient

variable {m : Matrix Double}

/-- If the largest singular value is 2^26 at most and the smallest one 2^-26 at least,
    `wellConditioned` holds. -/
theorem wellConditioned_of_magnitudes
    (hlargest : largestMagnitude (gram (unitColumns m)) ≤ greatestMagnitude)
    (hsmallest : leastMagnitude ≤ smallestMagnitude (gram (unitColumns m)))
    (hfinite : smallestMagnitude (gram (unitColumns m)) < infinityMagnitude) : wellConditioned m = true :=
  wellConditioned_of_quotient (by decide) (by decide) magnitudes_spec.2.2.1.le hlargest hsmallest hfinite

/-- If the largest singular value is 2^26 at least and the smallest one less than 2^-26,
    `wellConditioned` fails. -/
theorem not_wellConditioned_of_magnitudes
    (hlargest : greatestMagnitude ≤ largestMagnitude (gram (unitColumns m)))
    (hsmallest : smallestMagnitude (gram (unitColumns m)) < leastMagnitude) : wellConditioned m = false := by
  obtain ⟨x, y, hquotient, hnan, hxSign, hx, hySign, hy⟩ := exists_conditionNumber m
  rw [← hx] at hlargest
  rw [← hy] at hsmallest
  have hyFinite : y.Finite := decide_eq_true (hsmallest.trans (by decide))
  -- A quotient by zero or of an infinity is not finite, and any other one is too large.
  have hinfinite (h : (x / y).isFinite = false) : wellConditioned m = false := by
    rw [wellConditioned, hquotient, h, Bool.false_and]
  by_cases hzero : y.magnitude = 0
  · exact hinfinite (isFinite_div_of_isZero hnan (beq_iff_eq.mpr hzero))
  by_cases hxFinite : x.Finite
  · have hbound : threshold.magnitude <
        nearestMagnitude (unitsOfMagnitude x.magnitude * unitsPerOne) (unitsOfMagnitude y.magnitude) := by
      refine magnitudes_spec.2.2.2.trans_le ?_
      refine nearestMagnitude_mono (unitsOfMagnitude_pos (by decide)) (unitsOfMagnitude_pos (by omega)) ?_
      exact Nat.mul_le_mul (Nat.mul_le_mul_right _ (unitsOfMagnitude_strictMono.monotone hlargest))
        (unitsOfMagnitude_strictMono.monotone (Nat.le_sub_one_of_lt hsmallest))
    have hplace := ordinal_div_of_nonneg hxFinite hyFinite hxSign hySign hzero
    rw [wellConditioned, hquotient, Bool.and_eq_false_imp]
    refine fun _ => decide_eq_false fun hle => ?_
    have hle := ordinal_le_of_le hle
    rw [hplace, ordinal_threshold] at hle
    exact absurd (Int.ofNat_le.mp hle) (Nat.not_le.mpr hbound)
  · obtain h | h := isNaN_or_isInfinite hxFinite
    · rw [hnan] at h
      cases h
    · exact hinfinite (isFinite_div_of_isInfinite h hyFinite)

end Quotient

/-! ## The singular values of a translation -/

section Translation

/-- The sum of the squares of the offsets, in units. -/
def squaredUnits (offsets : List Double) : Int :=
  ∑ i ∈ Finset.range offsets.length, (offsets.getD i 0).units * (offsets.getD i 0).units

variable {offsets : List Double}

/-- `squaredUnits` is not negative. -/
theorem squaredUnits_nonneg (offsets : List Double) : 0 ≤ squaredUnits offsets :=
  Finset.sum_nonneg fun _ _ => mul_self_nonneg _

/-- The entries of `translationMatrix` in units. -/
theorem units_translationMatrix {i j : Nat} (hi : i < offsets.length + 1) (hj : j < offsets.length + 1) :
    ((translationMatrix offsets).entry i j).units =
      if i = j then (unitsPerOne : Int) else if j = offsets.length then (offsets.getD i 0).units else 0 := by
  rw [translationMatrix, entry_ofFn hi hj]
  split_ifs
  · exact units_one
  · rfl
  · rfl

/-- The Gram matrix of a translation is `bordered`. -/
theorem gram_translationMatrix (offsets : List Double) :
    gram (unitColumns (translationMatrix offsets)) = table (offsets.length + 1)
      (bordered offsets.length (unitsPerOne * unitsPerOne)
        (fun i => unitsPerOne * (offsets.getD i 0).units) (unitsPerOne * unitsPerOne + squaredUnits offsets)) := by
  rw [gram_unitColumns]
  -- A column other than the last one takes a single entry out of every other column.
  have hcolumn (i : Nat) {j : Nat} (hi : i < offsets.length + 1) (hj : j < offsets.length) :
      ∑ k ∈ Finset.range (offsets.length + 1), ((translationMatrix offsets).entry k i).units *
        ((translationMatrix offsets).entry k j).units =
          ((translationMatrix offsets).entry j i).units * unitsPerOne := by
    refine (Finset.sum_eq_single_of_mem j (Finset.mem_range.mpr (by omega)) fun k hk hne => ?_).trans ?_
    · rw [units_translationMatrix (j := j) (Finset.mem_range.mp hk) (by omega), if_neg hne,
        if_neg hj.ne, mul_zero]
    · rw [units_translationMatrix (j := j) (by omega) (by omega), if_pos rfl]
  refine table_congr fun i j (hi : i < offsets.length + 1) (hj : j < offsets.length + 1) => ?_
  show ∑ k ∈ Finset.range (offsets.length + 1), _ = _
  -- Diagonal, border twice and corner: which of the two columns is the last one.
  by_cases hi' : i < offsets.length <;> by_cases hj' : j < offsets.length
  · rw [hcolumn i hi hj', units_translationMatrix hj hi, if_neg hi'.ne, bordered, if_pos hi', if_pos hj',
      diagonal]
    by_cases hij : i = j
    · rw [if_pos hij.symm, if_pos hij]
    · rw [if_neg (Ne.symm hij), if_neg hij, zero_mul]
  · obtain rfl : j = offsets.length := by omega
    rw [Finset.sum_congr rfl fun k _ => mul_comm _ _, hcolumn _ hj hi', units_translationMatrix hi hj,
      if_neg hi'.ne, if_pos rfl, bordered, if_pos hi', if_neg hj', mul_comm]
  · obtain rfl : i = offsets.length := by omega
    rw [hcolumn _ hi hj', units_translationMatrix hj hi, if_neg hj'.ne, if_pos rfl, bordered, if_neg hi',
      if_pos hj', mul_comm]
  · obtain rfl : i = offsets.length := by omega
    obtain rfl : j = offsets.length := by omega
    rw [Finset.sum_range_succ, units_translationMatrix hi hi, if_pos rfl, bordered, if_neg hi', if_neg hi',
      add_comm, squaredUnits]
    congr 1
    refine Finset.sum_congr rfl fun k hk => ?_
    have hk := Finset.mem_range.mp hk
    rw [units_translationMatrix (by omega) hi, if_neg hk.ne, if_pos rfl]

/-- A multiple of the Gram matrix, `shifted`, is positive definite exactly if its diagonal is
    positive and large enough for the offsets. -/
theorem positiveDefinite_shifted_translationMatrix (scale shift : Int) (offsets : List Double) :
    positiveDefinite (gram (unitColumns (translationMatrix offsets))).length
        (shifted scale shift (gram (unitColumns (translationMatrix offsets)))) = true ↔
      0 < scale * (unitsPerOne * unitsPerOne) + shift ∧
        -(scale * shift) * squaredUnits offsets <
          (scale * (unitsPerOne * unitsPerOne) + shift) * (scale * (unitsPerOne * unitsPerOne) + shift) := by
  have hshifted : shifted scale shift (gram (unitColumns (translationMatrix offsets))) =
      table (offsets.length + 1) (bordered offsets.length (scale * (unitsPerOne * unitsPerOne) + shift)
        (fun i => scale * unitsPerOne * (offsets.getD i 0).units)
        (scale * (unitsPerOne * unitsPerOne) + shift + scale * squaredUnits offsets)) := by
    rw [gram_translationMatrix, shifted_table]
    refine table_congr fun i j hi hj => ?_
    unfold bordered diagonal
    split_ifs <;> first | omega | ring
  have hborder : ∑ i ∈ Finset.range offsets.length, scale * unitsPerOne * (offsets.getD i 0).units *
      (scale * unitsPerOne * (offsets.getD i 0).units) =
        scale * scale * (unitsPerOne * unitsPerOne) * squaredUnits offsets := by
    rw [squaredUnits, Finset.mul_sum]
    exact Finset.sum_congr rfl fun i _ => by ring
  have hlength : (gram (unitColumns (translationMatrix offsets))).length = offsets.length + 1 := by
    rw [gram_translationMatrix, length_table]
  rw [hlength, hshifted]
  constructor
  · intro h
    -- The first entry of the diagonal is that of the corner if there are no offsets.
    have hpositive : 0 < scale * (unitsPerOne * unitsPerOne : Int) + shift := by
      have hfirst := pos_diagonal_of_positiveDefinite (bordered_comm _ _ _ _) h 0 (by omega)
      rw [bordered] at hfirst
      split_ifs at hfirst with hzero
      · rwa [diagonal_self] at hfirst
      · have hnone : squaredUnits offsets = 0 := by
          rw [squaredUnits, show offsets.length = 0 by omega, Finset.sum_range_zero]
        rwa [hnone, mul_zero, add_zero] at hfirst
    rw [positiveDefinite_bordered_iff hpositive, hborder] at h
    exact ⟨hpositive, by linarith⟩
  · rintro ⟨hpositive, h⟩
    rw [positiveDefinite_bordered_iff hpositive, hborder]
    linarith

/-- The comparison that the test for a singular value comes down to, for the place `middle`. -/
def Clears (squares middle : Int) : Prop :=
  4 * (middle * middle) * squares <
    (4 * (unitsPerOne * unitsPerOne) - middle * middle) * (4 * (unitsPerOne * unitsPerOne) - middle * middle)

/-- All singular values are above the place of `k` exactly if that is below one and `Clears` the
    offsets. -/
theorem allAbove_translationMatrix_iff (offsets : List Double) (k : Nat) :
    allAbove (gram (unitColumns (translationMatrix offsets))) k = true ↔
      midpoint k * midpoint k < 4 * (unitsPerOne * unitsPerOne) ∧
        Clears (squaredUnits offsets) (midpoint k) := by
  rw [allAbove, positiveDefinite_shifted_translationMatrix, ← sub_eq_add_neg, sub_pos, mul_neg, neg_neg]
  rfl

/-- All singular values are below the place of `k` exactly if that is above one and `Clears` the
    offsets. -/
theorem allBelow_translationMatrix_iff (offsets : List Double) (k : Nat) :
    allBelow (gram (unitColumns (translationMatrix offsets))) k = true ↔
      4 * (unitsPerOne * unitsPerOne) < midpoint k * midpoint k ∧
        Clears (squaredUnits offsets) (midpoint k) := by
  rw [allBelow, positiveDefinite_shifted_translationMatrix, Clears, neg_mul, neg_mul, neg_mul, neg_mul, neg_neg,
    neg_add_eq_sub, sub_pos, ← neg_sub (4 * (unitsPerOne * unitsPerOne) : Int), neg_mul_neg]

section Clears

variable {squares m n : Int}

/-- Below one, what `Clears` a place clears all places below it. -/
theorem clears_of_le (hsquares : 0 ≤ squares) (hm : 0 ≤ m) (hmn : m ≤ n)
    (hn : n * n < 4 * (unitsPerOne * unitsPerOne)) (h : Clears squares n) : Clears squares m := by
  have hsquare : m * m ≤ n * n := mul_self_le_mul_self hm hmn
  refine (mul_le_mul_of_nonneg_right (by omega) hsquares).trans_lt (h.trans_le ?_)
  exact mul_self_le_mul_self (by omega) (by omega)

/-- What `Clears` a place below one clears the places above one that are not below the reciprocal. -/
theorem clears_of_le_mul (hm : 0 < m) (hn : 0 < n) (hm' : m * m < 4 * (unitsPerOne * unitsPerOne))
    (hmn : 4 * (unitsPerOne * unitsPerOne) ≤ m * n) (h : Clears squares m) : Clears squares n := by
  unfold Clears at h ⊢
  generalize (4 * (unitsPerOne * unitsPerOne) : Int) = one at *
  -- Times the other place, the distances of both places from one compare.
  have hproduct : (one - m * m) * n ≤ (n * n - one) * m := by
    nlinarith [mul_nonneg (sub_nonneg.mpr hmn) (add_pos hm hn).le]
  have hsquare : ((one - m * m) * n) * ((one - m * m) * n) ≤ ((n * n - one) * m) * ((n * n - one) * m) :=
    mul_self_le_mul_self (mul_nonneg (by omega) hn.le) hproduct
  refine lt_of_mul_lt_mul_right ?_ (mul_pos hm hm).le
  calc 4 * (n * n) * squares * (m * m)
      = 4 * (m * m) * squares * (n * n) := by ring
    _ < (one - m * m) * (one - m * m) * (n * n) := mul_lt_mul_of_pos_right h (mul_pos hn hn)
    _ = ((one - m * m) * n) * ((one - m * m) * n) := by ring
    _ ≤ ((n * n - one) * m) * ((n * n - one) * m) := hsquare
    _ = (one - n * n) * (one - n * n) * (m * m) := by ring

/-- What `Clears` a place above one clears the places below one that are not above the reciprocal. -/
theorem clears_of_mul_le (hm : 0 < m) (hn : 0 < n) (hn' : 4 * (unitsPerOne * unitsPerOne) < n * n)
    (hmn : m * n ≤ 4 * (unitsPerOne * unitsPerOne)) (h : Clears squares n) : Clears squares m := by
  unfold Clears at h ⊢
  generalize (4 * (unitsPerOne * unitsPerOne) : Int) = one at *
  -- The same comparison, from the place above one.
  have hproduct : (n * n - one) * m ≤ (one - m * m) * n := by
    nlinarith [mul_nonneg (sub_nonneg.mpr hmn) (add_pos hm hn).le]
  have hsquare : ((n * n - one) * m) * ((n * n - one) * m) ≤ ((one - m * m) * n) * ((one - m * m) * n) :=
    mul_self_le_mul_self (mul_nonneg (by omega) hm.le) hproduct
  refine lt_of_mul_lt_mul_right ?_ (mul_pos hn hn).le
  calc 4 * (m * m) * squares * (n * n)
      = 4 * (n * n) * squares * (m * m) := by ring
    _ < (one - n * n) * (one - n * n) * (m * m) := mul_lt_mul_of_pos_right h (mul_pos hm hm)
    _ = ((n * n - one) * m) * ((n * n - one) * m) := by ring
    _ ≤ ((one - m * m) * n) * ((one - m * m) * n) := hsquare
    _ = (one - m * m) * (one - m * m) * (n * n) := by ring

end Clears

/-- Larger magnitudes have a later `midpoint` below them. -/
theorem midpoint_mono {k l : Nat} (h : k ≤ l) : midpoint k ≤ midpoint l := by
  have := unitsOfMagnitude_strictMono.monotone h
  have := unitsOfMagnitude_strictMono.monotone (Nat.sub_le_sub_right h 1)
  unfold midpoint
  omega

/-- The `midpoint` below a magnitude other than zero is positive. -/
theorem midpoint_pos {k : Nat} (hk : 0 < k) : 0 < midpoint k := by
  have := unitsOfMagnitude_pos hk
  unfold midpoint
  omega

/-- `smallestMagnitude` of a translation is one at most. -/
theorem smallestMagnitude_translationMatrix_le (offsets : List Double) :
    smallestMagnitude (gram (unitColumns (translationMatrix offsets))) ≤ one.magnitude := by
  refine (Nat.min_le_left ..).trans (lastTrue_le 63 0 (Nat.zero_le _) fun k hk => ?_)
  rw [Bool.eq_false_iff]
  intro habove
  have hunits : (2 * unitsPerOne : Int) ≤ midpoint k := by
    have := unitsOfMagnitude_strictMono.monotone hk.le
    have := unitsOfMagnitude_strictMono.monotone (Nat.le_sub_one_of_lt hk)
    have := unitsOfMagnitude_one
    unfold midpoint
    omega
  have hsquare := mul_self_le_mul_self (by omega) hunits
  have hless := ((allAbove_translationMatrix_iff offsets k).mp habove).1
  linarith

/-- The `midpoint` that decides lies between zero and one. -/
theorem midpoint_leastMagnitude : 0 < midpoint leastMagnitude ∧
    midpoint leastMagnitude * midpoint leastMagnitude < 4 * (unitsPerOne * unitsPerOne) :=
  ⟨midpoint_pos (by decide), by decide +kernel⟩

/-- What `Clears` the place that decides keeps the singular values between 2^-26 and 2^26. -/
theorem magnitudes_of_clears (h : Clears (squaredUnits offsets) (midpoint leastMagnitude)) :
    largestMagnitude (gram (unitColumns (translationMatrix offsets))) ≤ greatestMagnitude ∧
      leastMagnitude ≤ smallestMagnitude (gram (unitColumns (translationMatrix offsets))) := by
  obtain ⟨-, ⟨-, habove⟩, -⟩ := magnitudes_spec
  obtain ⟨hleast, hsmall⟩ := midpoint_leastMagnitude
  constructor
  · refine (Nat.min_le_left ..).trans (lastTrue_le 63 0 (Nat.zero_le _) ?_)
    intro k hk
    have hproduct := habove.trans (mul_le_mul_of_nonneg_left (midpoint_mono (Nat.succ_le_of_lt hk)) hleast.le)
    have hpos := midpoint_pos (Nat.zero_lt_of_lt hk)
    -- A place that is not below the reciprocal of one below one lies above one.
    have hless : midpoint leastMagnitude < midpoint k :=
      lt_of_mul_lt_mul_left (hsmall.trans_le hproduct) hleast.le
    have hone := hproduct.trans_lt (mul_lt_mul_of_pos_right hless hpos)
    rw [Bool.not_eq_false']
    exact (allBelow_translationMatrix_iff offsets k).mpr ⟨hone, clears_of_le_mul hleast hpos hsmall hproduct h⟩
  · refine Nat.le_min.mpr ⟨le_lastTrue 63 0 (Nat.zero_le _) (by decide) ?_, by decide⟩
    intro k hk hk'
    have hpos := (midpoint_pos hk).le
    have hle := midpoint_mono hk'
    exact (allAbove_translationMatrix_iff offsets k).mpr
      ⟨(mul_self_le_mul_self hpos hle).trans_lt hsmall, clears_of_le (squaredUnits_nonneg offsets) hpos hle hsmall h⟩

/-- What does not clear it takes the smallest one below 2^-26 and the largest one to 2^26 or above. -/
theorem magnitudes_of_not_clears (h : ¬Clears (squaredUnits offsets) (midpoint leastMagnitude)) :
    greatestMagnitude ≤ largestMagnitude (gram (unitColumns (translationMatrix offsets))) ∧
      smallestMagnitude (gram (unitColumns (translationMatrix offsets))) < leastMagnitude := by
  obtain ⟨-, ⟨hbelow, -⟩, -⟩ := magnitudes_spec
  obtain ⟨hleast, -⟩ := midpoint_leastMagnitude
  have hgreatest : greatestMagnitude < infinityMagnitude := by decide
  have hinfinity : infinityMagnitude < 0 + powerOfTwo 63 := by decide
  constructor
  · refine Nat.le_min.mpr ⟨le_lastTrue 63 0 (Nat.zero_le _) (hgreatest.trans hinfinity) ?_, hgreatest.le⟩
    intro k hk hk'
    rw [Bool.not_eq_true', Bool.eq_false_iff]
    intro hall
    obtain ⟨hone, hclears⟩ := (allBelow_translationMatrix_iff offsets k).mp hall
    -- The place is not above the reciprocal of the one that decides, which it would clear.
    have hproduct := (mul_le_mul_of_nonneg_left (midpoint_mono hk') hleast.le).trans hbelow
    exact h (clears_of_mul_le hleast (midpoint_pos hk) hone hproduct hclears)
  · refine (Nat.min_le_left ..).trans_lt (Nat.lt_of_le_sub_one (by decide) ?_)
    refine lastTrue_le 63 0 (Nat.zero_le _) ?_
    intro k hk
    rw [Bool.eq_false_iff]
    intro hall
    obtain ⟨hone, hclears⟩ := (allAbove_translationMatrix_iff offsets k).mp hall
    exact h (clears_of_le (squaredUnits_nonneg offsets) hleast.le (midpoint_mono (by omega)) hone hclears)

/-- A translation is `wellConditioned` exactly if its smallest singular value is not rounded below
    2^-26. -/
theorem wellConditioned_iff_clears (offsets : List Double) :
    wellConditioned (translationMatrix offsets) = true ↔
      Clears (squaredUnits offsets) (midpoint leastMagnitude) := by
  constructor
  · intro h
    by_contra hnot
    obtain ⟨hlargest, hsmallest⟩ := magnitudes_of_not_clears hnot
    rw [not_wellConditioned_of_magnitudes hlargest hsmallest] at h
    cases h
  · intro h
    obtain ⟨hlargest, hsmallest⟩ := magnitudes_of_clears h
    refine wellConditioned_of_magnitudes hlargest hsmallest ?_
    exact (smallestMagnitude_translationMatrix_le offsets).trans_lt (by decide)

/-- `Clears` compares in units what `IsShort` compares exactly. -/
theorem clears_iff_isShort (offsets : List Double) :
    Clears (squaredUnits offsets) (midpoint leastMagnitude) ↔ IsShort offsets := by
  have hone : (0 : ℚ) < unitsPerOne := Nat.cast_pos.mpr (powerOfTwo_pos 1074)
  have hlength : squaredLength (offsets.map value) * (unitsPerOne * unitsPerOne) = squaredUnits offsets := by
    rw [squaredLength, sumSquares, List.length_map, squaredUnits, Int.cast_sum, Finset.sum_mul]
    refine Finset.sum_congr rfl fun i hi => ?_
    have hvalue : (offsets.map value).getD i 0 = (offsets.getD i 0).value := by simp [Finset.mem_range.mp hi]
    rw [hvalue, value]
    push_cast
    field_simp
  -- The place that decides is the least singular value, in half units.
  have hmiddle : (midpoint leastMagnitude : ℚ) = 2 * unitsPerOne * leastSingularValue := by
    have hplace := congrArg (fun x : Int => (x : ℚ)) magnitudes_spec.1
    have hpower (n : Nat) : (powerOfTwo n : ℚ) = 2 ^ n := by
      rw [powerOfTwo, Nat.pow_eq, Nat.cast_pow, Nat.cast_ofNat]
    push_cast [hpower] at hplace
    rw [leastSingularValue]
    linear_combination hplace / 2 ^ 80
  have hleft : (4 * (midpoint leastMagnitude * midpoint leastMagnitude) * squaredUnits offsets : ℚ) =
      squaredLength (offsets.map value) * leastSingularValue ^ 2 * (4 * (unitsPerOne * unitsPerOne)) ^ 2 := by
    rw [← hlength, hmiddle]
    ring
  have hright : (4 * (unitsPerOne * unitsPerOne) - midpoint leastMagnitude * midpoint leastMagnitude : ℚ) *
      (4 * (unitsPerOne * unitsPerOne) - midpoint leastMagnitude * midpoint leastMagnitude) =
        (1 - leastSingularValue ^ 2) ^ 2 * (4 * (unitsPerOne * unitsPerOne)) ^ 2 := by
    rw [hmiddle]
    ring
  have hscale : (0 : ℚ) < (4 * (unitsPerOne * unitsPerOne)) ^ 2 := by positivity
  rw [Clears, IsShort, ← mul_lt_mul_iff_left₀ hscale, ← hleft, ← hright, ← Int.cast_lt (R := ℚ)]
  push_cast
  rfl

/-- A translation is `wellConditioned` exactly if it is short. -/
theorem wellConditioned_translationMatrix_iff (offsets : List Double) :
    wellConditioned (translationMatrix offsets) = true ↔ IsShort offsets :=
  (wellConditioned_iff_clears offsets).trans (clears_iff_isShort offsets)

end Translation

end Conditioning

/-- The default solver `Gauges` the matrices of translations with hardly any margin: it is right
    unless their condition numbers are very close to the threshold. -/
theorem Solver.gauges_translation {margin : ℚ} (hmargin : 1 + 1 / 2 ^ 51 ≤ margin) {m : Matrix Double}
    {offsets : List Double} (hm : m.SameNumbers (translationMatrix offsets)) : Solver.Gauges margin m := by
  have hpos : 0 < margin := lt_of_lt_of_le (by norm_num) hmargin
  have hvalues := hm.values_eq.trans (values_translationMatrix offsets)
  obtain ⟨hshort, hlong⟩ := isShort_bounds offsets
  have hjudged : Solver.wellConditioned m = true ↔ IsShort offsets := by
    rw [← Conditioning.wellConditioned_translationMatrix_iff, ← hm.wellConditioned_eq]
    rfl
  -- Far on either side of the threshold the judge and the exact condition agree.
  constructor
  · intro hcondition
    rw [hvalues] at hcondition
    have hle := le_of_conditionAtMost_translationMatrix (by positivity) hcondition
    rw [le_div_iff₀ hpos] at hle
    refine hjudged.mpr (hshort ?_)
    nlinarith [squaredLength_nonneg (offsets.map value)]
  · intro hcondition
    refine Bool.eq_false_iff.mpr fun hgood => hlong ?_ (hjudged.mp hgood)
    by_contra hless
    refine hcondition ?_
    rw [hvalues]
    exact conditionAtMost_translationMatrix (by linarith)

end Georef

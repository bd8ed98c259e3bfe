import Georef.Matrix.Comparison
import Georef.Proofs.Double.Zeros

/-!
# Agreement and bit patterns

Two numbers agree without a tolerance if they are the same number or both NaN. Adding zero gives every number
a form of its own: a zero loses its sign, a NaN becomes quiet, and everything else stays. So the bit patterns
after adding zero tell numbers apart just as agreement does, except that they also tell NaNs apart.

## Key results

- `agrees_zero_iff`: what agreement without a tolerance means
- `add_zero_eq_iff`: what adding zero leaves to tell apart
- `toBits_inj`: a bit pattern is that of one number
-/

namespace Georef

namespace Double

variable {x y : Double}

/-! ## Agreement without tolerance -/

/-- A number that is neither a NaN nor an infinity is `Finite`. -/
theorem finite_of_not_isNaN (hnan : ¬x.isNaN = true) (hinfinite : ¬x.isInfinite = true) : x.Finite := by
  by_contra hnot
  obtain h | h := isNaN_or_isInfinite hnot
  · exact hnan h
  · exact hinfinite h

/-- Both zeros have the `ordinal` zero. -/
theorem ordinal_signedZero (negative : Bool) : (signedZero negative).ordinal = 0 := by
  cases negative <;> rfl

/-- Numbers with the same `ordinal` are the same: only the zeros share one. -/
theorem sameNumber_of_ordinal_eq (h : x.ordinal = y.ordinal) : SameNumber x y := by
  by_cases hzero : x.ordinal = 0
  · have hx : x.magnitude = 0 := by rw [← natAbs_ordinal, hzero, Int.natAbs_zero]
    have hy : y.magnitude = 0 := by rw [← natAbs_ordinal, ← h, hzero, Int.natAbs_zero]
    exact .inr ⟨x.negative, y.negative, eq_of_magnitude rfl hx, eq_of_magnitude rfl hy⟩
  · exact .inl (eq_of_ordinal h hzero)

/-- Numeric equality is `SameNumber`, but for NaNs, which equal nothing. -/
theorem beq_iff_sameNumber : (x == y) = true ↔ x.isNaN = false ∧ SameNumber x y := by
  show x.numericEq y = true ↔ _
  simp only [numericEq, Bool.and_eq_true, Bool.not_eq_true', beq_iff_eq]
  constructor
  · rintro ⟨⟨hx, -⟩, hordinal⟩
    exact ⟨hx, sameNumber_of_ordinal_eq hordinal⟩
  · rintro ⟨hx, hsame⟩
    have hordinal : x.ordinal = y.ordinal := hsame.congr ordinal fun a => by rw [ordinal_signedZero, ordinal_signedZero]
    exact ⟨⟨hx, hsame.isNaN_eq ▸ hx⟩, hordinal⟩

/-- Only a zero is not larger than zero, signs apart. -/
theorem magnitude_of_abs_le_zero (h : x.abs ≤ 0) : x.magnitude = 0 := by
  have hordinal := ordinal_le_of_le h
  rw [ordinal_abs, natAbs_ordinal, ordinal_zero] at hordinal
  omega

/-- `quieted` leaves a NaN a NaN: its magnitude grows. -/
theorem isNaN_quieted (h : x.isNaN = true) : x.quieted.isNaN = true := by
  have hle : x.magnitude ≤ x.quieted.magnitude := Nat.left_le_or
  simp only [isNaN, decide_eq_true_eq] at h ⊢
  omega

/-- A NaN is no zero. -/
theorem magnitude_ne_zero_of_isNaN (h : x.isNaN = true) : x.magnitude ≠ 0 := by
  simp only [isNaN, decide_eq_true_eq] at h
  omega

/-- An infinity is no zero. -/
theorem magnitude_ne_zero_of_isInfinite (h : x.isInfinite = true) : x.magnitude ≠ 0 := by
  rw [isInfinite, beq_iff_eq] at h
  rw [h]
  decide

/-- Numbers whose difference is zero are the `SameNumber`. Small differences of different numbers
    are not rounded to zero, because every finite number is a multiple of the least one. -/
theorem sameNumber_of_sub_zero (h : (x - y).magnitude = 0) : SameNumber x y := by
  have hsub : x - y = x.sub y := rfl
  rw [hsub, sub] at h
  -- A difference with a NaN is a NaN, which is not zero either.
  split at h
  · rename_i hx
    exact absurd h (magnitude_ne_zero_of_isNaN (isNaN_quieted hx))
  split at h
  · rename_i hy
    exact absurd h (magnitude_ne_zero_of_isNaN (isNaN_quieted hy))
  rename_i hx hy
  by_cases hfinite : x.Finite ∧ y.Finite
  · have hordinal : (x - y).ordinal = 0 := by
      have := natAbs_ordinal (x - y)
      rw [hsub, sub, if_neg hx, if_neg hy] at this ⊢
      omega
    -- The difference has the sign of the comparison, so it is neither smaller nor larger.
    have hpos := sub_pos_iff hfinite.1 hfinite.2
    have hneg := sub_neg_iff hfinite.1 hfinite.2
    exact sameNumber_of_ordinal_eq (by omega)
  · -- A difference with an infinity is infinite or invalid, never zero.
    exfalso
    rw [addNumbers] at h
    split at h
    · rename_i hinfinite
      split at h
      · exact absurd h (by decide)
      · exact magnitude_ne_zero_of_isInfinite hinfinite h
    · rename_i hinfinite
      have hyinfinite : y.isInfinite = true := by
        by_contra hnot
        exact hfinite ⟨finite_of_not_isNaN hx hinfinite, finite_of_not_isNaN hy hnot⟩
      rw [if_pos (show y.neg.isInfinite = true from hyinfinite)] at h
      exact magnitude_ne_zero_of_isInfinite hyinfinite h

/-- Without a tolerance, `agrees` holds of the same number and of two NaNs. -/
theorem agrees_zero_iff : agrees 0 x y = true ↔ SameNumber x y ∨ x.isNaN = true ∧ y.isNaN = true := by
  simp only [agrees, Bool.or_eq_true, Bool.and_eq_true, decide_eq_true_eq]
  constructor
  · -- Each of the three tests of `agrees` is one of the two sides.
    rintro ((hequal | hnan) | hzero)
    · exact .inl (beq_iff_sameNumber.mp hequal).2
    · exact .inr hnan
    · exact .inl (sameNumber_of_sub_zero (magnitude_of_abs_le_zero hzero))
  · rintro (hsame | hnan)
    · cases hx : x.isNaN with
      | false => exact .inl (.inl (beq_iff_sameNumber.mpr ⟨hx, hsame⟩))
      | true => exact .inl (.inr ⟨rfl, hsame.isNaN_eq ▸ hx⟩)
    · exact .inl (.inr hnan)

/-! ## Adding zero -/

/-- Adding zero makes a NaN `quieted`. -/
theorem add_zero_of_isNaN (h : x.isNaN = true) : x + 0 = x.quieted := by
  show x.add 0 = _
  rw [add, if_pos h]

/-- `ofUnits` rounds the exact value of a number to the number, if it is not a zero. -/
theorem Finite.ofUnits_units (hx : x.Finite) (hne : x.units ≠ 0) : ofUnits x.units = x := by
  have hordinal : (ofUnits x.units).ordinal = x.ordinal :=
    (ordinal_ofRatio (fun _ => rfl) 1).trans (roundedOrdinal_units hx)
  refine eq_of_ordinal hordinal fun hzero => hne ?_
  rw [units_eq, ← hordinal, hzero]
  rfl

/-- Adding zero gives the `SameNumber`: it changes the sign of a zero only. -/
theorem sameNumber_add_zero (h : x.isNaN = false) : SameNumber (x + 0) x := by
  have hadd : x + 0 = x.addNumbers 0 := by
    show x.add 0 = _
    rw [add, h]
    rfl
  rw [hadd, addNumbers]
  split
  · exact .refl x
  · rename_i hinfinite
    have hx : x.Finite := finite_of_not_isNaN (by simp [h]) hinfinite
    have hzero : (0 : Double).units = 0 := rfl
    rw [if_neg (by decide)]
    simp only [hzero, add_zero]
    split
    · rename_i hunits
      -- A sum of no units is a zero, and so was the number.
      have hle := units_le_units_iff (x := x) (y := 0)
      have hge := units_le_units_iff (x := 0) (y := x)
      rw [hzero, ordinal_zero] at hle hge
      exact sameNumber_of_ordinal_eq (by rw [ordinal_signedZero]; omega)
    · rename_i hunits
      rw [hx.ofUnits_units hunits]
      exact .refl x

/-- After adding zero, two numbers are equal if `agrees` holds of them without a tolerance, but for
    NaNs: of a NaN its sign and its payload are still there. -/
theorem add_zero_eq_iff :
    x + 0 = y + 0 ↔ agrees 0 x y = true ∧ (x.isNaN = true → x.quieted = y.quieted) := by
  rw [agrees_zero_iff]
  cases hx : x.isNaN with
  | false =>
    have hsame := sameNumber_add_zero hx
    simp only [Bool.false_eq_true, false_and, or_false, false_implies, and_true]
    constructor
    · intro heq
      cases hy : y.isNaN with
      | false => exact (heq ▸ hsame.symm).trans (sameNumber_add_zero hy)
      | true =>
        -- The sum with a NaN is a NaN, the sum with a number is not.
        have hsum : (x + 0).isNaN = true := by
          rw [heq, add_zero_of_isNaN hy]
          exact isNaN_quieted hy
        rw [hsame.isNaN_eq, hx] at hsum
        exact nomatch hsum
    · intro h
      exact h.congr (· + 0) fun a => by cases a <;> rfl
  | true =>
    -- The first number is a NaN. It agrees with NaNs only, and adding zero only makes it quiet.
    rw [add_zero_of_isNaN hx]
    cases hy : y.isNaN with
    | false =>
      have hnot : ¬SameNumber x y := fun h => by
        rw [h.isNaN_eq, hy] at hx
        exact nomatch hx
      have hne : x.quieted ≠ y + 0 := fun h => by
        have hsum := (sameNumber_add_zero hy).isNaN_eq
        rw [← h, isNaN_quieted hx, hy] at hsum
        exact nomatch hsum
      simp [hnot, hne]
    | true =>
      rw [add_zero_of_isNaN hy]
      simp

/-! ## Bit patterns -/

/-- `toBits` is injective: the pattern gives the number. -/
theorem toBits_inj : x.toBits = y.toBits ↔ x = y := by
  constructor
  · intro h
    have hvalues := congrArg BitVec.toNat h
    have hx := x.magnitude_lt
    have hy := y.magnitude_lt
    simp only [toBits, BitVec.toNat_ofNat, magnitudeBound] at hvalues hx hy
    -- Seen as a number, the pattern has the sign as its highest bit.
    refine eq_of_magnitude ?_ (by split at hvalues <;> split at hvalues <;> omega)
    cases hxs : x.negative <;> cases hys : y.negative <;> simp [hxs, hys] at hvalues <;> first | rfl | omega
  · rintro rfl
    rfl

end Double

end Georef

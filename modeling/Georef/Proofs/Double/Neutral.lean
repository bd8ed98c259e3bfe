import Georef.Proofs.Double.Agreement
import Mathlib.Algebra.Order.Ring.Int

/-!
# Operations that change nothing

Multiplying or dividing a finite number by one and taking away a zero give the number back, exactly: there is nothing
to round. Only the sign of a zero may be another one, so the results are stated for `SameNumber`.

## Key results

- `Finite.mul_one`, `Finite.div_one`, `Finite.sub_zero`: the operations
-/

namespace Georef

namespace Double

variable {x y : Double}

/-- One consists of `unitsPerOne` units. -/
theorem units_one : (1 : Double).units = unitsPerOne := by
  have hone : unitsOfMagnitude one.magnitude = unitsPerOne := by decide +kernel
  show (unitsOfMagnitude one.magnitude : Int) = _
  rw [hone]

/-- Multiplying by `unitsPerOne` keeps the sign of an integer. -/
theorem mul_unitsPerOne_neg_iff (n : Int) : n * unitsPerOne < 0 ↔ n < 0 := by
  have hunits : 0 < (unitsPerOne : Int) := Int.natCast_pos.mpr (powerOfTwo_pos 1074)
  constructor
  · intro h
    by_contra hn
    exact absurd h (not_lt.mpr (mul_nonneg (not_lt.mp hn) hunits.le))
  · intro h
    exact mul_neg_of_neg_of_pos h hunits

/-- The units of a number divided by those of one are rounded to the number, as `nearestMagnitude`
    sees only the quotient. -/
theorem roundedOrdinal_mul_one (hx : x.Finite) :
    roundedOrdinal (x.units * unitsPerOne) unitsPerOne = x.ordinal := by
  have hone : 0 < unitsPerOne := powerOfTwo_pos 1074
  have hmagnitude : nearestMagnitude (x.units * unitsPerOne).natAbs unitsPerOne =
      nearestMagnitude x.units.natAbs 1 :=
    nearestMagnitude_congr hone Nat.one_pos (by rw [Int.natAbs_mul, Int.natAbs_natCast, Nat.mul_one])
  rw [← roundedOrdinal_units hx, roundedOrdinal, roundedOrdinal, hmagnitude,
    if_congr (mul_unitsPerOne_neg_iff _) rfl rfl]

/-- Dividing by one gives the `SameNumber`. -/
theorem Finite.div_one (hx : x.Finite) : SameNumber (x / 1) x := by
  have hone : (1 : Double).Finite ∧ 0 < (1 : Double).ordinal := by decide
  refine sameNumber_of_ordinal_eq ?_
  rw [ordinal_div hx hone.1 hone.2, units_one, Int.natAbs_natCast, roundedOrdinal_mul_one hx]

/-- Multiplying by one gives the `SameNumber`. -/
theorem Finite.mul_one (hx : x.Finite) : SameNumber (x * 1) x := by
  have hone : (1 : Double).Finite := rfl
  -- The product has the sign that `roundedOrdinal` gives it: one has no minus sign.
  have hnegative : x.units * (unitsPerOne : Int) ≠ 0 →
      (x.negative != (1 : Double).negative) = decide (x.units * (unitsPerOne : Int) < 0) := by
    intro hne
    have hne := left_ne_zero_of_mul hne
    have hdecide : decide (x.units * (unitsPerOne : Int) < 0) = decide (x.units < 0) :=
      decide_eq_decide.mpr (mul_unitsPerOne_neg_iff _)
    rw [hdecide]
    show (x.negative != false) = _
    cases hnegative : x.negative with
    | false => simp [units, hnegative]
    | true =>
      simp only [units, hnegative, if_true] at hne ⊢
      exact (decide_eq_true (by omega)).symm
  refine sameNumber_of_ordinal_eq ?_
  rw [hx.mul_eq hone, units_one, ← Int.natAbs_mul, ordinal_ofRatio hnegative,
    roundedOrdinal_mul_one hx]

/-- Taking away a zero of either sign gives the `SameNumber`. -/
theorem Finite.sub_zero (hx : x.Finite) (hy : SameNumber y 0) : SameNumber (x - y) x :=
  ((SameNumber.refl x).sub hy).trans (sameNumber_of_ordinal_eq (ordinal_sub_zero hx))

/-- The `SameNumber` comes out of a division by one. -/
theorem SameNumber.div_one (h : SameNumber x y) : SameNumber (x / 1) (y / 1) := by
  obtain rfl | ⟨a, b, rfl, rfl⟩ := h
  · exact .refl _
  · exact (finite_signedZero a).div_one.trans ((zeros a b).trans (finite_signedZero b).div_one.symm)

end Double

end Georef

import Georef.Proofs.Double.RoundingError

/-!
# Numbers without minus sign

Squares have no minus sign, and neither have their sums. Such numbers never cancel each other: a sum is a zero only
if both numbers are, it is finite only if both are, and it is not below either of them. A square is a zero if its
exact value is no more than half of the least positive number.

## Key results

- `Nonneg.add`, `nonneg_mul_self`: sums and squares have no minus sign
- `Nonneg.finite_of_add`, `Nonneg.magnitude_add_eq_zero_iff`: what a sum tells about its parts
- `magnitude_mul_self_eq_zero_iff`, `not_finite_mul_self`: which squares are lost, and some that are infinite
- `toReal_mul_self_le`, `le_toReal_mul_self`: the squares of numbers on one side of a power of two
-/

namespace Georef

namespace Double

variable {x y : Double}

/-- The number is zero or above, or infinity, and its sign bit says so. -/
structure Nonneg (x : Double) : Prop where
  negative_eq : x.negative = false
  isNaN_eq : x.isNaN = false

/-- The zero without a sign is `Nonneg`. -/
theorem nonneg_zero : (0 : Double).Nonneg := ⟨rfl, rfl⟩

namespace Nonneg

/-- What is `Nonneg` is finite or the one infinity. -/
theorem finite_or_eq_infinity (hx : x.Nonneg) : x.Finite ∨ x = infinity false := by
  by_cases hfinite : x.Finite
  · exact .inl hfinite
  · obtain hnan | hinfinite := isNaN_or_isInfinite hfinite
    · rw [hx.isNaN_eq] at hnan
      cases hnan
    · exact .inr (eq_of_magnitude hx.negative_eq (beq_iff_eq.mp hinfinite))

/-- The exact value of a `Nonneg` number is not below zero. -/
theorem toReal_nonneg (hx : x.Nonneg) : 0 ≤ x.toReal := by
  have hpos := leastUnit_pos
  rw [toReal_of_nonneg hx.negative_eq]
  positivity

/-- A `Nonneg` number compares equal to zero if it has no magnitude. -/
theorem beq_zero_iff (hx : x.Nonneg) : (x == 0) = true ↔ x.magnitude = 0 := by
  have hzero : (0 : Double).isNaN = false := rfl
  show x.numericEq 0 = true ↔ _
  simp [numericEq, hx.isNaN_eq, hzero, ordinal_of_nonneg hx.negative_eq, ordinal_zero]

/-- The `units` of what is `Nonneg` are those of the magnitude. -/
theorem units_eq (hx : x.Nonneg) : x.units = unitsOfMagnitude x.magnitude := by
  rw [units, hx.negative_eq]
  rfl

/-- A sum of finite `Nonneg` numbers is the sum of their units, rounded once. -/
theorem add_eq (hx : x.Nonneg) (hy : y.Nonneg) (hx' : x.Finite) (hy' : y.Finite) :
    x + y = ofRatio false (unitsOfMagnitude x.magnitude + unitsOfMagnitude y.magnitude) 1 := by
  rw [hx'.add_eq hy', hx.units_eq, hy.units_eq, hx.negative_eq, hy.negative_eq, ← Nat.cast_add]
  split
  · rename_i hzero
    rw [Int.natCast_eq_zero.mp hzero, ofRatio_zero]
    rfl
  · rw [ofUnits, Int.natAbs_natCast, decide_eq_false (by omega)]

/-- `ofRatio` without a minus sign never gives a NaN. -/
theorem nonneg_ofRatio (n d : Nat) : (ofRatio false n d).Nonneg :=
  ⟨rfl, decide_eq_false (Nat.not_lt_of_le (Nat.min_le_right _ _))⟩

/-- With infinity every sum is infinity. -/
theorem infinity_add (hx : x.Nonneg) : infinity false + x = infinity false ∧ x + infinity false = infinity false := by
  have hinfinite : infinity false + infinity false = infinity false := by decide
  obtain hfinite | rfl := hx.finite_or_eq_infinity
  · constructor
    · show (infinity false).add x = _
      rw [add, addNumbers, hfinite.isNaN_eq_false, hfinite.isInfinite_eq_false]
      rfl
    · show x.add (infinity false) = _
      rw [add, addNumbers, hfinite.isNaN_eq_false, hfinite.isInfinite_eq_false]
      rfl
  · exact ⟨hinfinite, hinfinite⟩

/-- The positive infinity is `Nonneg`. -/
theorem nonneg_infinity : (infinity false).Nonneg := ⟨rfl, rfl⟩

/-- The sum of `Nonneg` numbers is `Nonneg`: no infinities of opposite signs can meet. -/
theorem add (hx : x.Nonneg) (hy : y.Nonneg) : (x + y).Nonneg := by
  obtain hx' | rfl := hx.finite_or_eq_infinity
  · obtain hy' | rfl := hy.finite_or_eq_infinity
    · rw [hx.add_eq hy hx' hy']
      exact nonneg_ofRatio _ _
    · rw [hx.infinity_add.2]
      exact nonneg_infinity
  · rw [hy.infinity_add.1]
    exact nonneg_infinity

/-- A sum is finite only if both of its parts are, since nothing cancels an infinity. -/
theorem finite_of_add (hx : x.Nonneg) (hy : y.Nonneg) (h : (x + y).Finite) : x.Finite ∧ y.Finite := by
  have hinfinity : ¬(infinity false).Finite := by decide
  obtain hx' | rfl := hx.finite_or_eq_infinity
  · obtain hy' | rfl := hy.finite_or_eq_infinity
    · exact ⟨hx', hy'⟩
    · rw [hx.infinity_add.2] at h
      exact absurd h hinfinity
  · rw [hy.infinity_add.1] at h
    exact absurd h hinfinity

/-- A finite sum is not below its parts in `toReal`, although it is rounded. -/
theorem toReal_le_add (hx : x.Nonneg) (hy : y.Nonneg) (h : (x + y).Finite) :
    x.toReal ≤ (x + y).toReal ∧ y.toReal ≤ (x + y).toReal := by
  obtain ⟨hx', hy'⟩ := hx.finite_of_add hy h
  have hpos := leastUnit_pos
  -- Rounding keeps the order, and a magnitude is rounded to itself.
  have hpart {k n : Nat} (hk : k < infinityMagnitude) (hle : unitsOfMagnitude k ≤ n) :
      k ≤ nearestMagnitude n 1 := by
    rw [← nearestMagnitude_unitsOfMagnitude hk]
    exact nearestMagnitude_mono Nat.one_pos Nat.one_pos (by omega)
  rw [hx.add_eq hy hx' hy', toReal_of_nonneg hx.negative_eq, toReal_of_nonneg hy.negative_eq,
    toReal_of_nonneg (nonneg_ofRatio _ _).negative_eq]
  constructor
  · gcongr
    exact unitsOfMagnitude_strictMono.monotone (hpart (decide_eq_true_eq.mp hx') (Nat.le_add_right _ _))
  · gcongr
    exact unitsOfMagnitude_strictMono.monotone (hpart (decide_eq_true_eq.mp hy') (Nat.le_add_left _ _))

/-- A sum whose exact value is no more than a power of two is finite. -/
theorem finite_add {e : Nat} (hx : x.Nonneg) (hy : y.Nonneg) (hx' : x.Finite) (hy' : y.Finite)
    (h : x.toReal + y.toReal ≤ powerOfTwo (52 + e) * leastUnit)
    (he : (e + 1) * fractionCount < infinityMagnitude) : (x + y).Finite := by
  rw [toReal_of_nonneg hx.negative_eq, toReal_of_nonneg hy.negative_eq, ← add_mul] at h
  have hunits : (unitsOfMagnitude x.magnitude : ℝ) + unitsOfMagnitude y.magnitude ≤ powerOfTwo (52 + e) :=
    le_of_mul_le_mul_right h leastUnit_pos
  rw [hx.add_eq hy hx' hy']
  refine finite_ofRatio Nat.one_pos ?_ he
  rw [Nat.mul_one]
  exact_mod_cast hunits

/-- Only zeros that are `Nonneg` add up to zero. -/
theorem magnitude_add_eq_zero_iff (hx : x.Nonneg) (hy : y.Nonneg) :
    (x + y).magnitude = 0 ↔ x.magnitude = 0 ∧ y.magnitude = 0 := by
  constructor
  · intro h
    have hfinite : (x + y).Finite := by
      rw [Finite, isFinite, h]
      rfl
    -- A part lies between zero and the sum.
    obtain ⟨hle, hle'⟩ := hx.toReal_le_add hy hfinite
    rw [toReal_eq_zero_iff.mpr h] at hle hle'
    exact ⟨toReal_eq_zero_iff.mp (hle.antisymm hx.toReal_nonneg),
      toReal_eq_zero_iff.mp (hle'.antisymm hy.toReal_nonneg)⟩
  · rintro ⟨hzero, hzero'⟩
    obtain rfl : x = 0 := eq_of_magnitude hx.negative_eq hzero
    obtain rfl : y = 0 := eq_of_magnitude hy.negative_eq hzero'
    decide

end Nonneg

/-! ## Squares -/

/-- A square is `Nonneg`. -/
theorem nonneg_mul_self (hx : x.Finite) : (x * x).Nonneg := by
  rw [hx.mul_eq hx, bne_self_eq_false]
  exact Nonneg.nonneg_ofRatio _ _

/-- With `units` units of size `unit` in one, the number of `n` units squared is at most half a unit
    if `2 * n ≤ units`. -/
private theorem le_half_iff {n units unit : ℝ} (hpos : 0 < unit) (hone : units * unit = 1) :
    2 * n ≤ units ↔ n * unit ^ 2 ≤ unit / 2 := by
  constructor
  · intro h
    have hscaled : 2 * n * unit ≤ 1 := hone ▸ mul_le_mul_of_nonneg_right h hpos.le
    nlinarith
  · intro h
    refine le_of_mul_le_mul_right ?_ hpos
    rw [hone]
    nlinarith

/-- The `magnitude` of a square, as the quotient that is rounded. -/
theorem magnitude_mul_self (hx : x.Finite) : (x * x).magnitude =
    nearestMagnitude (unitsOfMagnitude x.magnitude * unitsOfMagnitude x.magnitude) unitsPerOne := by
  rw [hx.mul_eq hx, natAbs_units]
  rfl

/-- The squares that are rounded to zero are exactly those of no more than half of `leastUnit`. -/
theorem magnitude_mul_self_eq_zero_iff (hx : x.Finite) :
    (x * x).magnitude = 0 ↔ x.toReal ^ 2 ≤ leastUnit / 2 := by
  have hsquare : x.toReal ^ 2 =
      ((unitsOfMagnitude x.magnitude * unitsOfMagnitude x.magnitude : Nat) : ℝ) * leastUnit ^ 2 := by
    rw [← sq_abs, abs_toReal, Nat.cast_mul]
    ring
  rw [magnitude_mul_self hx, nearestMagnitude_eq_zero_iff unitsPerOne_pos, hsquare, ← Nat.cast_le (α := ℝ),
    Nat.cast_mul, Nat.cast_ofNat]
  exact le_half_iff leastUnit_pos unitsPerOne_mul_leastUnit

/-- The square of a number of at most `powerOfTwo a` units is finite and not above the power of two
    with the exponent `e`. -/
theorem toReal_mul_self_le {a e : Nat} (hx : x.Finite) (h : unitsOfMagnitude x.magnitude ≤ powerOfTwo a)
    (ha : a + a ≤ 52 + e + 1074) (he : (e + 1) * fractionCount < infinityMagnitude) :
    (x * x).Finite ∧ (x * x).toReal ≤ powerOfTwo (52 + e) * leastUnit := by
  have hsquare : unitsOfMagnitude x.magnitude * unitsOfMagnitude x.magnitude ≤ powerOfTwo (52 + e) * unitsPerOne := by
    rw [unitsPerOne_eq, ← powerOfTwo_add]
    refine (Nat.mul_le_mul h h).trans ?_
    rw [← powerOfTwo_add]
    exact powerOfTwo_mono ha
  have hle := nearestMagnitude_le_powerOfTwo unitsPerOne_pos hsquare he
  rw [← magnitude_mul_self hx] at hle
  refine ⟨decide_eq_true (Nat.lt_of_le_of_lt hle he), ?_⟩
  rw [toReal_of_nonneg (nonneg_mul_self hx).negative_eq, ← unitsOfMagnitude_powerOfTwo]
  have hpos := leastUnit_pos
  gcongr
  exact unitsOfMagnitude_strictMono.monotone hle

/-- The square of a number of at least `powerOfTwo a` units is not below the power of two with the
    exponent `e`. -/
theorem le_toReal_mul_self {a e : Nat} (hx : x.Finite) (h : powerOfTwo a ≤ unitsOfMagnitude x.magnitude)
    (ha : 52 + e + 1074 ≤ a + a) (he : (e + 1) * fractionCount < infinityMagnitude) :
    powerOfTwo (52 + e) * leastUnit ≤ (x * x).toReal := by
  have hsquare : powerOfTwo (52 + e) * unitsPerOne ≤ unitsOfMagnitude x.magnitude * unitsOfMagnitude x.magnitude := by
    rw [unitsPerOne_eq, ← powerOfTwo_add]
    refine le_trans ?_ (Nat.mul_le_mul h h)
    rw [← powerOfTwo_add]
    exact powerOfTwo_mono ha
  have hle := powerOfTwo_le_nearestMagnitude unitsPerOne_pos hsquare he
  rw [← magnitude_mul_self hx] at hle
  rw [toReal_of_nonneg (nonneg_mul_self hx).negative_eq, ← unitsOfMagnitude_powerOfTwo]
  have hpos := leastUnit_pos
  gcongr
  exact unitsOfMagnitude_strictMono.monotone hle

/-- The square of a number of 2^512 or more, that is of 2^1586 units, is infinite. -/
theorem not_finite_mul_self (hx : x.Finite) (h : powerOfTwo 1586 ≤ unitsOfMagnitude x.magnitude) :
    ¬(x * x).Finite := by
  have hsquare : powerOfTwo (52 + 2046) * unitsPerOne ≤
      unitsOfMagnitude x.magnitude * unitsOfMagnitude x.magnitude := by
    rw [show powerOfTwo (52 + 2046) * unitsPerOne = powerOfTwo 1586 * powerOfTwo 1586 by
      rw [unitsPerOne_eq, ← powerOfTwo_add, ← powerOfTwo_add]]
    exact Nat.mul_le_mul h h
  have hlast := unitsOfMagnitude_strictMono (show infinityMagnitude - 1 < infinityMagnitude by decide)
  have hinfinity : unitsOfMagnitude infinityMagnitude = powerOfTwo (52 + 2046) := unitsOfMagnitude_powerOfTwo 2046
  -- The exact square is above the middle between the last finite magnitude and infinity.
  have hover : infinityMagnitude - 1 < (x * x).magnitude := by
    rw [magnitude_mul_self hx]
    refine lt_nearestMagnitude_of_lt unitsPerOne_pos (by decide) ?_
    have hpos := unitsPerOne_pos
    have hsucc : infinityMagnitude - 1 + 1 = infinityMagnitude := rfl
    rw [hsucc, hinfinity]
    rw [hinfinity] at hlast
    generalize unitsPerOne = one at *
    generalize powerOfTwo (52 + 2046) = top at *
    nlinarith
  intro hfinite
  have := decide_eq_true_eq.mp hfinite
  omega

end Double

end Georef

import Georef.Proofs.Double.Zeros
import Mathlib.Analysis.Real.Sqrt
import Mathlib.Tactic.FieldSimp
import Mathlib.Tactic.Linarith

/-!
# Rounding errors

Every operation rounds its exact result once. What is lost by this is no more than the part `roundoff` of the
rounded result, or half a unit where the numbers have no more bits. A sum of doubles is a whole number of units, so
there nothing is lost in the second case; the root of a double has all its bits, but is cut off before it is
rounded, which may lose as much again.

## Key results

- `abs_toReal_ofRatio_sub_le`: the error of one rounding
- `abs_toReal_mul_sub_le`, `abs_toReal_add_sub_le`, `abs_toReal_div_sub_le`, `abs_toReal_sqrt_sub_le`: the error of
  each operation
- `finite_ofRatio`: what is not too large is rounded to a finite number
-/

namespace Georef

namespace Double

/-- The least positive number, the unit of which all finite numbers are multiples. -/
noncomputable def leastUnit : ℝ := 1 / unitsPerOne

/-- The exact value of a finite number. -/
noncomputable def toReal (x : Double) : ℝ := x.units * leastUnit

/-- How much of a rounded number may be lost by rounding. -/
noncomputable def roundoff : ℝ := 1 / (fractionCount + fractionCount)

/-- `unitsPerOne` units of size `leastUnit` make one. -/
theorem unitsPerOne_mul_leastUnit : (unitsPerOne : ℝ) * leastUnit = 1 :=
  mul_one_div_cancel (Nat.cast_ne_zero.mpr unitsPerOne_pos.ne')

/-- `leastUnit` is positive. -/
theorem leastUnit_pos : 0 < leastUnit := one_div_pos.mpr (Nat.cast_pos.mpr unitsPerOne_pos)

theorem fractionCount_pos : (0 : ℝ) < fractionCount := Nat.cast_pos.mpr (by decide)

theorem roundoff_pos : 0 < roundoff := one_div_pos.mpr (add_pos fractionCount_pos fractionCount_pos)

/-- `roundoff` is half of the last bit of a fraction. -/
theorem roundoff_eq_div : roundoff = 1 / (2 * fractionCount) := by rw [roundoff, two_mul]

/-- `roundoff` is one part in 2^53. -/
theorem roundoff_mul : roundoff * (2 * fractionCount) = 1 := by
  rw [roundoff_eq_div]
  exact one_div_mul_cancel (mul_ne_zero two_ne_zero fractionCount_pos.ne')

/-- `roundoff` as a decimal, for estimates. -/
theorem roundoff_eq : roundoff = 1 / 9007199254740992 := by
  rw [roundoff_eq_div, fractionCount]
  norm_num

/-- Fifteen decimal digits survive a rounding. -/
theorem roundoff_le : roundoff ≤ 1 / 1000000000000000 := by
  rw [roundoff_eq]
  norm_num

/-- A unit is tiny, even next to the square of `roundoff`. -/
theorem leastUnit_le_roundoff_mul : leastUnit ≤ roundoff * roundoff := by
  have hpower : powerOfTwo 106 ≤ unitsPerOne := powerOfTwo_mono (by decide)
  have hround : roundoff * roundoff = 1 / ((powerOfTwo 106 : Nat) : ℝ) := by
    rw [roundoff_eq, show powerOfTwo 106 = 9007199254740992 * 9007199254740992 from rfl]
    norm_num
  rw [hround, leastUnit]
  exact one_div_le_one_div_of_le (Nat.cast_pos.mpr (powerOfTwo_pos _)) (by exact_mod_cast hpower)

/-! ## Rounding to a magnitude -/

/-- Neighbouring magnitudes are a unit apart, or no more than one part in `fractionCount`. -/
theorem unitsOfMagnitude_gap (m : Nat) :
    unitsOfMagnitude (m + 1) = unitsOfMagnitude m + 1 ∨
      fractionCount * unitsOfMagnitude (m + 1) ≤ (fractionCount + 1) * unitsOfMagnitude m := by
  obtain ⟨scale, bits, rfl, hscale, hbits⟩ := exists_scaled m
  rw [Nat.add_assoc, unitsOfMagnitude_scaled (by omega) (by omega), unitsOfMagnitude_scaled hscale (by omega)]
  -- Without a scale neighbours are a unit apart; with one, all bits of the fraction are there.
  obtain rfl | hfull := hscale
  · left
    simp [powerOfTwo]
  · right
    calc fractionCount * ((bits + 1) * powerOfTwo scale)
        = (fractionCount * bits + fractionCount) * powerOfTwo scale := by ring
      _ ≤ (fractionCount * bits + bits) * powerOfTwo scale := by gcongr
      _ = (fractionCount + 1) * (bits * powerOfTwo scale) := by ring

/-- A magnitude is no further from the next one than a unit or a part `2 * roundoff` of it. -/
theorem unitsOfMagnitude_succ_sub_le (m : Nat) :
    (unitsOfMagnitude (m + 1) : ℝ) - unitsOfMagnitude m ≤ max 1 (2 * roundoff * unitsOfMagnitude m) := by
  have hpos := fractionCount_pos
  obtain hunit | hpart := unitsOfMagnitude_gap m
  · rw [hunit]
    simp
  · refine le_max_of_le_right ?_
    have hpart' : (fractionCount : ℝ) * unitsOfMagnitude (m + 1) ≤ (fractionCount + 1) * unitsOfMagnitude m := by
      exact_mod_cast hpart
    rw [roundoff_eq_div, show 2 * (1 / (2 * (fractionCount : ℝ))) * unitsOfMagnitude m = unitsOfMagnitude m / fractionCount by
      field_simp, le_div_iff₀ hpos]
    linarith

/-- `nearestMagnitude` gives a magnitude that is half a unit away at most, or a part `roundoff` of
    the magnitude. -/
theorem abs_sub_nearestMagnitude_le {n d : Nat} (hd : 0 < d) (h : nearestMagnitude n d < infinityMagnitude) :
    |(n : ℝ) / d - unitsOfMagnitude (nearestMagnitude n d)| ≤
      max (1 / 2) (roundoff * unitsOfMagnitude (nearestMagnitude n d)) := by
  obtain ⟨m, hm, habove, hbelow⟩ := nearestMagnitude_between (n := n) hd
  have heq : nearestMagnitude n d = m := by omega
  rw [heq]
  have hd' : (0 : ℝ) < d := Nat.cast_pos.mpr hd
  have hround := roundoff_pos
  have hhalf : max (1 : ℝ) (2 * roundoff * unitsOfMagnitude m) / 2 =
      max (1 / 2) (roundoff * unitsOfMagnitude m) := by
    rw [← max_div_div_right (by norm_num), mul_assoc, mul_div_cancel_left₀ _ two_ne_zero]
  rw [abs_le]
  constructor
  · -- Below, the middle to the magnitude before is not passed.
    cases m with
    | zero =>
      have : (0 : ℝ) ≤ n / d := div_nonneg (Nat.cast_nonneg n) hd'.le
      have : (0 : ℝ) ≤ max (1 / 2) (roundoff * unitsOfMagnitude 0) := le_max_of_le_left (by norm_num)
      simp only [unitsOfMagnitude_zero, Nat.cast_zero, sub_zero] at *
      linarith
    | succ k =>
      have hmiddle : (d : ℝ) * (unitsOfMagnitude k + unitsOfMagnitude (k + 1)) ≤ 2 * n := by
        exact_mod_cast hbelow k rfl
      have hquotient : ((unitsOfMagnitude k : ℝ) + unitsOfMagnitude (k + 1)) / 2 ≤ n / d := by
        rw [le_div_iff₀ hd']
        linarith
      have hgap := unitsOfMagnitude_succ_sub_le k
      have hmono : (unitsOfMagnitude k : ℝ) ≤ unitsOfMagnitude (k + 1) :=
        Nat.cast_le.mpr (unitsOfMagnitude_strictMono (Nat.lt_succ_self k)).le
      have hlarger : max (1 : ℝ) (2 * roundoff * unitsOfMagnitude k) ≤
          max 1 (2 * roundoff * unitsOfMagnitude (k + 1)) := by gcongr
      linarith
  · -- Above, the middle to the next magnitude is not passed.
    have hmiddle : 2 * (n : ℝ) ≤ d * (unitsOfMagnitude m + unitsOfMagnitude (m + 1)) := by
      exact_mod_cast habove
    have hquotient : (n : ℝ) / d ≤ ((unitsOfMagnitude m : ℝ) + unitsOfMagnitude (m + 1)) / 2 := by
      rw [div_le_iff₀ hd']
      linarith
    have hgap := unitsOfMagnitude_succ_sub_le m
    linarith

/-- Natural numbers that are no more than half apart are the same, so only the second bound of `max`
    matters to them. -/
private theorem abs_sub_le_of_le_max {n units : Nat} (h : |(n : ℝ) - units| ≤ max (1 / 2) (roundoff * units)) :
    |(n : ℝ) - units| ≤ roundoff * units := by
  have hround := roundoff_pos
  obtain hhalf | hpart := le_max_iff.mp h
  · -- Nothing is lost.
    have hlt : |((n : ℤ) - (units : ℤ) : ℝ)| < 1 := by
      push_cast
      linarith
    have hsame : (n : ℤ) - units = 0 := Int.abs_lt_one_iff.mp (by exact_mod_cast hlt)
    have hunits : (n : ℝ) - units = 0 := by exact_mod_cast hsame
    rw [hunits, abs_zero]
    positivity
  · exact hpart

/-- A whole number of units loses only a part `roundoff` of the rounded number, and nothing below
    2^53 units. -/
theorem abs_sub_nearestMagnitude_one_le {n : Nat} (h : nearestMagnitude n 1 < infinityMagnitude) :
    |(n : ℝ) - unitsOfMagnitude (nearestMagnitude n 1)| ≤
      roundoff * unitsOfMagnitude (nearestMagnitude n 1) := by
  have herror := abs_sub_nearestMagnitude_le Nat.one_pos h
  rw [Nat.cast_one, div_one] at herror
  exact abs_sub_le_of_le_max herror

/-- A power of two in units, from the first one with all bits of precision on. -/
theorem unitsOfMagnitude_powerOfTwo (e : Nat) : unitsOfMagnitude ((e + 1) * fractionCount) = powerOfTwo (52 + e) := by
  rw [Nat.succ_mul, unitsOfMagnitude_scaled (.inr le_rfl) (by omega), powerOfTwo_add]
  rfl

/-- `nearestMagnitude` does not round above a power of two what is not above it. -/
theorem nearestMagnitude_le_powerOfTwo {n d e : Nat} (hd : 0 < d) (h : n ≤ powerOfTwo (52 + e) * d)
    (he : (e + 1) * fractionCount < infinityMagnitude) : nearestMagnitude n d ≤ (e + 1) * fractionCount := by
  rw [← nearestMagnitude_unitsOfMagnitude he, unitsOfMagnitude_powerOfTwo]
  exact nearestMagnitude_mono hd Nat.one_pos (by rwa [Nat.mul_one])

/-- `nearestMagnitude` does not round below a power of two what is not below it. -/
theorem powerOfTwo_le_nearestMagnitude {n d e : Nat} (hd : 0 < d) (h : powerOfTwo (52 + e) * d ≤ n)
    (he : (e + 1) * fractionCount < infinityMagnitude) : (e + 1) * fractionCount ≤ nearestMagnitude n d := by
  rw [← nearestMagnitude_unitsOfMagnitude he, unitsOfMagnitude_powerOfTwo]
  exact nearestMagnitude_mono Nat.one_pos hd (by rwa [Nat.mul_one])

theorem unitsPerOne_eq : unitsPerOne = powerOfTwo 1074 := rfl

/-- `nearestMagnitude` rounds to zero exactly what is no more than half a unit. -/
theorem nearestMagnitude_eq_zero_iff {n d : Nat} (hd : 0 < d) : nearestMagnitude n d = 0 ↔ 2 * n ≤ d := by
  constructor
  · intro h
    obtain ⟨m, hm, habove, -⟩ := nearestMagnitude_between (n := n) hd
    have hpos : 0 < infinityMagnitude := by decide
    obtain rfl : m = 0 := by omega
    rwa [unitsOfMagnitude_zero, Nat.zero_add, unitsOfMagnitude_of_lt (by decide), Nat.mul_one] at habove
  · intro h
    have hquotient : n / d = 0 := Nat.div_eq_of_lt (by omega)
    have hround : roundHalfEven n d = 0 := by
      by_contra hne
      have := (lt_roundHalfEven_iff hd).mp (Nat.pos_of_ne_zero hne)
      omega
    simp [nearestMagnitude, hquotient, powerOfTwo, hround]

/-- Greater exponents give greater powers. -/
theorem powerOfTwo_strictMono : StrictMono powerOfTwo := fun _ _ h => Nat.pow_lt_pow_right (by decide) h

/-! ## Rounding to a number -/

variable {x y : Double} {negative : Bool} {n d : Nat}

/-- The factor that gives a number its sign. -/
noncomputable def signFactor (negative : Bool) : ℝ := if negative then -1 else 1

/-- `signFactor` has the absolute value one. -/
@[simp] theorem abs_signFactor (negative : Bool) : |signFactor negative| = 1 := by
  cases negative <;> simp [signFactor]

@[simp] theorem signFactor_false : signFactor false = 1 := by simp [signFactor]

/-- The `units` of a number are its sign and the units of its magnitude. -/
theorem units_eq_signFactor (x : Double) :
    (x.units : ℝ) = signFactor x.negative * unitsOfMagnitude x.magnitude := by
  unfold units signFactor
  cases x.negative <;> simp

/-- Without a minus sign, `toReal` is that of the magnitude. -/
theorem toReal_of_nonneg (h : x.negative = false) : x.toReal = unitsOfMagnitude x.magnitude * leastUnit := by
  rw [toReal, units_eq_signFactor, h, signFactor_false, one_mul]

@[simp] theorem toReal_zero : (0 : Double).toReal = 0 := by
  have hunits : (0 : Double).units = 0 := rfl
  simp [toReal, hunits]

/-- Signs apart, `toReal` is that of the magnitude. -/
theorem abs_toReal (x : Double) : |x.toReal| = unitsOfMagnitude x.magnitude * leastUnit := by
  have hpos := leastUnit_pos
  rw [toReal, units_eq_signFactor, abs_mul, abs_mul, abs_signFactor, one_mul, abs_of_pos hpos, Nat.abs_cast]

/-- Only the zeros have zero as `toReal`. -/
theorem toReal_eq_zero_iff : x.toReal = 0 ↔ x.magnitude = 0 := by
  rw [← abs_eq_zero, abs_toReal, mul_eq_zero, or_iff_left leastUnit_pos.ne', Nat.cast_eq_zero]
  constructor
  · intro h
    exact unitsOfMagnitude_strictMono.injective (h.trans unitsOfMagnitude_zero.symm)
  · intro h
    rw [h, unitsOfMagnitude_zero]

/-- Every positive number is `leastUnit` or more. -/
theorem leastUnit_le (hsign : x.negative = false) (hne : x.magnitude ≠ 0) : leastUnit ≤ x.toReal := by
  have hunits : 1 ≤ unitsOfMagnitude x.magnitude := unitsOfMagnitude_strictMono (Nat.pos_of_ne_zero hne)
  rw [toReal_of_nonneg hsign]
  exact le_mul_of_one_le_left leastUnit_pos.le (by exact_mod_cast hunits)

/-- The error of one rounding: a part `roundoff` of the result, and half a unit where the result has
    no more bits. -/
theorem abs_toReal_ofRatio_sub_le (hd : 0 < d) (h : (ofRatio negative n d).Finite) :
    |(ofRatio negative n d).toReal - signFactor negative * (n / d) * leastUnit| ≤
      roundoff * |(ofRatio negative n d).toReal| + leastUnit / 2 := by
  have hpos := leastUnit_pos
  have hround := roundoff_pos
  have hmagnitude : nearestMagnitude n d < infinityMagnitude := decide_eq_true_eq.mp h
  have herror := abs_sub_nearestMagnitude_le hd hmagnitude
  rw [abs_toReal, toReal, units_eq_signFactor]
  show |signFactor negative * unitsOfMagnitude (nearestMagnitude n d) * leastUnit - _| ≤
    roundoff * (unitsOfMagnitude (nearestMagnitude n d) * leastUnit) + leastUnit / 2
  have hunits : (0 : ℝ) ≤ unitsOfMagnitude (nearestMagnitude n d) := Nat.cast_nonneg _
  generalize (unitsOfMagnitude (nearestMagnitude n d) : ℝ) = units at herror hunits ⊢
  have hsum : max (1 / 2) (roundoff * units) ≤ roundoff * units + 1 / 2 := by
    have : 0 ≤ roundoff * units := by positivity
    exact max_le (by linarith) (by linarith)
  rw [← sub_mul, ← mul_sub, abs_mul, abs_mul, abs_signFactor, one_mul, abs_of_pos hpos, abs_sub_comm]
  -- In units the error is half of one, or a part of the result; both together bound either.
  calc |(n : ℝ) / d - units| * leastUnit ≤ (roundoff * units + 1 / 2) * leastUnit := by
        gcongr
        exact herror.trans hsum
    _ = roundoff * (units * leastUnit) + leastUnit / 2 := by ring

/-- `ofRatio` rounds what is no more than a power of two to a finite number. -/
theorem finite_ofRatio {e : Nat} (hd : 0 < d) (h : n ≤ powerOfTwo (52 + e) * d)
    (he : (e + 1) * fractionCount < infinityMagnitude) : (ofRatio negative n d).Finite :=
  decide_eq_true (Nat.lt_of_le_of_lt (nearestMagnitude_le_powerOfTwo hd h he) he)

/-- An integer is its `signFactor` and its absolute value. -/
theorem cast_eq_signFactor (n : Int) : (n : ℝ) = signFactor (n < 0) * n.natAbs := by
  obtain ⟨k, rfl | rfl⟩ := n.eq_nat_or_neg
  · simp [signFactor]
  · obtain rfl | hk := Nat.eq_zero_or_pos k
    · simp [signFactor]
    · simp [signFactor, hk]

/-- A whole number of units loses only a part of the rounded number: `ofUnits` cuts no unit in half. -/
theorem abs_toReal_ofUnits_sub_le {n : Int} (h : (ofUnits n).Finite) :
    |(ofUnits n).toReal - n * leastUnit| ≤ roundoff * |(ofUnits n).toReal| := by
  have hpos := leastUnit_pos
  have hmagnitude : nearestMagnitude n.natAbs 1 < infinityMagnitude := decide_eq_true_eq.mp h
  have herror := abs_sub_nearestMagnitude_one_le hmagnitude
  rw [abs_toReal, toReal, units_eq_signFactor, cast_eq_signFactor]
  show |signFactor (n < 0) * unitsOfMagnitude (nearestMagnitude n.natAbs 1) * leastUnit - _| ≤
    roundoff * (unitsOfMagnitude (nearestMagnitude n.natAbs 1) * leastUnit)
  rw [← sub_mul, ← mul_sub, abs_mul, abs_mul, abs_signFactor, one_mul, abs_of_pos hpos, abs_sub_comm, ← mul_assoc]
  gcongr

/-! ## Operations -/

/-- Dividing by `unitsPerOne` counts in units. -/
theorem div_unitsPerOne (a : ℝ) : a / unitsPerOne = a * leastUnit := by
  rw [leastUnit, mul_one_div]

/-- Signs apart, the `units` of a number are those of its magnitude. -/
theorem natAbs_units (x : Double) : x.units.natAbs = unitsOfMagnitude x.magnitude := by
  unfold units
  split <;> simp

/-- The `signFactor` of a product is the product of both. -/
theorem signFactor_bne (a b : Bool) : signFactor (a != b) = signFactor a * signFactor b := by
  cases a <;> cases b <;> simp [signFactor]

/-- The error of a product of finite numbers that stays finite. -/
theorem abs_toReal_mul_sub_le (hx : x.Finite) (hy : y.Finite) (h : (x * y).Finite) :
    |(x * y).toReal - x.toReal * y.toReal| ≤ roundoff * |(x * y).toReal| + leastUnit / 2 := by
  rw [hx.mul_eq hy] at h ⊢
  have herror := abs_toReal_ofRatio_sub_le unitsPerOne_pos h
  have hexact : signFactor (x.negative != y.negative) *
      (((x.units.natAbs * y.units.natAbs : Nat) : ℝ) / unitsPerOne) * leastUnit = x.toReal * y.toReal := by
    rw [div_unitsPerOne, toReal, toReal,
      units_eq_signFactor, units_eq_signFactor, natAbs_units, natAbs_units, signFactor_bne, Nat.cast_mul]
    ring
  rwa [hexact] at herror

/-- A sum of finite numbers is the sum of their units, rounded once. An exact zero has a minus sign
    only if both numbers have one. -/
theorem Finite.add_eq (hx : x.Finite) (hy : y.Finite) :
    x + y = if x.units + y.units = 0 then signedZero (x.negative && y.negative)
      else ofUnits (x.units + y.units) := by
  show x.add y = _
  rw [add, addNumbers, hx.isNaN_eq_false, hy.isNaN_eq_false, hx.isInfinite_eq_false, hy.isInfinite_eq_false]
  rfl

/-- The error of a sum, which is a whole number of units: there is no half of a unit to lose. -/
theorem abs_toReal_add_sub_le (hx : x.Finite) (hy : y.Finite) (h : (x + y).Finite) :
    |(x + y).toReal - (x.toReal + y.toReal)| ≤ roundoff * |(x + y).toReal| := by
  have hsum : x.toReal + y.toReal = ((x.units + y.units : Int) : ℝ) * leastUnit := by
    rw [toReal, toReal, Int.cast_add, add_mul]
  rw [hx.add_eq hy] at h ⊢
  rw [hsum]
  split
  · -- An exact zero is not rounded.
    rename_i hzero
    have hreal : (signedZero (x.negative && y.negative)).toReal = 0 := by simp [toReal]
    simp [hreal, hzero]
  · rename_i hne
    rw [if_neg hne] at h
    exact abs_toReal_ofUnits_sub_le h

/-- A quotient of finite numbers by a positive one is the quotient of their units, rounded once. -/
theorem Finite.div_eq (hx : x.Finite) (hy : y.Finite) (hsign : y.negative = false) (hne : y.magnitude ≠ 0) :
    x / y = ofRatio x.negative (x.units.natAbs * unitsPerOne) y.units.natAbs := by
  have hzero : y.isZero = false := beq_eq_false_iff_ne.mpr hne
  show x.div y = _
  rw [div, hx.isNaN_eq_false, hy.isNaN_eq_false, hx.isInfinite_eq_false, hy.isInfinite_eq_false, hzero, hsign,
    Bool.bne_false]
  rfl

/-- A quotient that is no more than two is finite. -/
theorem Finite.div (hx : x.Finite) (hy : y.Finite) (hsign : y.negative = false) (hne : y.magnitude ≠ 0)
    (h : |x.toReal| ≤ 2 * y.toReal) : (x / y).Finite := by
  have hunits : unitsOfMagnitude x.magnitude ≤ 2 * unitsOfMagnitude y.magnitude := by
    rw [abs_toReal, toReal_of_nonneg hsign, ← mul_assoc] at h
    exact_mod_cast le_of_mul_le_mul_right h leastUnit_pos
  have htwo : powerOfTwo (52 + 1023) = 2 * unitsPerOne := by
    have hdouble : powerOfTwo 1 = 2 := rfl
    rw [show 52 + 1023 = 1 + 1074 from rfl, powerOfTwo_add, ← unitsPerOne_eq, hdouble]
  rw [hx.div_eq hy hsign hne, natAbs_units, natAbs_units]
  refine finite_ofRatio (e := 1023) (unitsOfMagnitude_strictMono (Nat.pos_of_ne_zero hne)) ?_ (by decide)
  calc unitsOfMagnitude x.magnitude * unitsPerOne ≤ 2 * unitsOfMagnitude y.magnitude * unitsPerOne :=
        Nat.mul_le_mul_right _ hunits
    _ = powerOfTwo (52 + 1023) * unitsOfMagnitude y.magnitude := by rw [htwo, Nat.mul_right_comm]

/-- The error of a quotient by a positive number that stays finite. -/
theorem abs_toReal_div_sub_le (hx : x.Finite) (hy : y.Finite) (hsign : y.negative = false) (hne : y.magnitude ≠ 0)
    (h : (x / y).Finite) :
    |(x / y).toReal - x.toReal / y.toReal| ≤ roundoff * |(x / y).toReal| + leastUnit / 2 := by
  have hunits : 0 < y.units.natAbs := by
    rw [natAbs_units]
    exact unitsOfMagnitude_strictMono (Nat.pos_of_ne_zero hne)
  rw [hx.div_eq hy hsign hne] at h ⊢
  have herror := abs_toReal_ofRatio_sub_le hunits h
  -- The units of the divisor cancel: the quotient of the units is that of the values.
  have hexact : signFactor x.negative * (((x.units.natAbs * unitsPerOne : Nat) : ℝ) / y.units.natAbs) * leastUnit =
      x.toReal / y.toReal := by
    have hunit := leastUnit_pos
    rw [toReal, toReal, units_eq_signFactor, units_eq_signFactor, natAbs_units, natAbs_units, hsign, Nat.cast_mul,
      mul_div_mul_right _ _ hunit.ne', signFactor_false, one_mul]
    calc signFactor x.negative * (unitsOfMagnitude x.magnitude * unitsPerOne / unitsOfMagnitude y.magnitude) *
          leastUnit = signFactor x.negative * unitsOfMagnitude x.magnitude * (unitsPerOne * leastUnit) /
          unitsOfMagnitude y.magnitude := by ring
      _ = _ := by rw [unitsPerOne_mul_leastUnit, mul_one]
  rwa [hexact] at herror

/-! ## Roots -/

/-- Twice the integer root, and one more if it is not exact. -/
def twiceRoot (radicand : Nat) : Nat :=
  if radicand.sqrt * radicand.sqrt = radicand then 2 * radicand.sqrt else 2 * radicand.sqrt + 1

/-- `sqrtMagnitude` rounds the half of `twiceRoot`. -/
theorem sqrtMagnitude_eq (n : Nat) : sqrtMagnitude n = nearestMagnitude (twiceRoot (n * unitsPerOne)) 2 := rfl

/-- `twiceRoot` is twice the integer root or one more. -/
theorem twiceRoot_between (radicand : Nat) :
    2 * radicand.sqrt ≤ twiceRoot radicand ∧ twiceRoot radicand ≤ 2 * radicand.sqrt + 1 := by
  unfold twiceRoot
  split <;> omega

/-- Half of `twiceRoot` is no more than half a unit away from the root. -/
theorem abs_sqrt_sub_twiceRoot_le (radicand : Nat) : |√(radicand : ℝ) - (twiceRoot radicand : ℝ) / 2| ≤ 1 / 2 := by
  unfold twiceRoot
  split
  · rename_i hexact
    have hroot : √(radicand : ℝ) = radicand.sqrt := by
      rw [Real.sqrt_eq_iff_mul_self_eq (Nat.cast_nonneg _) (Nat.cast_nonneg _)]
      exact_mod_cast hexact.symm
    simp [hroot]
  · -- A root that is no integer lies between two of them, and the middle is half away from both.
    have hlow : (radicand.sqrt : ℝ) ≤ √radicand := by
      refine Real.le_sqrt_of_sq_le ?_
      exact_mod_cast radicand.sqrt_le'
    have hhigh : √(radicand : ℝ) ≤ radicand.sqrt + 1 := by
      refine Real.sqrt_le_iff.mpr ⟨by positivity, ?_⟩
      exact_mod_cast radicand.lt_succ_sqrt'.le
    push_cast
    rw [abs_le]
    constructor <;> linarith

/-- A quotient that has all bits of precision and is not too large only loses a part of the rounded
    number. Half a unit is a small part of it. -/
theorem nearestMagnitude_of_bits {n d e : Nat} (hd : 0 < d) (hlow : powerOfTwo (52 + 1) * d ≤ n)
    (hhigh : n ≤ powerOfTwo (52 + e) * d) (he : (e + 1) * fractionCount < infinityMagnitude) :
    nearestMagnitude n d < infinityMagnitude ∧
      1 ≤ roundoff * unitsOfMagnitude (nearestMagnitude n d) ∧
      |(n : ℝ) / d - unitsOfMagnitude (nearestMagnitude n d)| ≤
        roundoff * unitsOfMagnitude (nearestMagnitude n d) := by
  have hfinite := Nat.lt_of_le_of_lt (nearestMagnitude_le_powerOfTwo hd hhigh he) he
  have herror := abs_sub_nearestMagnitude_le hd hfinite
  have hunits := unitsOfMagnitude_strictMono.monotone (powerOfTwo_le_nearestMagnitude hd hlow (by decide))
  rw [unitsOfMagnitude_powerOfTwo] at hunits
  have hbits : (2 : ℝ) * fractionCount ≤ unitsOfMagnitude (nearestMagnitude n d) := by exact_mod_cast hunits
  have hpart : 1 ≤ roundoff * unitsOfMagnitude (nearestMagnitude n d) := by
    calc 1 = roundoff * (2 * fractionCount) := roundoff_mul.symm
      _ ≤ _ := mul_le_mul_of_nonneg_left hbits roundoff_pos.le
  rw [max_eq_right (by linarith)] at herror
  exact ⟨hfinite, hpart, herror⟩

/-- `sqrtMagnitude` of a whole number of units is finite, and off by a part `2 * roundoff` at most:
    once for what is cut off, once for rounding. -/
theorem sqrtMagnitude_spec {n : Nat} (hn : 0 < n) (hle : n ≤ powerOfTwo 2098) :
    sqrtMagnitude n < infinityMagnitude ∧
      |√((n * unitsPerOne : Nat) : ℝ) - unitsOfMagnitude (sqrtMagnitude n)| ≤
        2 * roundoff * unitsOfMagnitude (sqrtMagnitude n) := by
  -- The root has more than 53 bits and fewer than the largest finite number.
  have hlow : powerOfTwo (52 + 1) ≤ (n * unitsPerOne).sqrt := by
    rw [Nat.le_sqrt, ← powerOfTwo_add]
    exact (powerOfTwo_mono (n := 1074) (by decide)).trans (Nat.le_mul_of_pos_left _ hn)
  have hhigh : (n * unitsPerOne).sqrt < powerOfTwo (52 + 1535) := by
    rw [Nat.sqrt_lt, ← powerOfTwo_add]
    calc n * unitsPerOne ≤ powerOfTwo 2098 * unitsPerOne := Nat.mul_le_mul_right _ hle
      _ = powerOfTwo (2098 + 1074) := by rw [unitsPerOne_eq, powerOfTwo_add]
      _ < powerOfTwo (52 + 1535 + (52 + 1535)) := powerOfTwo_strictMono (by decide)
  rw [sqrtMagnitude_eq]
  generalize n * unitsPerOne = radicand at *
  have hroot := abs_sqrt_sub_twiceRoot_le radicand
  obtain ⟨hdown, hup⟩ := twiceRoot_between radicand
  generalize twiceRoot radicand = twice at *
  obtain ⟨hfinite, hpart, herror⟩ := nearestMagnitude_of_bits (n := twice) Nat.two_pos (by omega)
    (show twice ≤ powerOfTwo (52 + 1535) * 2 by omega) (by decide)
  refine ⟨hfinite, ?_⟩
  rw [Nat.cast_ofNat] at herror
  generalize (unitsOfMagnitude (nearestMagnitude twice 2) : ℝ) = units at *
  -- What is cut off before rounding is no more than half a unit, and so a small part of the root as well.
  calc |√(radicand : ℝ) - units| ≤ |√(radicand : ℝ) - twice / 2| + |(twice : ℝ) / 2 - units| :=
      abs_sub_le _ _ _
    _ ≤ 1 / 2 + roundoff * units := add_le_add hroot herror
    _ ≤ 2 * roundoff * units := by linarith

/-- The error of the root of a positive number, which is finite and has no minus sign. -/
theorem abs_toReal_sqrt_sub_le (hx : x.Finite) (hsign : x.negative = false) (hne : x.magnitude ≠ 0) :
    x.sqrt.Finite ∧ x.sqrt.negative = false ∧
      |√x.toReal - x.sqrt.toReal| ≤ 2 * roundoff * x.sqrt.toReal := by
  have hunit := leastUnit_pos
  have hmagnitude : x.sqrt.negative = false ∧ x.sqrt.magnitude = sqrtMagnitude (unitsOfMagnitude x.magnitude) := by
    have hzero : x.isZero = false := beq_eq_false_iff_ne.mpr hne
    rw [← natAbs_units, sqrt, hx.isNaN_eq_false, hzero, hsign, hx.isInfinite_eq_false]
    exact ⟨rfl, rfl⟩
  obtain ⟨hpositive, hmagnitude⟩ := hmagnitude
  have hlarge : unitsOfMagnitude x.magnitude ≤ powerOfTwo 2098 := by
    have hlast : infinityMagnitude = (2046 + 1) * fractionCount := rfl
    rw [show 2098 = 52 + 2046 from rfl, ← unitsOfMagnitude_powerOfTwo, ← hlast]
    exact unitsOfMagnitude_strictMono.monotone (decide_eq_true_eq.mp hx).le
  obtain ⟨hfinite, herror⟩ := sqrtMagnitude_spec (unitsOfMagnitude_strictMono (Nat.pos_of_ne_zero hne)) hlarge
  rw [← hmagnitude] at hfinite herror
  refine ⟨decide_eq_true hfinite, hpositive, ?_⟩
  -- The units are taken `unitsPerOne` times before the root, so that the root counts in units
  -- again.
  have hroot : √x.toReal = √((unitsOfMagnitude x.magnitude * unitsPerOne : Nat) : ℝ) * leastUnit := by
    have hsquare : x.toReal = ((unitsOfMagnitude x.magnitude * unitsPerOne : Nat) : ℝ) * leastUnit ^ 2 := by
      rw [toReal_of_nonneg hsign, Nat.cast_mul]
      calc (unitsOfMagnitude x.magnitude : ℝ) * leastUnit
          = unitsOfMagnitude x.magnitude * (unitsPerOne * leastUnit) * leastUnit := by
            rw [unitsPerOne_mul_leastUnit, mul_one]
        _ = _ := by ring
    rw [hsquare, Real.sqrt_mul (Nat.cast_nonneg _), Real.sqrt_sq hunit.le]
  rw [hroot, toReal_of_nonneg hpositive, ← sub_mul, abs_mul, abs_of_pos hunit, ← mul_assoc]
  gcongr

/-- The root of a positive number is positive in `toReal`. -/
theorem toReal_sqrt_pos (hx : x.Finite) (hsign : x.negative = false) (hne : x.magnitude ≠ 0) :
    0 < x.sqrt.toReal := by
  obtain ⟨-, hpositive, herror⟩ := abs_toReal_sqrt_sub_le hx hsign hne
  have hpos := leastUnit_pos.trans_le (leastUnit_le hsign hne)
  -- A root of zero would be off by all of the exact root.
  refine leastUnit_pos.trans_le (leastUnit_le hpositive fun hzero => ?_)
  rw [toReal_eq_zero_iff.mpr hzero, mul_zero, sub_zero, abs_nonpos_iff] at herror
  exact (Real.sqrt_pos.mpr hpos).ne' herror

/-- The square of the root is hardly smaller than the number. -/
theorem toReal_le_toReal_sqrt_sq (hx : x.Finite) (hsign : x.negative = false) (hne : x.magnitude ≠ 0) :
    x.toReal ≤ 2 * x.sqrt.toReal ^ 2 := by
  have hround := roundoff_pos
  have hround' := roundoff_le
  obtain ⟨-, -, herror⟩ := abs_toReal_sqrt_sub_le hx hsign hne
  have hroot := (toReal_sqrt_pos hx hsign hne).le
  have hnonneg : 0 ≤ x.toReal := leastUnit_pos.le.trans (leastUnit_le hsign hne)
  have hle : √x.toReal ≤ (1 + 2 * roundoff) * x.sqrt.toReal := by
    have := (abs_le.mp herror).2
    linarith
  have hfactor : (1 + 2 * roundoff) ^ 2 ≤ 2 := by nlinarith
  calc x.toReal = √x.toReal ^ 2 := (Real.sq_sqrt hnonneg).symm
    _ ≤ ((1 + 2 * roundoff) * x.sqrt.toReal) ^ 2 := by gcongr
    _ = (1 + 2 * roundoff) ^ 2 * x.sqrt.toReal ^ 2 := mul_pow _ _ _
    _ ≤ 2 * x.sqrt.toReal ^ 2 := by gcongr

end Double

end Georef

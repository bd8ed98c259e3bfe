import Georef.Proofs.Double.RoundingError

/-!
# Bounds by powers of two

A product or a sum of numbers that are not above some powers of two is not above the next power of two, rounding
included, as powers of two are not rounded. So whether a computation stays finite can be found by adding up exponents.
Exponents are counted as they are stored: the exponent `e` stands for 2^(e - 1022), and up to the exponent 2045 all
numbers are finite.

## Key results

- `UpTo.mul`, `UpTo.add`, `UpTo.sub`: the exponents of results
- `UpTo.mul_one_div`: what is divided by a number that is not smaller is not above two
-/

namespace Georef

namespace Double

variable {x y : Double} {a b e : Nat}

/-- Signs apart, the number is not above the power of two with the exponent, which is one of a finite number. -/
structure UpTo (e : Nat) (x : Double) : Prop where
  range : e < 2046
  le : x.magnitude ≤ (e + 1) * fractionCount

namespace UpTo

/-- The exponents that `UpTo` admits end before the infinities. -/
theorem finite (h : UpTo e x) : x.Finite := by
  have hbound : (e + 1) * fractionCount < infinityMagnitude :=
    Nat.mul_lt_mul_of_pos_right (Nat.succ_lt_succ h.range) (by decide)
  exact decide_eq_true (h.le.trans_lt hbound)

/-- A larger exponent is good for `UpTo` as well, as long as it is one of a finite number. -/
theorem mono (h : UpTo a x) (hle : a ≤ b) (hb : b < 2046) : UpTo b x where
  range := hb
  le := h.le.trans (Nat.mul_le_mul_right _ (Nat.succ_le_succ hle))

/-- In units, the bound of `UpTo e` is 2^(52 + e). -/
theorem natAbs_units_le (h : UpTo e x) : x.units.natAbs ≤ powerOfTwo (52 + e) := by
  rw [natAbs_units, ← unitsOfMagnitude_powerOfTwo]
  exact unitsOfMagnitude_strictMono.monotone h.le

/-- `ofRatio` does not round a quotient above a power of two that it is not above. -/
theorem ofRatio {negative : Bool} {n d : Nat} (hd : 0 < d) (h : n ≤ powerOfTwo (52 + e) * d) (he : e < 2046) :
    UpTo e (ofRatio negative n d) where
  range := he
  le := nearestMagnitude_le_powerOfTwo hd h (Nat.mul_lt_mul_of_pos_right (Nat.succ_lt_succ he) (by decide))

/-- The exponents of `UpTo` are added for a product. As 1022 stands for one, it is counted once. -/
theorem mul (hx : UpTo a x) (hy : UpTo b y) (hle : a + b ≤ e + 1022) (he : e < 2046) : UpTo e (x * y) := by
  rw [hx.finite.mul_eq hy.finite]
  refine .ofRatio unitsPerOne_pos ?_ he
  calc x.units.natAbs * y.units.natAbs ≤ powerOfTwo (52 + a) * powerOfTwo (52 + b) :=
        Nat.mul_le_mul hx.natAbs_units_le hy.natAbs_units_le
    _ = powerOfTwo (52 + a + (52 + b)) := (powerOfTwo_add _ _).symm
    _ ≤ powerOfTwo (52 + e + 1074) := powerOfTwo_mono (by omega)
    _ = powerOfTwo (52 + e) * unitsPerOne := powerOfTwo_add _ _

/-- A zero is `UpTo` any power of two. -/
theorem signedZero (negative : Bool) (he : e < 2046) : UpTo e (signedZero negative) where
  range := he
  le := Nat.zero_le _

/-- A sum is `UpTo` one bit more than its parts. -/
theorem add (hx : UpTo e x) (hy : UpTo e y) (he : e + 1 < 2046) : UpTo (e + 1) (x + y) := by
  rw [hx.finite.add_eq hy.finite]
  split
  · exact .signedZero _ he
  · refine .ofRatio Nat.one_pos ?_ he
    have hdouble : powerOfTwo (52 + (e + 1)) = 2 * powerOfTwo (52 + e) := Nat.pow_succ'
    -- Twice a power of two bounds the sum of the units before it is rounded.
    have := hx.natAbs_units_le
    have := hy.natAbs_units_le
    omega

/-- `UpTo` does not look at the sign. -/
theorem neg (h : UpTo e x) : UpTo e (-x) := ⟨h.range, h.le⟩

/-- A difference is `UpTo` one bit more than its parts, just as a sum. -/
theorem sub (hx : UpTo e x) (hy : UpTo e y) (he : e + 1 < 2046) : UpTo (e + 1) (x - y) := by
  have hsub : x - y = x + -y := by
    show x.sub y = x.add y.neg
    have hnan : y.isNaN = false := hy.finite.isNaN_eq_false
    have hnan' : y.neg.isNaN = false := hnan
    rw [Double.sub, Double.add, hnan, hnan']
    rfl
  rw [hsub]
  exact hx.add hy.neg he

/-- The reciprocal of a number that is not below the power of two with the exponent `k`. -/
theorem one_div {k : Nat} (hx : x.Finite) (hk : (k + 1) * fractionCount ≤ x.magnitude) :
    UpTo (2044 - k) (1 / x) := by
  have hne : x.magnitude ≠ 0 := by
    rw [Nat.succ_mul, fractionCount] at hk
    omega
  -- The reciprocal is a quotient of integers, both taken 2^1074 times.
  have hquotient : 1 / x = Double.ofRatio x.negative (unitsPerOne * unitsPerOne) x.units.natAbs := by
    have hone : Double.one.isNaN = false := rfl
    have hone' : Double.one.isInfinite = false := rfl
    have hunits : Double.one.units.natAbs = unitsPerOne := by
      rw [natAbs_units, unitsPerOne_eq]
      exact unitsOfMagnitude_powerOfTwo 1022
    have hzero : x.isZero = false := beq_eq_false_iff_ne.mpr hne
    show Double.one.div x = _
    rw [Double.div, hone, hone', hx.isNaN_eq_false, hx.isInfinite_eq_false, hzero, hunits]
    cases x.negative <;> rfl
  have hlow : powerOfTwo (52 + k) ≤ x.units.natAbs := by
    rw [natAbs_units, ← unitsOfMagnitude_powerOfTwo]
    exact unitsOfMagnitude_strictMono.monotone hk
  rw [hquotient]
  refine .ofRatio ((powerOfTwo_pos _).trans_le hlow) ?_ (by omega)
  calc unitsPerOne * unitsPerOne = powerOfTwo (1074 + 1074) := by rw [powerOfTwo_add, ← unitsPerOne_eq]
    _ ≤ powerOfTwo (52 + (2044 - k) + (52 + k)) := powerOfTwo_mono (by omega)
    _ = powerOfTwo (52 + (2044 - k)) * powerOfTwo (52 + k) := powerOfTwo_add _ _
    _ ≤ powerOfTwo (52 + (2044 - k)) * x.units.natAbs := Nat.mul_le_mul_left _ hlow

/-- A number times the reciprocal of one that is not smaller is not above two, although the
    reciprocal is rounded first. -/
theorem mul_one_div (hy : UpTo e y) (he : e < 2045) (hnormal : y.isNormal = true) (hle : x.magnitude ≤ y.magnitude) :
    UpTo 1023 (x * (1 / y)) := by
  obtain ⟨hlarge, -⟩ := Bool.and_eq_true_iff.mp hnormal
  rw [decide_eq_true_eq] at hlarge
  -- The larger number lies between the powers of two with the exponents `k` and `k + 1`.
  obtain ⟨k, hlow, hhigh⟩ : ∃ k, (k + 1) * fractionCount ≤ y.magnitude ∧ y.magnitude < (k + 2) * fractionCount := by
    have hpos : 0 < fractionCount := by decide
    have hquotient : 1 ≤ y.magnitude / fractionCount := (Nat.one_le_div_iff hpos).mpr hlarge
    refine ⟨y.magnitude / fractionCount - 1, ?_, ?_⟩
    · rw [Nat.sub_add_cancel hquotient]
      exact Nat.div_mul_le_self _ _
    · rw [show y.magnitude / fractionCount - 1 + 2 = y.magnitude / fractionCount + 1 by omega]
      exact (Nat.div_lt_iff_lt_mul hpos).mp (Nat.lt_succ_self _)
  have hk : k ≤ e := by
    have := Nat.le_of_mul_le_mul_right (hlow.trans hy.le) (by decide)
    omega
  have hx : UpTo (k + 1) x := ⟨by omega, hle.trans hhigh.le⟩
  exact hx.mul (one_div hy.finite hlow) (by omega) (by omega)

end UpTo

end Double

end Georef

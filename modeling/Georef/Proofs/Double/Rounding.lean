import Georef.Double.Arithmetic
import Mathlib.Data.Nat.Log
import Mathlib.Tactic.Ring

/-!
# Rounding to the nearest magnitude

A quotient of natural numbers is scaled down until 53 bits are left and rounded to an integer, a tie going
to the even one. This keeps the order of quotients: with the same scale because rounding to an integer does,
and across scales because a rounded value is never above what the next scale starts with. A value that
is a magnitude is its own nearest one.

## Key results

- `roundHalfEven_mono`: rounding to an integer keeps the order of quotients
- `nearestMagnitude_mono`: so does rounding to a magnitude
- `unitsOfMagnitude_strictMono`: greater magnitudes are more units
- `nearestMagnitude_unitsOfMagnitude`: rounding does not change what needs no rounding
- `unitsOfMagnitude_succ_le`: neighbouring magnitudes are apart by no less than a part in 2^53
- `nearestMagnitude_le_of_lt`, `lt_nearestMagnitude_of_lt`: what lies on one side of the middle between two
  neighbours is rounded to that side
-/

namespace Georef

/-! ## Rounding to an integer -/

/-- `roundHalfEven` rounds a quotient to more than `k` if it is above `k + 1/2`, or just there and
    `k` is odd. -/
theorem lt_roundHalfEven_iff {a b k : Nat} (hb : 0 < b) :
    k < roundHalfEven a b ↔ (2 * k + 1) * b < 2 * a ∨ ((2 * k + 1) * b = 2 * a ∧ k % 2 = 1) := by
  have hdivision : b * (a / b) + a % b = a := Nat.div_add_mod a b
  have hremainder : a % b < b := Nat.mod_lt a hb
  rw [roundHalfEven, show (2 * k + 1) * b = 2 * (b * k) + b by ring]
  -- How `k` lies to the quotient decides how their multiples of `b` lie.
  obtain hlt | rfl | hgt := Nat.lt_trichotomy k (a / b)
  · have hmultiple := Nat.mul_le_mul_left b (Nat.succ_le_of_lt hlt)
    rw [Nat.mul_succ] at hmultiple
    split
    · omega
    · split <;> omega
  · split
    · omega
    · split <;> omega
  · have hmultiple := Nat.mul_le_mul_left b (Nat.succ_le_of_lt hgt)
    rw [Nat.mul_succ] at hmultiple
    split
    · omega
    · split <;> omega

/-- `roundHalfEven` keeps the order of quotients. -/
theorem roundHalfEven_mono {a b c d : Nat} (hb : 0 < b) (hd : 0 < d) (h : a * d ≤ c * b) :
    roundHalfEven a b ≤ roundHalfEven c d := by
  -- Whatever the first quotient is rounded above, the second one is rounded above, too.
  refine Nat.le_of_not_lt fun hlt => ?_
  rw [lt_roundHalfEven_iff hb] at hlt
  refine Nat.lt_irrefl (roundHalfEven c d) ((lt_roundHalfEven_iff hd).mpr ?_)
  generalize roundHalfEven c d = k at *
  have hscaled : (2 * a) * d ≤ (2 * c) * b := by
    rw [Nat.mul_assoc, Nat.mul_assoc]
    exact Nat.mul_le_mul_left 2 h
  obtain hlt | ⟨heq, hodd⟩ := hlt
  · left
    refine Nat.lt_of_mul_lt_mul_right (a := b) ?_
    calc (2 * k + 1) * d * b = (2 * k + 1) * b * d := by ring
      _ < (2 * a) * d := Nat.mul_lt_mul_of_pos_right hlt hd
      _ ≤ (2 * c) * b := hscaled
  · have hle : (2 * k + 1) * d ≤ 2 * c := by
      refine Nat.le_of_mul_le_mul_right ?_ hb
      calc (2 * k + 1) * d * b = (2 * k + 1) * b * d := by ring
        _ = (2 * a) * d := by rw [heq]
        _ ≤ (2 * c) * b := hscaled
    omega

/-- `roundHalfEven` rounds an integer to itself. -/
theorem roundHalfEven_mul {m b : Nat} (hb : 0 < b) : roundHalfEven (m * b) b = m := by
  simp [roundHalfEven, Nat.mul_div_cancel m hb, hb]

/-- `roundHalfEven` does not round above an integer what is not above it. -/
theorem roundHalfEven_le {a b m : Nat} (hb : 0 < b) (h : a ≤ m * b) : roundHalfEven a b ≤ m := by
  have hmono := roundHalfEven_mono (a := a) (c := m * b) hb hb (Nat.mul_le_mul_right b h)
  rwa [roundHalfEven_mul hb] at hmono

/-- `roundHalfEven` does not round below an integer what is not below it. -/
theorem le_roundHalfEven {a b m : Nat} (hb : 0 < b) (h : m * b ≤ a) : m ≤ roundHalfEven a b := by
  have hmono := roundHalfEven_mono (a := m * b) (c := a) hb hb (Nat.mul_le_mul_right b h)
  rwa [roundHalfEven_mul hb] at hmono

/-! ## Rounding to a magnitude -/

theorem powerOfTwo_pos (n : Nat) : 0 < powerOfTwo n := Nat.two_pow_pos n

/-- `powerOfTwo` makes a product of a sum. -/
theorem powerOfTwo_add (m n : Nat) : powerOfTwo (m + n) = powerOfTwo m * powerOfTwo n :=
  Nat.pow_add 2 m n

theorem powerOfTwo_mono {m n : Nat} (h : m ≤ n) : powerOfTwo m ≤ powerOfTwo n :=
  Nat.pow_le_pow_right (by decide) h

/-- Greater numbers have no smaller `log2`. -/
theorem log2_mono {m n : Nat} (h : m ≤ n) : m.log2 ≤ n.log2 := by
  rw [Nat.log2_eq_log_two, Nat.log2_eq_log_two]
  exact Nat.log_mono_right h

namespace Double

theorem unitsPerOne_pos : 0 < unitsPerOne := powerOfTwo_pos 1074

/-- How many bits `nearestMagnitude` has to cut off a quotient. -/
private def scaleOf (n d : Nat) : Nat := (n / d).log2 - 52

/-- With the scale of `scaleOf`, a quotient has at most 53 bits. -/
private theorem le_mul_scaleOf {n d : Nat} (hd : 0 < d) :
    n ≤ 2 * fractionCount * (d * powerOfTwo (scaleOf n d)) := by
  have hbits : n / d + 1 ≤ 2 * fractionCount * powerOfTwo (scaleOf n d) := by
    calc n / d + 1 ≤ powerOfTwo ((n / d).log2 + 1) := Nat.lt_log2_self
      _ ≤ powerOfTwo (53 + scaleOf n d) := powerOfTwo_mono (by unfold scaleOf; omega)
      _ = 2 * fractionCount * powerOfTwo (scaleOf n d) := powerOfTwo_add 53 _
  calc n ≤ (n / d + 1) * d := Nat.le_of_lt (Nat.lt_mul_of_div_lt (Nat.lt_succ_self _) hd)
    _ ≤ 2 * fractionCount * powerOfTwo (scaleOf n d) * d := Nat.mul_le_mul_right d hbits
    _ = 2 * fractionCount * (d * powerOfTwo (scaleOf n d)) := by ring

/-- A quotient that `scaleOf` scales down has 53 bits left. -/
private theorem mul_scaleOf_le {n d : Nat} (h : 0 < scaleOf n d) :
    fractionCount * (d * powerOfTwo (scaleOf n d)) ≤ n := by
  have hne : n / d ≠ 0 := fun hzero => by
    rw [scaleOf, hzero] at h
    exact absurd h (by decide)
  have hbits : fractionCount * powerOfTwo (scaleOf n d) ≤ n / d := by
    calc fractionCount * powerOfTwo (scaleOf n d) = powerOfTwo (52 + scaleOf n d) :=
        (powerOfTwo_add 52 _).symm
      _ = powerOfTwo (n / d).log2 := by rw [show 52 + scaleOf n d = (n / d).log2 by unfold scaleOf at *; omega]
      _ ≤ n / d := Nat.log2_self_le hne
  calc fractionCount * (d * powerOfTwo (scaleOf n d)) = fractionCount * powerOfTwo (scaleOf n d) * d := by
        ring
    _ ≤ n / d * d := Nat.mul_le_mul_right d hbits
    _ ≤ n := Nat.div_mul_le_self n d

/-- `nearestMagnitude` in terms of `scaleOf`: every bit of the scale is worth `fractionCount`
    places. -/
theorem nearestMagnitude_eq (n d : Nat) :
    nearestMagnitude n d =
      min (scaleOf n d * fractionCount + roundHalfEven n (d * powerOfTwo (scaleOf n d)))
        infinityMagnitude := rfl

/-- `nearestMagnitude` keeps the order of quotients. -/
theorem nearestMagnitude_mono {n d n' d' : Nat} (hd : 0 < d) (hd' : 0 < d') (h : n * d' ≤ n' * d) :
    nearestMagnitude n d ≤ nearestMagnitude n' d' := by
  -- The larger quotient is not scaled down by less.
  have hscale : scaleOf n d ≤ scaleOf n' d' := by
    have hquotient : n / d ≤ n' / d' := by
      rw [Nat.le_div_iff_mul_le hd']
      refine Nat.le_of_mul_le_mul_right ?_ hd
      calc n / d * d' * d = n / d * d * d' := by ring
        _ ≤ n * d' := Nat.mul_le_mul_right d' (Nat.div_mul_le_self n d)
        _ ≤ n' * d := h
    have := log2_mono hquotient
    unfold scaleOf
    omega
  have hpos := Nat.mul_pos hd (powerOfTwo_pos (scaleOf n d))
  have hpos' := Nat.mul_pos hd' (powerOfTwo_pos (scaleOf n' d'))
  rw [nearestMagnitude_eq, nearestMagnitude_eq]
  refine min_le_min_right infinityMagnitude ?_
  obtain hlt | heq := Nat.lt_or_eq_of_le hscale
  · -- The first quotient rounds to no more than what the larger scale starts with.
    have hupper := roundHalfEven_le hpos (le_mul_scaleOf (n := n) hd)
    have hlower := le_roundHalfEven hpos' (mul_scaleOf_le (n := n') (Nat.zero_lt_of_lt hlt))
    have hscales := Nat.mul_le_mul_right fractionCount (Nat.succ_le_of_lt hlt)
    rw [Nat.succ_mul] at hscales
    omega
  · rw [heq] at hpos ⊢
    refine Nat.add_le_add_left (roundHalfEven_mono hpos hpos' ?_) _
    calc n * (d' * powerOfTwo (scaleOf n' d')) = n * d' * powerOfTwo (scaleOf n' d') := by ring
      _ ≤ n' * d * powerOfTwo (scaleOf n' d') := Nat.mul_le_mul_right _ h
      _ = n' * (d * powerOfTwo (scaleOf n' d')) := by ring

/-- `nearestMagnitude` rounds nothing to zero. -/
@[simp] theorem nearestMagnitude_zero (d : Nat) : nearestMagnitude 0 d = 0 := by
  simp [nearestMagnitude, roundHalfEven]

/-- `nearestMagnitude` never rounds a whole number of units to zero. -/
theorem nearestMagnitude_pos {n : Nat} (h : 0 < n) : 0 < nearestMagnitude n 1 := by
  have hone : nearestMagnitude 1 1 = 1 := by decide
  have hmono : nearestMagnitude 1 1 ≤ nearestMagnitude n 1 :=
    nearestMagnitude_mono Nat.one_pos Nat.one_pos (by omega)
  omega

/-! ## Magnitudes and their units -/

/-- Below 2^52 a magnitude is its `unitsOfMagnitude`. -/
theorem unitsOfMagnitude_of_lt {m : Nat} (h : m < fractionCount) : unitsOfMagnitude m = m := if_pos h

/-- From 2^52 on, a magnitude has an exponent and a fraction with a leading one. -/
theorem unitsOfMagnitude_of_le {m : Nat} (h : fractionCount ≤ m) :
    unitsOfMagnitude m =
      (fractionCount + m % fractionCount) * powerOfTwo (m / fractionCount - 1) :=
  if_neg (Nat.not_lt_of_le h)

/-- Greater magnitudes have more `unitsOfMagnitude`. -/
theorem unitsOfMagnitude_strictMono : StrictMono unitsOfMagnitude := by
  intro m m' hlt
  have hfraction : m % fractionCount < fractionCount := Nat.mod_lt m (by decide)
  have hsplit := Nat.div_add_mod m fractionCount
  have hsplit' := Nat.div_add_mod m' fractionCount
  -- Each of the magnitudes may have an exponent or not.
  obtain hsmall | hlarge := Nat.lt_or_ge m fractionCount
  · rw [unitsOfMagnitude_of_lt hsmall]
    obtain hsmall' | hlarge' := Nat.lt_or_ge m' fractionCount
    · rwa [unitsOfMagnitude_of_lt hsmall']
    · rw [unitsOfMagnitude_of_le hlarge']
      calc m < fractionCount := hsmall
        _ ≤ fractionCount + m' % fractionCount := Nat.le_add_right _ _
        _ ≤ _ := Nat.le_mul_of_pos_right _ (powerOfTwo_pos _)
  · have hlarge' : fractionCount ≤ m' := Nat.le_of_lt (Nat.lt_of_le_of_lt hlarge hlt)
    rw [unitsOfMagnitude_of_le hlarge, unitsOfMagnitude_of_le hlarge']
    have hexponent : 1 ≤ m / fractionCount := (Nat.one_le_div_iff (by decide)).mpr hlarge
    obtain heq | hless := Nat.eq_or_lt_of_le (Nat.div_le_div_right (c := fractionCount) hlt.le)
    · -- With the same exponent the fractions decide.
      rw [heq]
      rw [heq] at hsplit
      exact Nat.mul_lt_mul_of_pos_right (by omega) (powerOfTwo_pos _)
    · -- A smaller exponent stays below the power of two at which the next one starts.
      calc (fractionCount + m % fractionCount) * powerOfTwo (m / fractionCount - 1)
          < 2 * fractionCount * powerOfTwo (m / fractionCount - 1) :=
            Nat.mul_lt_mul_of_pos_right (by omega) (powerOfTwo_pos _)
        _ = fractionCount * powerOfTwo (m / fractionCount - 1 + 1) := by
            rw [powerOfTwo_add]
            show _ = fractionCount * (_ * 2)
            ring
        _ ≤ fractionCount * powerOfTwo (m' / fractionCount - 1) :=
            Nat.mul_le_mul_left _ (powerOfTwo_mono (by omega))
        _ ≤ _ := Nat.mul_le_mul_right _ (Nat.le_add_right _ _)

/-- `nearestMagnitude` rounds a number with 53 bits and a scale to these bits with this scale. -/
private theorem nearestMagnitude_scaled {bits scale : Nat} (hlow : fractionCount ≤ bits)
    (hhigh : bits < 2 * fractionCount) :
    nearestMagnitude (bits * powerOfTwo scale) 1 =
      min (scale * fractionCount + bits) infinityMagnitude := by
  have hlog : (bits * powerOfTwo scale).log2 = 52 + scale := by
    have hpos : 0 < bits * powerOfTwo scale :=
      Nat.mul_pos (Nat.lt_of_lt_of_le (by decide) hlow) (powerOfTwo_pos scale)
    refine (Nat.log2_eq_iff (Nat.ne_of_gt hpos)).mpr ⟨?_, ?_⟩
    · rw [Nat.pow_add]
      exact Nat.mul_le_mul_right _ hlow
    · rw [show 52 + scale + 1 = 53 + scale by omega, Nat.pow_add]
      exact Nat.mul_lt_mul_of_pos_right hhigh (powerOfTwo_pos scale)
  have hscale : scaleOf (bits * powerOfTwo scale) 1 = scale := by
    rw [scaleOf, Nat.div_one, hlog]
    omega
  rw [nearestMagnitude_eq, hscale, Nat.one_mul, roundHalfEven_mul (powerOfTwo_pos scale)]

/-- `nearestMagnitude` rounds the units of a finite magnitude to that magnitude. -/
theorem nearestMagnitude_unitsOfMagnitude {m : Nat} (h : m < infinityMagnitude) :
    nearestMagnitude (unitsOfMagnitude m) 1 = m := by
  obtain hsmall | hlarge := Nat.lt_or_ge m fractionCount
  · -- Below 53 bits there are none to lose.
    have hscale : scaleOf m 1 = 0 := by
      have hlog := log2_mono (Nat.le_sub_one_of_lt hsmall)
      rw [show (fractionCount - 1).log2 = 51 by decide] at hlog
      rw [scaleOf, Nat.div_one]
      omega
    have hround : roundHalfEven m (1 * powerOfTwo 0) = m := by
      have hexact := roundHalfEven_mul (m := m) Nat.one_pos
      rwa [Nat.mul_one] at hexact
    rw [unitsOfMagnitude_of_lt hsmall, nearestMagnitude_eq, hscale, hround]
    omega
  · -- With an exponent the units are 53 bits and a scale already.
    have hsplit := Nat.div_add_mod m fractionCount
    have hfraction : m % fractionCount < fractionCount := Nat.mod_lt m (by decide)
    have hexponent : 1 ≤ m / fractionCount := (Nat.one_le_div_iff (by decide)).mpr hlarge
    have hmagnitude : (m / fractionCount - 1) * fractionCount + (fractionCount + m % fractionCount) = m := by
      rw [Nat.sub_mul, Nat.one_mul]
      have hle := Nat.mul_le_mul_right fractionCount hexponent
      rw [Nat.mul_comm fractionCount] at hsplit
      omega
    rw [unitsOfMagnitude_of_le hlarge, nearestMagnitude_scaled (Nat.le_add_right _ _) (by omega),
      hmagnitude]
    omega

/-! ## Neighbouring magnitudes -/

/-- The units of a magnitude by its 53 bits and its scale. The last magnitude of a scale is also the
    first one of the next, so `bits` may be 2^53. -/
theorem unitsOfMagnitude_scaled {scale bits : Nat} (hscale : scale = 0 ∨ fractionCount ≤ bits)
    (hbits : bits ≤ 2 * fractionCount) :
    unitsOfMagnitude (scale * fractionCount + bits) = bits * powerOfTwo scale := by
  have hpos : 0 < fractionCount := by decide
  obtain hlt | hle := Nat.lt_or_ge bits fractionCount
  · obtain rfl : scale = 0 := by omega
    rw [Nat.zero_mul, Nat.zero_add, unitsOfMagnitude_of_lt hlt]
    exact (Nat.mul_one bits).symm
  · obtain ⟨fraction, rfl⟩ := Nat.exists_eq_add_of_le hle
    rw [unitsOfMagnitude_of_le (by omega), ← Nat.add_assoc, ← Nat.succ_mul]
    -- At 2^53 the magnitude belongs to the next scale, with half the bits.
    obtain hlt | heq := Nat.lt_or_eq_of_le (show fraction ≤ fractionCount by omega)
    · rw [Nat.mul_comm scale.succ, Nat.mul_add_div hpos, Nat.mul_add_mod, Nat.div_eq_of_lt hlt,
        Nat.mod_eq_of_lt hlt]
      rfl
    · rw [heq, ← Nat.succ_mul, Nat.mul_mod_left, Nat.mul_div_cancel _ hpos]
      show (fractionCount + 0) * powerOfTwo (scale + 1) = _
      rw [powerOfTwo_add]
      show _ * (_ * 2) = _
      ring

/-- Every magnitude has its 53 bits and its scale. -/
theorem exists_scaled (m : Nat) :
    ∃ scale bits, m = scale * fractionCount + bits ∧ (scale = 0 ∨ fractionCount ≤ bits) ∧
      bits < 2 * fractionCount := by
  have hfraction : m % fractionCount < fractionCount := Nat.mod_lt m (by decide)
  have hsplit : fractionCount * (m / fractionCount) + m % fractionCount = m := Nat.div_add_mod m fractionCount
  cases hexponent : m / fractionCount with
  | zero =>
    rw [hexponent] at hsplit
    exact ⟨0, m % fractionCount, by omega, .inl rfl, by omega⟩
  | succ scale =>
    rw [hexponent, Nat.mul_succ, Nat.mul_comm] at hsplit
    exact ⟨scale, fractionCount + m % fractionCount, by omega, .inr (Nat.le_add_right _ _), by omega⟩

/-- Neighbouring magnitudes are apart by no less than a part in 2^53. -/
theorem unitsOfMagnitude_succ_le (m : Nat) :
    unitsOfMagnitude (m + 1) ≤ 2 * fractionCount * (unitsOfMagnitude (m + 1) - unitsOfMagnitude m) := by
  obtain ⟨scale, bits, rfl, hscale, hbits⟩ := exists_scaled m
  rw [Nat.add_assoc, unitsOfMagnitude_scaled (by omega) (by omega),
    unitsOfMagnitude_scaled hscale (by omega), Nat.succ_mul, Nat.add_sub_cancel_left, ← Nat.succ_mul]
  exact Nat.mul_le_mul_right _ hbits

/-- `nearestMagnitude` rounds what lies between the middles to the neighbours of a magnitude to it,
    before large values are made infinite. -/
theorem nearestMagnitude_between {n d : Nat} (hd : 0 < d) :
    ∃ m, nearestMagnitude n d = min m infinityMagnitude ∧
      2 * n ≤ d * (unitsOfMagnitude m + unitsOfMagnitude (m + 1)) ∧
      ∀ k, m = k + 1 → d * (unitsOfMagnitude k + unitsOfMagnitude m) ≤ 2 * n := by
  have hupper := le_mul_scaleOf (n := n) hd
  have hlower : 0 < scaleOf n d → fractionCount * (d * powerOfTwo (scaleOf n d)) ≤ n := mul_scaleOf_le
  rw [nearestMagnitude_eq]
  generalize scaleOf n d = scale at hupper hlower ⊢
  have hpos := Nat.mul_pos hd (powerOfTwo_pos scale)
  have hbits := roundHalfEven_le hpos hupper
  have hscale : scale = 0 ∨ fractionCount ≤ roundHalfEven n (d * powerOfTwo scale) := by
    obtain hzero | hscaled := Nat.eq_zero_or_pos scale
    · exact .inl hzero
    · exact .inr (le_roundHalfEven hpos (hlower hscaled))
  -- A number of bits is rounded to what it is not more than half away from.
  have hnotabove := mt (lt_roundHalfEven_iff (a := n) (k := roundHalfEven n (d * powerOfTwo scale)) hpos).mpr
    (Nat.lt_irrefl _)
  have hbelow (k : Nat) := (lt_roundHalfEven_iff (a := n) (k := k) hpos).mp
  generalize roundHalfEven n (d * powerOfTwo scale) = bits at hbits hscale hnotabove hbelow ⊢
  refine ⟨scale * fractionCount + bits, rfl, ?_, fun k hk => ?_⟩
  · -- The neighbour above is one bit more, unless the bits have reached the next scale.
    rw [unitsOfMagnitude_scaled hscale hbits]
    obtain hlt | rfl := Nat.lt_or_eq_of_le hbits
    · rw [Nat.add_assoc, unitsOfMagnitude_scaled (by omega) (by omega)]
      calc 2 * n ≤ (2 * bits + 1) * (d * powerOfTwo scale) := by omega
        _ = d * (bits * powerOfTwo scale + (bits + 1) * powerOfTwo scale) := by ring
    · have hnext := unitsOfMagnitude_strictMono
        (Nat.lt_succ_self (scale * fractionCount + 2 * fractionCount))
      rw [unitsOfMagnitude_scaled hscale (Nat.le_refl _)] at hnext
      calc 2 * n ≤ d * (2 * fractionCount * powerOfTwo scale + 2 * fractionCount * powerOfTwo scale) := by
            rw [← Nat.two_mul, Nat.mul_left_comm d 2, Nat.mul_left_comm d]
            exact Nat.mul_le_mul_left 2 hupper
        _ ≤ _ := Nat.mul_le_mul_left d (Nat.add_le_add_left hnext.le _)
  · rw [unitsOfMagnitude_scaled hscale hbits]
    have hbefore := unitsOfMagnitude_strictMono (show k < scale * fractionCount + bits by omega)
    rw [unitsOfMagnitude_scaled hscale hbits] at hbefore
    -- The neighbour below the first magnitude of a scale is only half as far as the one above.
    by_cases hfirst : 0 < scale ∧ bits = fractionCount
    · obtain ⟨hscaled, rfl⟩ := hfirst
      calc d * (unitsOfMagnitude k + fractionCount * powerOfTwo scale)
          ≤ d * (fractionCount * powerOfTwo scale + fractionCount * powerOfTwo scale) :=
            Nat.mul_le_mul_left d (Nat.add_le_add_right hbefore.le _)
        _ = 2 * (fractionCount * (d * powerOfTwo scale)) := by ring
        _ ≤ 2 * n := Nat.mul_le_mul_left 2 (hlower hscaled)
    · have hone : 0 < bits := by
        obtain rfl | hle := hscale
        · omega
        · exact Nat.lt_of_lt_of_le (by decide) hle
      obtain ⟨before, rfl⟩ : ∃ before, bits = before + 1 := ⟨bits - 1, by omega⟩
      obtain rfl : k = scale * fractionCount + before := by omega
      rw [unitsOfMagnitude_scaled (by omega) (by omega)]
      have hround := hbelow before (Nat.lt_succ_self _)
      calc d * (before * powerOfTwo scale + (before + 1) * powerOfTwo scale)
          = (2 * before + 1) * (d * powerOfTwo scale) := by ring
        _ ≤ 2 * n := by omega

/-- `nearestMagnitude` does not round up what lies below the middle to the next magnitude. -/
theorem nearestMagnitude_le_of_lt {n d m : Nat} (hd : 0 < d)
    (h : 2 * n < d * (unitsOfMagnitude m + unitsOfMagnitude (m + 1))) : nearestMagnitude n d ≤ m := by
  obtain ⟨rounded, hrounded, -, hbelow⟩ := nearestMagnitude_between (n := n) hd
  rw [hrounded]
  refine Nat.le_trans (Nat.min_le_left _ _) (Nat.le_of_not_lt fun hlt => ?_)
  obtain ⟨k, rfl⟩ : ∃ k, rounded = k + 1 := ⟨rounded - 1, by omega⟩
  have hfirst := unitsOfMagnitude_strictMono.monotone (show m ≤ k by omega)
  have hsecond := unitsOfMagnitude_strictMono.monotone (show m + 1 ≤ k + 1 by omega)
  have hmiddle := Nat.mul_le_mul_left d (Nat.add_le_add hfirst hsecond)
  have := hbelow k rfl
  omega

/-- `nearestMagnitude` rounds up what lies above the middle to the next magnitude. -/
theorem lt_nearestMagnitude_of_lt {n d m : Nat} (hd : 0 < d) (hm : m < infinityMagnitude)
    (h : d * (unitsOfMagnitude m + unitsOfMagnitude (m + 1)) < 2 * n) : m < nearestMagnitude n d := by
  obtain ⟨rounded, hrounded, habove, -⟩ := nearestMagnitude_between (n := n) hd
  rw [hrounded]
  refine Nat.lt_min.mpr ⟨Nat.lt_of_not_le fun hle => ?_, hm⟩
  have hfirst := unitsOfMagnitude_strictMono.monotone hle
  have hsecond := unitsOfMagnitude_strictMono.monotone (show rounded + 1 ≤ m + 1 by omega)
  have hmiddle := Nat.mul_le_mul_left d (Nat.add_le_add hfirst hsecond)
  omega

/-- `nearestMagnitude` rounds equal quotients to the same magnitude. -/
theorem nearestMagnitude_congr {n d n' d' : Nat} (hd : 0 < d) (hd' : 0 < d') (h : n * d' = n' * d) :
    nearestMagnitude n d = nearestMagnitude n' d' :=
  Nat.le_antisymm (nearestMagnitude_mono hd hd' h.le) (nearestMagnitude_mono hd' hd h.ge)

end Double

end Georef

import Georef.Proofs.Double.RoundingError

/-!
# Lengths

The Euclidean length of a sequence of numbers, and how far from one it is after the numbers were divided by a length
that was computed with rounding: the sum of squares has an error, its root has one, and every quotient. With n terms
this is about n / 2 + 3 times what one rounding may lose, and what the squares have lost below the least positive
number.

## Key results

- `abs_euclideanLength_sub_le`: sequences that are close have close lengths
- `abs_length_sub_one_le`: how far from one the length is after a division by the computed length
- `lengthTolerance_le`: for a sequence that is not too long this is no more than 10^-12
-/

namespace Georef

open Double

/-! ## Euclidean lengths -/

section Length

variable {n : Nat} {f g : Nat → ℝ}

/-- The Euclidean length of the first terms of a sequence. -/
noncomputable def euclideanLength (n : Nat) (f : Nat → ℝ) : ℝ := √(∑ k ∈ Finset.range n, f k * f k)

/-- `euclideanLength` looks at the first `n` terms only. -/
theorem euclideanLength_congr (h : ∀ k < n, f k = g k) : euclideanLength n f = euclideanLength n g := by
  unfold euclideanLength
  congr 1
  refine Finset.sum_congr rfl fun k hk => ?_
  rw [h k (Finset.mem_range.mp hk)]

/-- `euclideanLength` of a multiple is as many times as long. -/
theorem euclideanLength_mul (n : Nat) (c : ℝ) (f : Nat → ℝ) :
    euclideanLength n (fun k => c * f k) = |c| * euclideanLength n f := by
  unfold euclideanLength
  rw [← Real.sqrt_sq_eq_abs, ← Real.sqrt_mul (sq_nonneg c), Finset.mul_sum]
  exact congrArg Real.sqrt (Finset.sum_congr rfl fun k _ => by ring)

/-- `euclideanLength` divided by a positive number is as many times shorter. -/
theorem euclideanLength_div {c : ℝ} (hc : 0 < c) (f : Nat → ℝ) :
    euclideanLength n (fun k => f k / c) = euclideanLength n f / c := by
  have hfactor (k : Nat) : f k / c = c⁻¹ * f k := div_eq_inv_mul _ _
  simp only [hfactor, euclideanLength_mul, abs_of_pos (inv_pos.mpr hc), div_eq_inv_mul]

/-- Larger terms give a larger `euclideanLength`. -/
theorem euclideanLength_mono (h : ∀ k < n, |f k| ≤ |g k|) : euclideanLength n f ≤ euclideanLength n g := by
  refine Real.sqrt_le_sqrt (Finset.sum_le_sum fun k hk => ?_)
  rw [← abs_mul_abs_self (f k), ← abs_mul_abs_self (g k)]
  have := h k (Finset.mem_range.mp hk)
  gcongr

/-- The triangle inequality for `euclideanLength`. -/
theorem euclideanLength_add_le (n : Nat) (f g : Nat → ℝ) :
    euclideanLength n (fun k => f k + g k) ≤ euclideanLength n f + euclideanLength n g := by
  have hf : 0 ≤ ∑ k ∈ Finset.range n, f k * f k := Finset.sum_nonneg fun k _ => mul_self_nonneg _
  have hg : 0 ≤ ∑ k ∈ Finset.range n, g k * g k := Finset.sum_nonneg fun k _ => mul_self_nonneg _
  -- The product of the lengths bounds the sum of the products.
  have hproduct := Real.sum_mul_le_sqrt_mul_sqrt (Finset.range n) f g
  simp only [sq] at hproduct
  refine Real.sqrt_le_iff.mpr ⟨add_nonneg (Real.sqrt_nonneg _) (Real.sqrt_nonneg _), ?_⟩
  have hexpand : ∑ k ∈ Finset.range n, (f k + g k) * (f k + g k) =
      ∑ k ∈ Finset.range n, f k * f k + ∑ k ∈ Finset.range n, g k * g k +
        2 * ∑ k ∈ Finset.range n, f k * g k := by
    rw [Finset.mul_sum, ← Finset.sum_add_distrib, ← Finset.sum_add_distrib]
    exact Finset.sum_congr rfl fun k _ => by ring
  rw [hexpand, add_sq, euclideanLength, euclideanLength, Real.sq_sqrt hf, Real.sq_sqrt hg]
  linarith

/-- `euclideanLength` of terms that are all the same is no more than their sum. -/
theorem euclideanLength_const_le {c : ℝ} (hc : 0 ≤ c) : euclideanLength n (fun _ => c) ≤ n * c := by
  refine Real.sqrt_le_iff.mpr ⟨by positivity, ?_⟩
  rw [Finset.sum_const, Finset.card_range, nsmul_eq_mul, mul_pow]
  have hcount : (n : ℝ) ≤ n ^ 2 := by exact_mod_cast Nat.le_self_pow two_ne_zero n
  calc (n : ℝ) * (c * c) ≤ n ^ 2 * (c * c) := by gcongr
    _ = n ^ 2 * c ^ 2 := by ring

/-- `euclideanLength` of sequences that are close is close: the triangle inequality is used there
    and back. -/
theorem abs_euclideanLength_sub_le {part rest : ℝ} (hpart : 0 ≤ part) (hrest : 0 ≤ rest)
    (h : ∀ k < n, |f k - g k| ≤ part * |f k| + rest) :
    |euclideanLength n f - euclideanLength n g| ≤ part * euclideanLength n f + n * rest := by
  have hdistance : euclideanLength n (fun k => f k - g k) ≤ part * euclideanLength n f + n * rest := by
    calc euclideanLength n (fun k => f k - g k)
        ≤ euclideanLength n (fun k => part * |f k| + rest) :=
          euclideanLength_mono fun k hk => (h k hk).trans (le_abs_self _)
      _ ≤ euclideanLength n (fun k => part * |f k|) + euclideanLength n (fun _ => rest) :=
          euclideanLength_add_le n _ _
      _ ≤ part * euclideanLength n f + n * rest := by
          refine add_le_add ?_ (euclideanLength_const_le hrest)
          rw [euclideanLength_mul n part, abs_of_nonneg hpart]
          gcongr
          exact euclideanLength_mono fun k _ => (abs_abs _).le
  -- The triangle inequality bounds either length by the other one and the distance.
  have hthere := euclideanLength_add_le n g fun k => f k - g k
  have hback := euclideanLength_add_le n f fun k => -1 * (f k - g k)
  rw [euclideanLength_mul n (-1), abs_neg, abs_one, one_mul] at hback
  simp only [add_sub_cancel] at hthere
  have hterms (k : Nat) : f k + -1 * (f k - g k) = g k := by ring
  simp only [hterms] at hback
  rw [abs_le]
  constructor <;> linarith

end Length

/-! ## How far from one -/

/-- The root of a number that is close to one is about twice as close. -/
private theorem abs_sqrt_sub_one_le {q part : ℝ} (hq : 0 ≤ q) (h : |q - 1| ≤ part) :
    |√q - 1| ≤ part / (1 + √(1 - part)) := by
  have hroot : √(1 - part) ≤ √q := Real.sqrt_le_sqrt (by linarith [(abs_le.mp h).1])
  have hsum : 0 < √q + 1 := by positivity
  have hfactors : |√q - 1| * (√q + 1) = |q - 1| := by
    calc |√q - 1| * (√q + 1) = |(√q - 1) * (√q + 1)| := by rw [abs_mul, abs_of_pos hsum]
      _ = |√q * √q - 1| := by ring_nf
      _ = |q - 1| := by rw [Real.mul_self_sqrt hq]
  rw [le_div_iff₀ (by positivity)]
  calc |√q - 1| * (1 + √(1 - part)) ≤ |√q - 1| * (√q + 1) :=
        mul_le_mul_of_nonneg_left (by linarith) (abs_nonneg _)
    _ ≤ part := hfactors.le.trans h

/-- What rounding may add to the length of a divided column or take from it, for so many rows and so large a computed
sum of squares: the error of the sum, halved by the root, two roundings of the root and one of the quotients. -/
noncomputable def lengthTolerance (rows : Nat) (total : ℝ) : ℝ :=
  let part := (rows + 1) * roundoff + rows * (roundoff * roundoff) + rows * leastUnit / (total + total)
  ((1 + part / (1 + √(1 - part))) * ((1 + roundoff) * (1 + roundoff)) + rows * leastUnit) / (1 - roundoff) - 1

section Factors

variable {a b loss part : ℝ}

/-- What is close to `b`, measured by `b`, is close to one after a division by `b`. -/
private theorem abs_div_sub_one_le (hb : 0 < b) (h : |a - b| ≤ part * b) : |a / b - 1| ≤ part := by
  rwa [div_sub_one hb.ne', abs_div, abs_of_pos hb, div_le_iff₀ hb]

/-- Two numbers that are close to one have a product that is. -/
private theorem abs_mul_sub_one_le (ha : |a - 1| ≤ loss) (hb : |b - 1| ≤ part) :
    |a * b - 1| ≤ (1 + loss) * (1 + part) - 1 := by
  have hsplit : a * b - 1 = (a - 1) * (b - 1) + (a - 1) + (b - 1) := by ring
  have hproduct : |(a - 1) * (b - 1)| ≤ loss * part := by
    rw [abs_mul]
    exact mul_le_mul ha hb (abs_nonneg _) ((abs_nonneg _).trans ha)
  rw [hsplit]
  calc |(a - 1) * (b - 1) + (a - 1) + (b - 1)| ≤ |(a - 1) * (b - 1)| + |a - 1| + |b - 1| := abs_add_three _ _ _
    _ ≤ loss * part + loss + part := by linarith
    _ = (1 + loss) * (1 + part) - 1 := by ring

/-- What rounding does to a length, of which it loses a part, that was close to one before. -/
private theorem abs_sub_one_le_of_rounded {length rounded growth rest : ℝ} (h : |length - 1| ≤ growth - 1)
    (hrounded : |rounded - length| ≤ roundoff * rounded + rest) :
    |rounded - 1| ≤ (growth + rest) / (1 - roundoff) - 1 := by
  have hround := roundoff_pos
  have hround' := roundoff_le
  obtain ⟨hlow, hhigh⟩ := abs_le.mp h
  obtain ⟨hlow', hhigh'⟩ := abs_le.mp hrounded
  rw [le_sub_iff_add_le, le_div_iff₀ (by linarith)]
  -- The part that is lost is one of the rounded length, so it matters more above one.
  obtain habove | hbelow := le_total 1 rounded
  · rw [abs_of_nonneg (by linarith)]
    linarith
  · rw [abs_of_nonpos (by linarith)]
    nlinarith

end Factors

/-- How far from one the length of a divided column is, from the errors of the sum of squares, of
    its root and of the quotients. -/
theorem abs_length_sub_one_le {rows : Nat} {total exact root length : ℝ} (htotal : 0 < total)
    (hexact : 0 ≤ exact) (hroot : 0 < root)
    (hsum : |total - exact| ≤ ((rows + 1) * roundoff + rows * roundoff ^ 2) * total + rows * (leastUnit / 2))
    (hsqrt : |√total - root| ≤ 2 * roundoff * root)
    (hdiv : |length - √exact / root| ≤ roundoff * length + rows * (leastUnit / 2)) :
    |length - 1| ≤ lengthTolerance rows total := by
  unfold lengthTolerance
  extract_lets part
  have hratio : |exact / total - 1| ≤ part := by
    refine abs_div_sub_one_le htotal ?_
    rw [abs_sub_comm]
    calc |total - exact| ≤ _ := hsum
      _ = part * total := by
        simp only [part]
        field_simp
        ring
  have hfactor : |√total / root - 1| ≤ (1 + roundoff) * (1 + roundoff) - 1 := by
    refine abs_div_sub_one_le hroot (hsqrt.trans ?_)
    gcongr
    nlinarith
  have hproduct := abs_mul_sub_one_le (abs_sqrt_sub_one_le (by positivity) hratio) hfactor
  -- The two roots of the computed sum cancel.
  have hquotient : √(exact / total) * (√total / root) = √exact / root := by
    have hpos := (Real.sqrt_pos.mpr htotal).ne'
    rw [Real.sqrt_div hexact]
    field_simp
  rw [hquotient, add_sub_cancel] at hproduct
  have hrest : rows * (leastUnit / 2) ≤ rows * leastUnit :=
    mul_le_mul_of_nonneg_left (by linarith [leastUnit_pos]) (Nat.cast_nonneg _)
  exact abs_sub_one_le_of_rounded hproduct (hdiv.trans (by linarith))

/-- For a column that is not too long, and whose sum of squares is not too small, `lengthTolerance`
    is no more than 10^-12. -/
theorem lengthTolerance_le {rows : Nat} {total : ℝ} (hrows : rows ≤ 18000)
    (htotal : powerOfTwo (52 + 24) * leastUnit ≤ total) : lengthTolerance rows total ≤ 1e-12 := by
  have hunit := leastUnit_pos
  have hpower : (powerOfTwo (52 + 24) : ℝ) = 75557863725914323419136 := by
    exact_mod_cast show powerOfTwo (52 + 24) = 75557863725914323419136 from rfl
  have hrows' : (rows : ℝ) ≤ 18000 := by exact_mod_cast hrows
  have htiny := leastUnit_le_roundoff_mul
  rw [hpower] at htotal
  rw [roundoff_eq] at htiny
  have hunits : rows * leastUnit ≤ 1 / 9007199254740992 := by nlinarith
  -- Squares that were rounded to a multiple of the unit have lost next to nothing of such a sum.
  have hlost : rows * leastUnit / (total + total) ≤ 1 / 9007199254740992 := by
    rw [div_le_iff₀ (by linarith)]
    nlinarith
  unfold lengthTolerance
  extract_lets part
  have hpart : part ≤ 18003 / 9007199254740992 := by
    simp only [part, roundoff_eq]
    linarith
  have hpart' : 0 ≤ part := by
    have : 0 < total := by linarith
    simp only [part, roundoff_eq]
    positivity
  have hroot : 1 - part ≤ √(1 - part) := Real.le_sqrt_of_sq_le (by nlinarith)
  have hloss : part / (1 + √(1 - part)) ≤ 9002 / 9007199254740992 := by
    rw [div_le_iff₀ (by linarith)]
    nlinarith
  rw [roundoff_eq, sub_le_iff_le_add, div_le_iff₀ (by norm_num)]
  norm_num
  linarith

end Georef

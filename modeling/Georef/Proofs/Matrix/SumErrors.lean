import Georef.Proofs.Double.Nonneg
import Georef.Proofs.Matrix.Entries
import Mathlib.Algebra.BigOperators.Group.Finset.Basic
import Mathlib.Algebra.Order.BigOperators.Group.Finset

/-!
# Sums of squares and what rounding does to them

The terms of a sum are added one after the other, each sum rounded. If no term has a minus sign the sums only grow,
so a sum that is finite at the end was finite all the way, and it is a zero only if all terms are. Each addition
loses no more than the part `roundoff` of what the sum is then, which is no more than the same part of the last sum.

## Key results

- `Matrix.nonneg_sumRange`, `Matrix.sumRange_terms`: sums of terms without minus sign, and what they tell about these
- `Matrix.abs_toReal_sumRange_sub_le`: the error of a sum
- `Matrix.abs_toReal_sumSquares_sub_le`: the error of a sum of squares
- `Matrix.sumRange_finite`: sums of terms that are not too large are finite
-/

namespace Georef

open Double

namespace Matrix

variable {n : Nat} {f : Nat → Double}

/-- `sumRange` of terms without minus sign has none. -/
theorem nonneg_sumRange (hf : ∀ k < n, (f k).Nonneg) : (sumRange n f).Nonneg := by
  induction n with
  | zero => exact nonneg_zero
  | succ n ih =>
    rw [sumRange_succ]
    exact (ih fun k hk => hf k (by omega)).add (hf n (by omega))

/-- In a finite `sumRange` all terms are finite, and none is larger than the sum. -/
theorem sumRange_terms (hf : ∀ k < n, (f k).Nonneg) (h : (sumRange n f).Finite) :
    ∀ k < n, (f k).Finite ∧ (f k).toReal ≤ (sumRange n f).toReal := by
  induction n with
  | zero => exact fun k hk => absurd hk (Nat.not_lt_zero k)
  | succ n ih =>
    intro k hk
    have hbefore : (sumRange n f).Nonneg := nonneg_sumRange fun k hk => hf k (by omega)
    have hlast := hf n (by omega)
    rw [sumRange_succ] at h ⊢
    obtain ⟨hfinite, hfinite'⟩ := hbefore.finite_of_add hlast h
    obtain ⟨hle, hle'⟩ := hbefore.toReal_le_add hlast h
    -- The term is in the sum before the last one, or it is the last one.
    obtain hlt | rfl := Nat.lt_succ_iff_lt_or_eq.mp hk
    · obtain ⟨hterm, hterm'⟩ := ih (fun k hk => hf k (by omega)) hfinite k hlt
      exact ⟨hterm, hterm'.trans hle⟩
    · exact ⟨hfinite', hle'⟩

/-- `sumRange` of terms without minus sign is a zero exactly if all terms are. -/
theorem magnitude_sumRange_eq_zero_iff (hf : ∀ k < n, (f k).Nonneg) :
    (sumRange n f).magnitude = 0 ↔ ∀ k < n, (f k).magnitude = 0 := by
  induction n with
  | zero => simp [show (0 : Double).magnitude = 0 from rfl]
  | succ n ih =>
    have hbefore : (sumRange n f).Nonneg := nonneg_sumRange fun k hk => hf k (by omega)
    rw [sumRange_succ, hbefore.magnitude_add_eq_zero_iff (hf n (by omega)), ih fun k hk => hf k (by omega)]
    simp only [Nat.forall_lt_succ_right]

/-- The error of a sum of `n` terms without minus sign: a part `roundoff` of the sum for each of
    them. -/
theorem abs_toReal_sumRange_sub_le (hf : ∀ k < n, (f k).Nonneg) (h : (sumRange n f).Finite) :
    |(sumRange n f).toReal - ∑ k ∈ Finset.range n, (f k).toReal| ≤ n * roundoff * (sumRange n f).toReal := by
  have hround := roundoff_pos
  induction n with
  | zero => simp
  | succ n ih =>
    have hbefore : (sumRange n f).Nonneg := nonneg_sumRange fun k hk => hf k (by omega)
    have hlast := hf n (by omega)
    have hsum : (sumRange n f + f n).Nonneg := hbefore.add hlast
    rw [sumRange_succ] at h ⊢
    obtain ⟨hfinite, hfinite'⟩ := hbefore.finite_of_add hlast h
    obtain ⟨hle, -⟩ := hbefore.toReal_le_add hlast h
    have herror := ih (fun k hk => hf k (by omega)) hfinite
    have hstep := abs_toReal_add_sub_le hfinite hfinite' h
    rw [abs_of_nonneg hsum.toReal_nonneg] at hstep
    rw [Finset.sum_range_succ]
    generalize (sumRange n f + f n).toReal = total at *
    generalize (sumRange n f).toReal = before at *
    -- What was lost before is a part of a smaller sum.
    have hgrow : n * roundoff * before ≤ n * roundoff * total := by gcongr
    calc |total - (∑ k ∈ Finset.range n, (f k).toReal + (f n).toReal)|
        ≤ |total - (before + (f n).toReal)| + |before - ∑ k ∈ Finset.range n, (f k).toReal| := by
          rw [show total - (∑ k ∈ Finset.range n, (f k).toReal + (f n).toReal) = (total - (before + (f n).toReal)) +
            (before - ∑ k ∈ Finset.range n, (f k).toReal) by ring]
          exact abs_add_le _ _
      _ ≤ roundoff * total + n * roundoff * total := add_le_add hstep (herror.trans hgrow)
      _ = (n + 1 : Nat) * roundoff * total := by
          push_cast
          ring

/-- `sumRange` of terms that are not too large is finite, and no more than twice what it would be
    exactly. -/
theorem sumRange_finite {e : Nat} {bound : ℝ} (hf : ∀ k < n, (f k).Nonneg)
    (hterm : ∀ k < n, (f k).Finite ∧ (f k).toReal ≤ bound) (hbound : 0 ≤ bound)
    (hcount : 2 * (n + 1) * roundoff ≤ 1) (hlarge : 2 * (n + 1) * bound ≤ powerOfTwo (52 + e) * leastUnit)
    (he : (e + 1) * fractionCount < infinityMagnitude) :
    (sumRange n f).Finite ∧ (sumRange n f).toReal ≤ 2 * n * bound := by
  have hround := roundoff_pos
  induction n with
  | zero => simpa using finite_zero
  | succ n ih =>
    push_cast at hcount hlarge
    have hbefore : (sumRange n f).Nonneg := nonneg_sumRange fun k hk => hf k (by omega)
    have hlast := hf n (by omega)
    obtain ⟨hfinite', hle'⟩ := hterm n (by omega)
    obtain ⟨hfinite, hle⟩ := ih (fun k hk => hf k (by omega)) (fun k hk => hterm k (by omega)) (by linarith)
      (by linarith)
    rw [sumRange_succ]
    have hsum : (sumRange n f + f n).Finite :=
      hbefore.finite_add hlast hfinite hfinite' (by linarith) he
    refine ⟨hsum, ?_⟩
    have hstep := abs_toReal_add_sub_le hfinite hfinite' hsum
    rw [abs_of_nonneg (hbefore.add hlast).toReal_nonneg] at hstep
    have hpart := (abs_le.mp hstep).2
    generalize (sumRange n f + f n).toReal = total at hpart ⊢
    -- The rounded sum is more than the exact one by a small part, for which the factor two leaves room.
    push_cast
    have hroom : (2 * (n : ℝ) + 1) * bound ≤ (1 - roundoff) * (2 * (n + 1) * bound) := by nlinarith
    have hlt : 0 < 1 - roundoff := by nlinarith
    have hscaled : (1 - roundoff) * total ≤ (1 - roundoff) * (2 * (n + 1) * bound) := by linarith
    exact le_of_mul_le_mul_left hscaled hlt

/-! ## Squares -/

variable {x : Nat → Double}

/-- The error of a sum of squares, for any number of them. -/
theorem abs_toReal_sumSquares_sub_le (hx : ∀ k < n, (x k).Finite)
    (h : (sumRange n fun k => x k * x k).Finite) :
    |(sumRange n fun k => x k * x k).toReal - ∑ k ∈ Finset.range n, (x k).toReal ^ 2| ≤
      ((n + 1) * roundoff + n * roundoff ^ 2) * (sumRange n fun k => x k * x k).toReal + n * (leastUnit / 2) := by
  have hround := roundoff_pos
  have hsquare (k : Nat) (hk : k < n) : (x k * x k).Nonneg := nonneg_mul_self (hx k hk)
  have hsum := abs_toReal_sumRange_sub_le hsquare h
  -- What the squares lose, before they are added.
  have hterms : |∑ k ∈ Finset.range n, (x k * x k).toReal - ∑ k ∈ Finset.range n, (x k).toReal ^ 2| ≤
      roundoff * ∑ k ∈ Finset.range n, (x k * x k).toReal + n * (leastUnit / 2) := by
    rw [← Finset.sum_sub_distrib]
    calc |∑ k ∈ Finset.range n, ((x k * x k).toReal - (x k).toReal ^ 2)|
        ≤ ∑ k ∈ Finset.range n, |(x k * x k).toReal - (x k).toReal ^ 2| := Finset.abs_sum_le_sum_abs _ _
      _ ≤ ∑ k ∈ Finset.range n, (roundoff * (x k * x k).toReal + leastUnit / 2) := by
          refine Finset.sum_le_sum fun k hk => ?_
          have hk := Finset.mem_range.mp hk
          have herror := abs_toReal_mul_sub_le (hx k hk) (hx k hk) (sumRange_terms hsquare h k hk).1
          rwa [abs_of_nonneg (hsquare k hk).toReal_nonneg, ← sq] at herror
      _ = _ := by rw [Finset.sum_add_distrib, ← Finset.mul_sum, Finset.sum_const, Finset.card_range, nsmul_eq_mul]
  generalize (sumRange n fun k => x k * x k).toReal = total at hsum ⊢
  generalize ∑ k ∈ Finset.range n, (x k * x k).toReal = squares at hsum hterms
  have hsquares : squares ≤ total + n * roundoff * total := by
    have := (abs_le.mp hsum).1
    linarith
  calc |total - ∑ k ∈ Finset.range n, (x k).toReal ^ 2|
      ≤ |total - squares| + |squares - ∑ k ∈ Finset.range n, (x k).toReal ^ 2| := abs_sub_le _ _ _
    _ ≤ n * roundoff * total + (roundoff * (total + n * roundoff * total) + n * (leastUnit / 2)) := by
        refine add_le_add hsum (hterms.trans ?_)
        gcongr
    _ = _ := by ring

end Matrix

end Georef

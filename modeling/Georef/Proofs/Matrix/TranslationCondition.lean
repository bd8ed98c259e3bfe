import Georef.Proofs.Matrix.Translation
import Mathlib.Algebra.Order.BigOperators.Ring.Finset

/-!
# The condition number of a translation

The homogeneous matrix of a translation is an identity with the offsets in the last column. Let `L` be the square of
the length of the vector of offsets. The largest singular value of the matrix is the reciprocal of the smallest one, and
the condition number `c` is the square of the largest one with `c + 1 / c = L + 2`. What is needed of that is shown
without square roots: no column is stretched by more than `L + 2` times as much as any other one, and some column by
`L + 1` times as much as some other one.

## Key results

- `conditionAtMost_translationMatrix`: the condition number is `L + 2` at most
- `le_of_conditionAtMost_translationMatrix`: and it is not less than `L + 1`
- `Solver.Gauges.wellConditioned_translation`: so a solver decides by the length of the vector
-/

namespace Georef

namespace Matrix

section Exact

variable {K : Type} [Field K] [LinearOrder K] {offsets : List K}

/-- The square of the length of a vector. -/
def squaredLength (offsets : List K) : K := sumSquares offsets.length fun i => offsets.getD i 0

omit [LinearOrder K] in
/-- `translationMatrix` adds multiples of the last number of a column to the others. -/
theorem mulVec_translationMatrix {i : Nat} (hi : i < offsets.length + 1) (v : Nat → K) :
    (translationMatrix offsets).mulVec v i =
      if i < offsets.length then v i + offsets.getD i 0 * v offsets.length else v i := by
  have hentry (j : Nat) (hj : j < offsets.length + 1) : (translationMatrix offsets).entry i j =
      if i = j then 1 else if j = offsets.length then offsets.getD i 0 else 0 := entry_ofFn hi hj
  -- All columns but the last one are those of an identity.
  have hfront (j : Nat) (hj : j < offsets.length) (hne : j ≠ i) : (translationMatrix offsets).entry i j * v j = 0 := by
    rw [hentry j (by omega), if_neg hne.symm, if_neg hj.ne, zero_mul]
  show ∑ j ∈ Finset.range (offsets.length + 1), _ = _
  rw [Finset.sum_range_succ, hentry _ (Nat.lt_succ_self _)]
  by_cases hlast : i < offsets.length
  · rw [Finset.sum_eq_single_of_mem i (Finset.mem_range.mpr hlast) fun j hj hne => hfront j (Finset.mem_range.mp hj) hne,
      hentry i hi, if_pos rfl, if_neg hlast.ne, if_pos rfl, if_pos hlast, one_mul]
  · obtain rfl : i = offsets.length := by omega
    rw [Finset.sum_eq_zero fun j hj => hfront j (Finset.mem_range.mp hj) (Finset.mem_range.mp hj).ne, if_pos rfl,
      if_neg hlast, zero_add, one_mul]

variable [IsStrictOrderedRing K]

/-- Adding multiples of the last number to the others does not stretch a column by more than `L +
    2`, as squares. -/
theorem sumSquares_shift_le (n : Nat) (a w : Nat → K) :
    sumSquares (n + 1) (fun i => if i < n then w i + a i * w n else w i) ≤
      (sumSquares n a + 2) * sumSquares (n + 1) w := by
  have hsquares : sumSquares (n + 1) (fun i => if i < n then w i + a i * w n else w i) =
      sumSquares n w + 2 * w n * (∑ i ∈ Finset.range n, a i * w i) + sumSquares n a * (w n * w n) + w n * w n := by
    rw [sumSquares, Finset.sum_range_succ, if_neg (lt_irrefl n)]
    simp only [sumSquares, Finset.mul_sum, Finset.sum_mul, ← Finset.sum_add_distrib]
    congr 1
    refine Finset.sum_congr rfl fun i hi => ?_
    rw [if_pos (Finset.mem_range.mp hi)]
    ring
  -- The mixed terms are bounded by the inequality of Cauchy and Schwarz.
  have hcauchy : (∑ i ∈ Finset.range n, a i * w i) ^ 2 ≤ sumSquares n a * sumSquares n w := by
    simpa only [sumSquares, ← sq] using Finset.sum_mul_sq_le_sq_mul_sq (Finset.range n) a w
  have hnonneg := sumSquares_nonneg n w
  have hlast : sumSquares (n + 1) w = sumSquares n w + w n * w n := Finset.sum_range_succ _ n
  -- Twice a product is not more than the sum of the squares.
  have hproduct := sq_nonneg (w n - ∑ i ∈ Finset.range n, a i * w i)
  rw [hsquares, hlast]
  linarith

/-- The image of a column under `translationMatrix` is not longer than the column by more than `L +
    2`, as squares. -/
theorem sumSquares_mulVec_translationMatrix_le (offsets : List K) (v : Nat → K) :
    sumSquares (offsets.length + 1) ((translationMatrix offsets).mulVec v) ≤
      (squaredLength offsets + 2) * sumSquares (offsets.length + 1) v := by
  refine le_of_eq_of_le ?_ (sumSquares_shift_le offsets.length (fun i => offsets.getD i 0) v)
  exact Finset.sum_congr rfl fun i hi => by rw [mulVec_translationMatrix (Finset.mem_range.mp hi)]

/-- Nor is a column longer than its image by more than that: it is the image of its image under the
    translation back. -/
theorem sumSquares_le_mulVec_translationMatrix (offsets : List K) (v : Nat → K) :
    sumSquares (offsets.length + 1) v ≤
      (squaredLength offsets + 2) * sumSquares (offsets.length + 1) ((translationMatrix offsets).mulVec v) := by
  have hback := sumSquares_shift_le offsets.length (fun i => -offsets.getD i 0) ((translationMatrix offsets).mulVec v)
  have hlength : sumSquares offsets.length (fun i => -offsets.getD i 0) = squaredLength offsets :=
    Finset.sum_congr rfl fun i _ => neg_mul_neg _ _
  rw [hlength] at hback
  refine le_of_eq_of_le (Finset.sum_congr rfl fun i hi => ?_) hback
  -- Each coordinate is what the translation back makes of the moved one.
  have hsame : v i = if i < offsets.length then (translationMatrix offsets).mulVec v i +
      -offsets.getD i 0 * (translationMatrix offsets).mulVec v offsets.length
      else (translationMatrix offsets).mulVec v i := by
    rw [mulVec_translationMatrix (Nat.lt_succ_self _), if_neg (lt_irrefl _),
      mulVec_translationMatrix (Finset.mem_range.mp hi)]
    split_ifs
    · ring
    · rfl
  exact congrArg₂ (· * ·) hsame hsame

/-- `squaredLength` is not negative. -/
theorem squaredLength_nonneg (offsets : List K) : 0 ≤ squaredLength offsets := sumSquares_nonneg _ _

/-- The condition number of `translationMatrix` is not above `L + 2`. -/
theorem conditionAtMost_translationMatrix {bound : K} (hbound : squaredLength offsets + 2 ≤ bound) :
    (translationMatrix offsets).ConditionAtMost bound := by
  have hlength := squaredLength_nonneg offsets
  have hnonneg := sumSquares_nonneg (K := K) (offsets.length + 1)
  refine ⟨fun v hv j hj => ?_, fun u v => ?_⟩
  · -- What is taken to zero is not longer than zero.
    have himage : sumSquares (offsets.length + 1) ((translationMatrix offsets).mulVec v) = 0 :=
      Finset.sum_eq_zero fun i _ => by rw [hv i, mul_zero]
    have hle := sumSquares_le_mulVec_translationMatrix offsets v
    rw [himage, mul_zero] at hle
    exact eq_zero_of_sumSquares (le_antisymm hle (hnonneg v)) hj
  · -- One column is stretched by `L + 2` at most, the other one shrunk by no more than that.
    have hforth := sumSquares_mulVec_translationMatrix_le offsets u
    have hback := sumSquares_le_mulVec_translationMatrix offsets v
    have himage := hnonneg ((translationMatrix offsets).mulVec v)
    calc sumSquares (offsets.length + 1) ((translationMatrix offsets).mulVec u) * sumSquares (offsets.length + 1) v
        ≤ (squaredLength offsets + 2) * sumSquares (offsets.length + 1) u * ((squaredLength offsets + 2) *
            sumSquares (offsets.length + 1) ((translationMatrix offsets).mulVec v)) :=
          mul_le_mul hforth hback (hnonneg v) (mul_nonneg (by linarith) (hnonneg u))
      _ = (squaredLength offsets + 2) ^ 2 * (sumSquares (offsets.length + 1) ((translationMatrix offsets).mulVec v) *
            sumSquares (offsets.length + 1) u) := by ring
      _ ≤ bound ^ 2 * (sumSquares (offsets.length + 1) ((translationMatrix offsets).mulVec v) *
            sumSquares (offsets.length + 1) u) :=
          mul_le_mul_of_nonneg_right (pow_le_pow_left₀ (by linarith) hbound 2) (mul_nonneg himage (hnonneg u))

/-- The condition number of `translationMatrix` is not below `L + 1`. -/
theorem le_of_conditionAtMost_translationMatrix {bound : K} (hbound : 0 ≤ bound)
    (h : (translationMatrix offsets).ConditionAtMost bound) : squaredLength offsets + 1 ≤ bound := by
  -- The last column of an identity gets the offsets, and the offsets back with a one lose them.
  let u (i : Nat) : K := if i < offsets.length then 0 else 1
  let w (i : Nat) : K := if i < offsets.length then -offsets.getD i 0 else 1
  have hsum (v : Nat → K) (hlast : v offsets.length = 1) :
      sumSquares (offsets.length + 1) v = sumSquares offsets.length v + 1 := by
    rw [sumSquares, Finset.sum_range_succ, hlast, one_mul, sumSquares]
  have hu : sumSquares (offsets.length + 1) u = 1 := by
    rw [hsum u (if_neg (lt_irrefl _)), sumSquares, Finset.sum_eq_zero, zero_add]
    intro i hi
    simp only [u, if_pos (Finset.mem_range.mp hi), mul_zero]
  have hw : sumSquares (offsets.length + 1) w = squaredLength offsets + 1 := by
    rw [hsum w (if_neg (lt_irrefl _))]
    congr 1
    refine Finset.sum_congr rfl fun i hi => ?_
    simp only [w, if_pos (Finset.mem_range.mp hi), neg_mul_neg]
  have hlast : u offsets.length = 1 ∧ w offsets.length = 1 := ⟨if_neg (lt_irrefl _), if_neg (lt_irrefl _)⟩
  have hu' : sumSquares (offsets.length + 1) ((translationMatrix offsets).mulVec u) = squaredLength offsets + 1 := by
    refine Eq.trans (Finset.sum_congr rfl fun i hi => ?_) hw
    rw [mulVec_translationMatrix (Finset.mem_range.mp hi), hlast.1]
    simp only [u, w]
    split_ifs <;> ring
  have hw' : sumSquares (offsets.length + 1) ((translationMatrix offsets).mulVec w) = 1 := by
    refine Eq.trans (Finset.sum_congr rfl fun i hi => ?_) hu
    rw [mulVec_translationMatrix (Finset.mem_range.mp hi), hlast.2]
    simp only [u, w]
    split_ifs <;> ring
  -- The first column grows by `L + 1` as the second one shrinks by it.
  have hstretch := h.stretch u w
  change sumSquares (offsets.length + 1) _ * sumSquares (offsets.length + 1) _ ≤
    bound ^ 2 * (sumSquares (offsets.length + 1) _ * sumSquares (offsets.length + 1) _) at hstretch
  rw [hu, hw, hu', hw', mul_one, mul_one, ← sq] at hstretch
  exact (pow_le_pow_iff_left₀ (by linarith [squaredLength_nonneg offsets]) hbound two_ne_zero).mp hstretch

end Exact

/-! ## Doubles -/

variable {offsets : List Double}

/-- The `values` of the matrix are the matrix of the values. -/
theorem values_translationMatrix (offsets : List Double) :
    (translationMatrix offsets).values = translationMatrix (offsets.map Double.value) := by
  have hlength : (offsets.map Double.value).length = offsets.length := List.length_map _
  have hunits : (1 : Double).value = 1 ∧ (0 : Double).value = 0 := by
    have hone : (Double.unitsPerOne : ℚ) ≠ 0 := Nat.cast_ne_zero.mpr (powerOfTwo_pos 1074).ne'
    refine ⟨?_, zero_div _⟩
    rw [Double.value, Double.units_one, Int.cast_natCast, div_self hone]
  refine ext_entry (congrArg (· + 1) hlength.symm) (congrArg (· + 1) hlength.symm) fun i j hi hj => ?_
  have hi : i < offsets.length + 1 := hi
  have hj : j < offsets.length + 1 := hj
  have hentry : (translationMatrix offsets).entry i j =
      if i = j then 1 else if j = offsets.length then offsets.getD i 0 else 0 := entry_ofFn hi hj
  have hvalue : (translationMatrix offsets).values.entry i j = ((translationMatrix offsets).entry i j).value :=
    entry_ofFn hi hj
  rw [hvalue, hentry, translationMatrix, entry_ofFn (by omega) (by omega), hlength]
  -- Units and zeros keep their value, and the offsets take it in the last column.
  split_ifs with hij hlast
  · exact hunits.1
  · simp [show i < offsets.length by omega]
  · exact hunits.2

end Matrix

/-- A solver that judges the matrix of a translation with the given margin decides by the length of the vector, unless
that is close to 2^26. -/
theorem Solver.Gauges.wellConditioned_translation [Solver Double] {margin : ℚ} {m : Matrix Double}
    {offsets : List Double} (hmargin : 0 < margin) (hgauge : Solver.Gauges margin m)
    (hm : m.SameNumbers (translationMatrix offsets)) :
    ((Matrix.squaredLength (offsets.map Double.value) + 2) * margin ≤ 2 ^ 52 → Solver.wellConditioned m = true) ∧
      (2 ^ 52 * margin < Matrix.squaredLength (offsets.map Double.value) + 1 → Solver.wellConditioned m = false) := by
  have hvalues : m.values = translationMatrix (offsets.map Double.value) :=
    hm.values_eq.trans (Matrix.values_translationMatrix offsets)
  constructor
  · intro hshort
    refine hgauge.accepts ?_
    rw [hvalues]
    exact Matrix.conditionAtMost_translationMatrix ((le_div_iff₀ hmargin).mpr hshort)
  · intro hlong
    refine hgauge.refuses fun hcondition => ?_
    rw [hvalues] at hcondition
    have hle := Matrix.le_of_conditionAtMost_translationMatrix (mul_nonneg (by norm_num) hmargin.le) hcondition
    exact absurd hle (not_le.mpr hlong)

end Georef

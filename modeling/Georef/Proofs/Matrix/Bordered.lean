import Georef.Proofs.Matrix.ConditionNumber
import Mathlib.Algebra.BigOperators.Ring.Finset
import Mathlib.Tactic.Ring

/-!
# Positive definiteness of bordered matrices

A bordered matrix has the same number all along its diagonal, a border in its last row and column, a number of
its own in the corner, and zeros elsewhere. Elimination keeps that form: the pivot multiplies what is left, and
the corner loses the square of the first number of the border. So the test for positive definiteness comes down
to one comparison.

## Key results

- `positiveDefinite_bordered_iff`: the squares of the border add up to less than the diagonal times the corner
- `reducedEntry_bordered`: elimination leaves a bordered matrix
-/

namespace Georef

namespace Conditioning

/-- The entries of a matrix with `n` times `d` on the diagonal, the border `b` behind and below it,
    and `e` in the corner. -/
def bordered (n : Nat) (d : Int) (b : Nat → Int) (e : Int) (i j : Nat) : Int :=
  if i < n then if j < n then diagonal (fun _ => d) i j else b i
  else if j < n then b j else e

/-- The first entry of a `bordered` matrix is on the diagonal. -/
theorem bordered_zero (n : Nat) (d : Int) (b : Nat → Int) (e : Int) : bordered (n + 1) d b e 0 0 = d := by
  rw [bordered, if_pos (Nat.succ_pos n), if_pos (Nat.succ_pos n), diagonal_self]

/-- The last column of a `bordered` matrix is the border. -/
theorem bordered_last {n i : Nat} (hi : i < n) (d : Int) (b : Nat → Int) (e : Int) : bordered n d b e i n = b i := by
  rw [bordered, if_pos hi, if_neg (lt_irrefl n)]

/-- The last entry of a `bordered` matrix is the corner. -/
theorem bordered_corner (n : Nat) (d : Int) (b : Nat → Int) (e : Int) : bordered n d b e n n = e := by
  rw [bordered, if_neg (lt_irrefl n), if_neg (lt_irrefl n)]

/-- A `bordered` matrix is symmetric. -/
theorem bordered_comm (n : Nat) (d : Int) (b : Nat → Int) (e : Int) (i j : Nat) :
    bordered n d b e i j = bordered n d b e j i := by
  unfold bordered
  rw [diagonal_comm]
  split_ifs <;> rfl

/-- What a step of `positiveDefinite` leaves of a bordered matrix is bordered again. -/
theorem reducedEntry_bordered (n : Nat) (d : Int) (b : Nat → Int) (e : Int) (g i j : Nat) :
    reducedEntry (bordered (n + 1) d b e) g i j =
      bordered n (d / g * (d / g)) (fun i => d / g * (b (i + 1) / g)) (d / g * (e / g) - b 0 / g * (b 0 / g))
        i j := by
  by_cases hi : i < n <;> by_cases hj : j < n
  · by_cases hij : i = j <;> simp [reducedEntry, bordered, diagonal, hi, hj, hij]
  · simp [reducedEntry, bordered, diagonal, hi, hj]
  · simp [reducedEntry, bordered, diagonal, hi, hj]
  · simp [reducedEntry, bordered, diagonal, hi, hj]

/-- The comparison of `positiveDefinite_bordered_iff` for numbers with the common factor `g` is the
    one for what a step leaves of them. -/
theorem sum_squares_lt_iff {n : Nat} {g d e : Int} {b : Nat → Int} (hg : 0 < g) (hd : 0 < d)
    (hb : ∀ i, i < n + 1 → g ∣ b i) :
    ∑ i ∈ Finset.range (n + 1), b i * b i < g * d * (g * e) ↔
      ∑ i ∈ Finset.range n, d * (b (i + 1) / g) * (d * (b (i + 1) / g)) <
        d * d * (d * e - b 0 / g * (b 0 / g)) := by
  -- The first square of the border has become a part of the corner.
  have hborder : ∑ i ∈ Finset.range (n + 1), b i * b i =
      g * g * (b 0 / g * (b 0 / g) + ∑ i ∈ Finset.range n, b (i + 1) / g * (b (i + 1) / g)) := by
    rw [← Finset.sum_range_succ' (fun i => b i / g * (b i / g)) n |>.trans (add_comm _ _), Finset.mul_sum]
    refine Finset.sum_congr rfl ?_
    intro i hi
    obtain ⟨c, hc⟩ := hb i (Finset.mem_range.mp hi)
    rw [hc, Int.mul_ediv_cancel_left _ hg.ne']
    ring
  have hleft : ∑ i ∈ Finset.range n, d * (b (i + 1) / g) * (d * (b (i + 1) / g)) =
      d * d * ∑ i ∈ Finset.range n, b (i + 1) / g * (b (i + 1) / g) := by
    rw [Finset.mul_sum]
    exact Finset.sum_congr rfl fun i _ => by ring
  have hright : g * d * (g * e) = g * g * (d * e) := by ring
  rw [hborder, hleft, hright, mul_lt_mul_iff_right₀ (Int.mul_pos hg hg), mul_lt_mul_iff_right₀ (Int.mul_pos hd hd),
    lt_sub_iff_add_lt']

/-- `positiveDefinite` holds of a bordered matrix with a positive diagonal exactly if the squares of
    the border add up to less than the diagonal times the corner. -/
theorem positiveDefinite_bordered_iff {n : Nat} {d e : Int} {b : Nat → Int} (hd : 0 < d) :
    positiveDefinite (n + 1) (table (n + 1) (bordered n d b e)) = true ↔
      ∑ i ∈ Finset.range n, b i * b i < d * e := by
  induction n generalizing d e b with
  | zero =>
    have hcorner : table 1 (bordered 0 d b e) = table 1 (diagonal fun _ => e) := rfl
    rw [hcorner, positiveDefinite_diagonal_iff, Finset.sum_range_zero, mul_pos_iff_of_pos_left hd]
    exact ⟨fun h => h 0 Nat.one_pos, fun h i _ => h⟩
  | succ n ih =>
    obtain ⟨g, hdvd, hstep⟩ := exists_positiveDefinite_succ (n + 1) (bordered (n + 1) d b e)
    have hdvdDiagonal : (g : Int) ∣ d := bordered_zero n d b e ▸ hdvd 0 0 (by omega) (by omega)
    have hdvdBorder (i : Nat) (hi : i < n + 1) : (g : Int) ∣ b i :=
      bordered_last hi d b e ▸ hdvd i (n + 1) (by omega) (by omega)
    have hdvdCorner : (g : Int) ∣ e := bordered_corner (n + 1) d b e ▸ hdvd (n + 1) (n + 1) (by omega) (by omega)
    -- All numbers are multiples of `g`, which is positive because the diagonal is.
    obtain ⟨d', rfl⟩ := hdvdDiagonal
    obtain ⟨e', rfl⟩ := hdvdCorner
    have hg : (0 : Int) < g := by
      refine lt_of_le_of_ne (Int.natCast_nonneg g) fun hzero => ?_
      rw [← hzero, zero_mul] at hd
      exact lt_irrefl _ hd
    have hd' : 0 < d' := Int.pos_of_mul_pos_right hd hg
    have hreduced := table_congr (n := n + 1) fun i j _ _ =>
      reducedEntry_bordered n (g * d') b (g * e') g i j
    rw [hstep, bordered_zero, hreduced, Int.mul_ediv_cancel_left _ hg.ne', Int.mul_ediv_cancel_left _ hg.ne',
      decide_eq_true hd', Bool.true_and, ih (Int.mul_pos hd' hd'), sum_squares_lt_iff hg hd' hdvdBorder]

end Conditioning

end Georef

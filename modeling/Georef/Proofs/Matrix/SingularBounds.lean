import Georef.Proofs.Double.RoundingError
import Georef.Proofs.Matrix.ConditionNumber
import Mathlib.LinearAlgebra.Matrix.ToLinearEquiv

/-!
# Bounds for singular values

A table of integers that passes the test for positive definiteness is positive for all columns of integers. So no
column is stretched less than the smallest singular value found, and as unit columns are stretched to columns of the
matrix, no entry is larger than the largest one. A well-conditioned matrix that takes some column to one that is not
longer has, for that reason, no entry above the threshold for condition numbers.

## Key results

- `form_pos_of_positiveDefinite`: what the test for positive definiteness says
- `smallestMagnitude_le`: no column is stretched less than the smallest singular value
- `le_largestMagnitude`: no entry is larger than the largest singular value
- `largestMagnitude_le_of_wellConditioned`: a bound for the entries of some well-conditioned matrices
-/

namespace Georef

namespace Conditioning

/-! ## Quadratic forms -/

/-- The quadratic form of a square table. -/
def form (n : Nat) (f : Nat → Nat → Int) (v : Nat → Int) : Int :=
  ∑ i ∈ Finset.range n, ∑ j ∈ Finset.range n, f i j * (v i * v j)

/-- The `form` of a symmetric table with its first row and column taken apart. -/
theorem form_succ {n : Nat} {f : Nat → Nat → Int} (hsymm : ∀ i j, f i j = f j i) (v : Nat → Int) :
    form (n + 1) f v = f 0 0 * (v 0 * v 0) + 2 * v 0 * (∑ j ∈ Finset.range n, f 0 (j + 1) * v (j + 1)) +
      form n (fun i j => f (i + 1) (j + 1)) (fun i => v (i + 1)) := by
  have hcolumn : ∑ i ∈ Finset.range n, f (i + 1) 0 * (v (i + 1) * v 0) =
      v 0 * ∑ j ∈ Finset.range n, f 0 (j + 1) * v (j + 1) := by
    rw [Finset.mul_sum]
    refine Finset.sum_congr rfl fun i _ => ?_
    rw [hsymm (i + 1) 0]
    ring
  have hrow : ∑ j ∈ Finset.range n, f 0 (j + 1) * (v 0 * v (j + 1)) =
      v 0 * ∑ j ∈ Finset.range n, f 0 (j + 1) * v (j + 1) := by
    rw [Finset.mul_sum]
    exact Finset.sum_congr rfl fun j _ => by ring
  simp only [form, Finset.sum_range_succ', Finset.sum_add_distrib, hcolumn, hrow]
  ring

/-- The first row of a table times the rest of a column. -/
def firstRow (n : Nat) (f : Nat → Nat → Int) (v : Nat → Int) : Int := ∑ j ∈ Finset.range n, f 0 (j + 1) * v (j + 1)

/-- What a step of `positiveDefinite` leaves is the form without a square. -/
theorem form_reducedEntry {n : Nat} {f : Nat → Nat → Int} (hsymm : ∀ i j, f i j = f j i) (g : Nat) (v : Nat → Int) :
    f 0 0 / (g : Int) * form (n + 1) (fun i j => f i j / (g : Int)) v =
      (f 0 0 / (g : Int) * v 0 + firstRow n (fun i j => f i j / (g : Int)) v) ^ 2 +
        form n (reducedEntry f g) fun i => v (i + 1) := by
  have hsquare : form n (reducedEntry f g) (fun i => v (i + 1)) =
      f 0 0 / (g : Int) * form n (fun i j => f (i + 1) (j + 1) / (g : Int)) (fun i => v (i + 1)) -
        firstRow n (fun i j => f i j / (g : Int)) v * firstRow n (fun i j => f i j / (g : Int)) v := by
    simp only [form, firstRow, reducedEntry, Finset.mul_sum, Finset.sum_mul, ← Finset.sum_sub_distrib]
    refine Finset.sum_congr rfl fun i _ => Finset.sum_congr rfl fun j _ => ?_
    rw [hsymm (i + 1) 0]
    ring
  rw [hsquare, form_succ fun i j => by rw [hsymm], firstRow]
  ring

/-- In `form` only the first number of the column is left, and its square. -/
theorem form_of_tail_zero {n : Nat} {v : Nat → Int} (f : Nat → Nat → Int) (hzero : ∀ i < n, v (i + 1) = 0) :
    form (n + 1) f v = f 0 0 * v 0 ^ 2 := by
  have hinner (i : Nat) : ∑ j ∈ Finset.range (n + 1), f i j * (v i * v j) = f i 0 * (v i * v 0) := by
    rw [Finset.sum_range_succ', Finset.sum_eq_zero, zero_add]
    intro j hj
    rw [hzero j (Finset.mem_range.mp hj), mul_zero, mul_zero]
  simp only [form, hinner]
  rw [Finset.sum_range_succ', Finset.sum_eq_zero, zero_add, sq]
  intro i hi
  rw [hzero i (Finset.mem_range.mp hi), zero_mul, mul_zero]

/-- The `form` of a table is that of its quotients by a common divisor. -/
theorem form_quotients {n : Nat} {f : Nat → Nat → Int} {g : Int} (hdvd : ∀ i j, i < n → j < n → g ∣ f i j)
    (v : Nat → Int) : form n f v = g * form n (fun i j => f i j / g) v := by
  simp only [form, Finset.mul_sum]
  refine Finset.sum_congr rfl fun i hi => Finset.sum_congr rfl fun j hj => ?_
  rw [← mul_assoc g, Int.mul_ediv_cancel' (hdvd i j (Finset.mem_range.mp hi) (Finset.mem_range.mp hj))]

/-- `reducedEntry` of a symmetric table is symmetric. -/
theorem reducedEntry_comm {f : Nat → Nat → Int} (hsymm : ∀ i j, f i j = f j i) (g i j : Nat) :
    reducedEntry f g i j = reducedEntry f g j i := by
  unfold reducedEntry
  rw [hsymm (i + 1) (j + 1), hsymm (i + 1) 0, hsymm 0 (j + 1), mul_comm (f 0 (i + 1) / (g : Int))]

/-- A symmetric table that passes `positiveDefinite` has a positive `form` for all columns but zero. -/
theorem form_pos_of_positiveDefinite {n : Nat} {f : Nat → Nat → Int} (hsymm : ∀ i j, f i j = f j i)
    (h : positiveDefinite n (table n f) = true) {v : Nat → Int} (hv : ∃ i < n, v i ≠ 0) : 0 < form n f v := by
  induction n generalizing f v with
  | zero =>
    obtain ⟨i, hi, -⟩ := hv
    cases hi
  | succ n ih =>
    obtain ⟨g, hdvd, hstep⟩ := exists_positiveDefinite_succ n f
    rw [hstep, Bool.and_eq_true, decide_eq_true_eq] at h
    obtain ⟨hpivot, hrest⟩ := h
    have hg : (0 : Int) < g := by
      obtain rfl | hg := Nat.eq_zero_or_pos g
      · simp at hpivot
      · exact Int.natCast_pos.mpr hg
    rw [form_quotients hdvd]
    refine Int.mul_pos hg ?_
    -- The rest of the column decides by what the step leaves, and if it is zero the first number
    -- does.
    by_cases htail : ∃ i < n, v (i + 1) ≠ 0
    · refine Int.pos_of_mul_pos_right (a := f 0 0 / (g : Int)) ?_ hpivot
      rw [form_reducedEntry hsymm]
      exact Int.add_pos_of_nonneg_of_pos (sq_nonneg _) (ih (reducedEntry_comm hsymm g) hrest htail)
    · have hzero (i : Nat) (hi : i < n) : v (i + 1) = 0 := by
        by_contra hne
        exact htail ⟨i, hi, hne⟩
      have hfirst : v 0 ≠ 0 := by
        obtain ⟨i, hi, hne⟩ := hv
        cases i with
        | zero => exact hne
        | succ i => exact absurd (hzero i (by omega)) hne
      rw [form_of_tail_zero _ hzero]
      exact Int.mul_pos hpivot (sq_pos_of_ne_zero hfirst)

/-! ## Gram matrices -/

/-- The `form` of a Gram matrix is the square of the length of the image of the column. -/
theorem form_gram (rows n : Nat) (a : Nat → Nat → Int) (v : Nat → Int) :
    form n (fun i j => ∑ k ∈ Finset.range rows, a k i * a k j) v =
      ∑ k ∈ Finset.range rows, (∑ j ∈ Finset.range n, a k j * v j) ^ 2 := by
  simp only [form, Finset.sum_mul]
  calc ∑ i ∈ Finset.range n, ∑ j ∈ Finset.range n, ∑ k ∈ Finset.range rows, a k i * a k j * (v i * v j)
      = ∑ i ∈ Finset.range n, ∑ k ∈ Finset.range rows, ∑ j ∈ Finset.range n, a k i * a k j * (v i * v j) :=
        Finset.sum_congr rfl fun i _ => Finset.sum_comm
    _ = ∑ k ∈ Finset.range rows, ∑ i ∈ Finset.range n, ∑ j ∈ Finset.range n, a k i * a k j * (v i * v j) :=
        Finset.sum_comm
    _ = _ := by
        refine Finset.sum_congr rfl fun k _ => ?_
        rw [sq, Finset.sum_mul_sum]
        exact Finset.sum_congr rfl fun i _ => Finset.sum_congr rfl fun j _ => by ring

/-- The `form` of a shifted table has the square of the column added. -/
theorem form_shifted (n : Nat) (scale shift : Int) (f : Nat → Nat → Int) (v : Nat → Int) :
    form n (fun i j => scale * f i j + diagonal (fun _ => shift) i j) v =
      scale * form n f v + shift * ∑ i ∈ Finset.range n, v i ^ 2 := by
  simp only [form, add_mul, Finset.sum_add_distrib, Finset.mul_sum, diagonal]
  congr 1
  · exact Finset.sum_congr rfl fun i _ => Finset.sum_congr rfl fun j _ => by ring
  · refine Finset.sum_congr rfl fun i hi => ?_
    rw [Finset.sum_eq_single i]
    · rw [if_pos rfl, sq]
    · intro j _ hne
      rw [if_neg hne.symm, zero_mul]
    · exact fun h => absurd hi h

/-! ## The magnitudes found -/

variable {m : Matrix Double}

/-- The image of a column of integers, in units. -/
def image (m : Matrix Double) (v : Nat → Int) (k : Nat) : Int :=
  ∑ j ∈ Finset.range m.cols, (m.entry k j).units * v j

/-- A table made from a `gram` matrix is symmetric. -/
private theorem shifted_gram_comm (scale shift : Int) (i j : Nat) :
    scale * (∑ k ∈ Finset.range m.rows, (m.entry k i).units * (m.entry k j).units) + diagonal (fun _ => shift) i j =
      scale * (∑ k ∈ Finset.range m.rows, (m.entry k j).units * (m.entry k i).units) +
        diagonal (fun _ => shift) j i := by
  have hcomm (k : Nat) : (m.entry k i).units * (m.entry k j).units = (m.entry k j).units * (m.entry k i).units :=
    mul_comm _ _
  simp only [hcomm, diagonal_comm _ i j]

/-- No column is stretched less than by `smallestMagnitude`. -/
theorem smallestMagnitude_le {n : Nat} {v : Nat → Int} (hv : ∃ j < m.cols, v j ≠ 0)
    (hle : ∑ k ∈ Finset.range m.rows, image m v k ^ 2 ≤
      (Double.unitsOfMagnitude n : Int) ^ 2 * ∑ j ∈ Finset.range m.cols, v j ^ 2) :
    smallestMagnitude (gram (unitColumns m)) ≤ n := by
  refine (Nat.min_le_left ..).trans (lastTrue_le 63 0 (Nat.zero_le n) fun k hk => ?_)
  rw [Bool.eq_false_iff]
  intro habove
  -- Were a larger magnitude below all singular values, the shifted form would be positive for the column.
  rw [allAbove, gram_unitColumns, length_table, shifted_table] at habove
  have hpos := form_pos_of_positiveDefinite (shifted_gram_comm _ _) habove hv
  rw [form_shifted, form_gram m.rows m.cols fun k j => (m.entry k j).units] at hpos
  have hsquares : 0 ≤ ∑ j ∈ Finset.range m.cols, v j ^ 2 := Finset.sum_nonneg fun j _ => sq_nonneg _
  have hmiddle := mul_le_mul_of_nonneg_right (lt_midpoint_sq hk).le hsquares
  unfold image at hle
  have hsquare : (4 * (Double.unitsOfMagnitude n * Double.unitsOfMagnitude n) : Int) *
      ∑ j ∈ Finset.range m.cols, v j ^ 2 =
      4 * ((Double.unitsOfMagnitude n : Int) ^ 2 * ∑ j ∈ Finset.range m.cols, v j ^ 2) := by ring
  linarith

/-- No entry is larger than `largestMagnitude`. -/
theorem le_largestMagnitude {i j : Nat} (hi : i < m.rows) (hj : j < m.cols) (hfinite : (m.entry i j).Finite) :
    (m.entry i j).magnitude ≤ largestMagnitude (gram (unitColumns m)) := by
  have hbound : Double.infinityMagnitude < 0 + powerOfTwo 63 := by decide
  have hlt : (m.entry i j).magnitude < Double.infinityMagnitude := decide_eq_true_eq.mp hfinite
  refine le_min (le_lastTrue 63 0 (Nat.zero_le _) (hlt.trans hbound) fun k hk hle => ?_) hlt.le
  rw [Bool.not_eq_true', Bool.eq_false_iff]
  intro hbelow
  rw [allBelow, gram_unitColumns, length_table, shifted_table] at hbelow
  have hdiagonal := pos_diagonal_of_positiveDefinite (shifted_gram_comm _ _) hbelow j hj
  rw [diagonal_self] at hdiagonal
  -- The square of the entry is part of the diagonal.
  have hentry := Finset.single_le_sum (f := fun k => (m.entry k j).units * (m.entry k j).units)
    (fun k _ => mul_self_nonneg _) (Finset.mem_range.mpr hi)
  have hunits : (m.entry i j).units * (m.entry i j).units =
      Double.unitsOfMagnitude (m.entry i j).magnitude * Double.unitsOfMagnitude (m.entry i j).magnitude := by
    rw [← Int.natAbs_mul_self, Double.natAbs_units, Nat.cast_mul]
  have hmiddle := midpoint_sq_lt hk hle
  linarith

/-! ## The condition number -/

/-- Dividing by a number that is not above one does not make a number smaller. -/
theorem magnitude_le_div {x y : Double} (hx : x.Finite) (hy : y.Finite) (hsign : y.negative = false)
    (hne : y.magnitude ≠ 0) (hle : y.magnitude ≤ Double.one.magnitude) : x.magnitude ≤ (x / y).magnitude := by
  have hunits : Double.unitsOfMagnitude y.magnitude ≤ Double.unitsPerOne := by
    rw [← unitsOfMagnitude_one]
    exact Double.unitsOfMagnitude_strictMono.monotone hle
  have hpos : 0 < Double.unitsOfMagnitude y.magnitude := Double.unitsOfMagnitude_strictMono (Nat.pos_of_ne_zero hne)
  rw [hx.div_eq hy hsign hne, Double.natAbs_units, Double.natAbs_units]
  have hlt : x.magnitude < Double.infinityMagnitude := decide_eq_true_eq.mp hx
  conv_lhs => rw [← Double.nearestMagnitude_unitsOfMagnitude hlt]
  refine Double.nearestMagnitude_mono Nat.one_pos hpos ?_
  rw [Nat.mul_one]
  exact Nat.mul_le_mul_left _ hunits

/-- The largest singular value of a `wellConditioned` matrix is not above the threshold if the
    smallest one is not above one. -/
theorem largestMagnitude_le_of_wellConditioned (h : wellConditioned m = true)
    (hsmallest : smallestMagnitude (gram (unitColumns m)) ≤ Double.one.magnitude) :
    largestMagnitude (gram (unitColumns m)) ≤ threshold.magnitude := by
  obtain ⟨x, y, hquotient, hnan, hpositive, hx, hpositive', hy⟩ := exists_conditionNumber m
  rw [wellConditioned, hquotient, Bool.and_eq_true, decide_eq_true_eq] at h
  obtain ⟨hfinite, hthreshold⟩ := h
  rw [← hx]
  rw [← hy] at hsmallest
  have hone : Double.one.magnitude < Double.infinityMagnitude := by decide
  -- A quotient is finite only if it is one of finite numbers and nothing is divided by zero.
  have hyfinite : y.Finite := decide_eq_true (hsmallest.trans_lt hone)
  have hxfinite : x.Finite := by
    by_contra hinfinite
    obtain hnan' | hinfinite := Double.isNaN_or_isInfinite hinfinite
    · rw [hnan] at hnan'
      cases hnan'
    · rw [isFinite_div_of_isInfinite hinfinite hyfinite] at hfinite
      cases hfinite
  have hne : y.magnitude ≠ 0 := by
    intro hzero
    rw [isFinite_div_of_isZero hnan (beq_iff_eq.mpr hzero)] at hfinite
    cases hfinite
  -- So the largest singular value is not above the quotient, and the quotient not above the threshold.
  have hsign : (x / y).negative = false := by rw [hxfinite.div_eq hyfinite hpositive' hne, hpositive]; rfl
  have hle := Double.ordinal_le_of_le hthreshold
  rw [Double.ordinal_of_nonneg hsign, ordinal_threshold] at hle
  exact (magnitude_le_div hxfinite hyfinite hpositive' hne hsmallest).trans (Int.ofNat_le.mp hle)

/-- With fewer equations than unknowns, some column other than zero is taken to zero. -/
theorem exists_image_eq_zero {n : Nat} (hcols : m.cols = n + 1) :
    ∃ v : Nat → Int, (∃ j < m.cols, v j ≠ 0) ∧ ∀ k < n, image m v k = 0 := by
  -- A row of zeros makes the equations as many as the unknowns.
  let a : Fin (n + 1) → Fin (n + 1) → Int := fun k j => if k.val < n then (m.entry k j).units else 0
  have hlast (j : Fin (n + 1)) : a (Fin.last n) j = 0 := if_neg (Nat.lt_irrefl n)
  obtain ⟨v, hv, hzero⟩ := Matrix.exists_mulVec_eq_zero_iff.mpr (Matrix.det_eq_zero_of_row_eq_zero (Fin.last n) hlast)
  obtain ⟨j, hj⟩ := Function.ne_iff.mp hv
  have hextend (j : Fin (n + 1)) : (if h : j.val < n + 1 then v ⟨j, h⟩ else 0) = v j := dif_pos j.isLt
  refine ⟨fun j => if h : j < n + 1 then v ⟨j, h⟩ else 0, ⟨j, by omega, (hextend j).trans_ne hj⟩, fun k hk => ?_⟩
  have hrow : ∑ j, a ⟨k, by omega⟩ j * v j = 0 := congrFun hzero ⟨k, by omega⟩
  rw [image, hcols, Finset.sum_range]
  refine (Finset.sum_congr rfl fun j _ => ?_).trans hrow
  rw [hextend]
  exact congrArg (· * v j) (if_pos hk).symm

/-- If the last row of a square matrix consists of zeros and a one, some column is not stretched. -/
theorem smallestMagnitude_le_one {n : Nat} (hrows : m.rows = n + 1) (hcols : m.cols = n + 1)
    (hlast : ∀ j < m.cols, (m.entry n j).units = if j = n then (Double.unitsPerOne : Int) else 0) :
    smallestMagnitude (gram (unitColumns m)) ≤ Double.one.magnitude := by
  obtain ⟨v, hv, hzero⟩ := exists_image_eq_zero hcols
  have himage : image m v n = Double.unitsPerOne * v n := by
    rw [image, Finset.sum_eq_single n]
    · rw [hlast n (by omega), if_pos rfl]
    · intro j hj hne
      rw [hlast j (Finset.mem_range.mp hj), if_neg hne, zero_mul]
    · intro hn
      exact absurd (Finset.mem_range.mpr (by omega)) hn
  refine smallestMagnitude_le hv ?_
  -- Only the last number is left of its image, and it is a part of the column.
  have hsingle := Finset.single_le_sum (f := fun j => v j ^ 2) (fun j _ => sq_nonneg _)
    (Finset.mem_range.mpr (show n < m.cols by omega))
  rw [hrows, Finset.sum_range_succ, Finset.sum_eq_zero fun k hk => ?_, himage, zero_add, unitsOfMagnitude_one, mul_pow]
  · exact mul_le_mul_of_nonneg_left hsingle (sq_nonneg _)
  · rw [hzero k (Finset.mem_range.mp hk)]
    rfl

end Conditioning

end Georef

import Georef.Matrix.Conditioning
import Georef.Proofs.Double.Zeros
import Georef.Proofs.List
import Georef.Proofs.Matrix.Entries
import Mathlib.Algebra.Order.Ring.Int
import Mathlib.Tactic.Linarith

/-!
# Condition numbers of doubles

The condition number of a matrix of doubles is found without rounding errors: whether all singular values lie
above or below a number is decided by an elimination in integers, and a binary search takes the decisions
together. This file opens that computation as far as two kinds of matrices need it: those with a column of
zeros, whose condition number is not finite, and those with orthogonal columns, whose singular values are the
lengths of the columns.

## Key results

- `pos_diagonal_of_positiveDefinite`: a symmetric matrix that passes the test has a positive diagonal
- `positiveDefinite_diagonal_iff`: a diagonal matrix passes it exactly if its diagonal is positive
- `le_lastTrue` and `lastTrue_le`: where the binary search ends
- `wellConditioned_of_zero_column`, `wellConditioned_of_orthogonal`: what comes of it
-/

namespace Georef

namespace Conditioning

/-! ## Square tables of integers -/

/-- The square table with the given entries. -/
def table (n : Nat) (f : Nat → Nat → Int) : List (List Int) :=
  (List.range n).map fun i => (List.range n).map (f i)

/-- A `table` has as many rows as it has columns. -/
theorem length_table (n : Nat) (f : Nat → Nat → Int) : (table n f).length = n := by
  simp [table]

/-- A `table` depends on the entries inside of it only. -/
theorem table_congr {n : Nat} {f g : Nat → Nat → Int} (h : ∀ i j, i < n → j < n → f i j = g i j) :
    table n f = table n g :=
  List.map_congr_left fun i hi => List.map_congr_left fun j hj =>
    h i j (List.mem_range.mp hi) (List.mem_range.mp hj)

/-- The first row and the first column of a `table`, as `positiveDefinite` takes them off. -/
theorem table_succ (n : Nat) (f : Nat → Nat → Int) : table (n + 1) f =
    (f 0 0 :: (List.range n).map fun j => f 0 (j + 1)) ::
      (List.range n).map fun i => f (i + 1) 0 :: (List.range n).map fun j => f (i + 1) (j + 1) := by
  simp [table, List.range_succ_eq_map, Function.comp_def]

/-- `primitivePart` divides every entry by the common divisor. -/
theorem primitivePart_table (n : Nat) (f : Nat → Nat → Int) :
    primitivePart (table n f) = table n fun i j => f i j / (content (table n f) : Int) := by
  simp [primitivePart, table, Function.comp_def]

/-- `content` divides every element. -/
theorem content_dvd {rows : List (List Int)} {row : List Int} {x : Int} (hrow : row ∈ rows)
    (hx : x ∈ row) : (content rows : Int) ∣ x := by
  -- What is found for a row divides what was found before it, and every element of the row.
  have hfold (row : List Int) (g : Nat) :
      row.foldl (fun g x => Nat.gcd g x.natAbs) g ∣ g ∧
        ∀ x ∈ row, row.foldl (fun g x => Nat.gcd g x.natAbs) g ∣ x.natAbs := by
    induction row generalizing g with
    | nil => simp
    | cons y row ih =>
      obtain ⟨hg, hrest⟩ := ih (Nat.gcd g y.natAbs)
      refine ⟨hg.trans (Nat.gcd_dvd_left ..), List.forall_mem_cons.mpr ⟨?_, hrest⟩⟩
      exact hg.trans (Nat.gcd_dvd_right ..)
  have hrows (rows : List (List Int)) (g : Nat) :
      rows.foldl (fun g row => row.foldl (fun g x => Nat.gcd g x.natAbs) g) g ∣ g ∧
        ∀ row ∈ rows, ∀ x ∈ row,
          rows.foldl (fun g row => row.foldl (fun g x => Nat.gcd g x.natAbs) g) g ∣ x.natAbs := by
    induction rows generalizing g with
    | nil => simp
    | cons row rows ih =>
      obtain ⟨hg, hrest⟩ := ih (row.foldl (fun g x => Nat.gcd g x.natAbs) g)
      obtain ⟨hg', hrow⟩ := hfold row g
      refine ⟨hg.trans hg', List.forall_mem_cons.mpr ⟨fun x hx => ?_, hrest⟩⟩
      exact hg.trans (hrow x hx)
  exact Int.natCast_dvd.mpr ((hrows rows 0).2 row hrow x hx)

/-! ## Positive definiteness -/

/-- Dividing by a common divisor keeps signs. -/
private theorem ediv_pos_iff {x : Int} {g : Nat} (h : (g : Int) ∣ x) : 0 < x / (g : Int) ↔ 0 < x := by
  obtain ⟨k, rfl⟩ := h
  obtain rfl | hg := Nat.eq_zero_or_pos g
  · simp
  · have hg' : (0 : Int) < g := Int.natCast_pos.mpr hg
    rw [Int.mul_ediv_cancel_left _ hg'.ne']
    exact ⟨fun hk => Int.mul_pos hg' hk, fun hk => Int.pos_of_mul_pos_right hk hg'⟩

/-- What a step of `positiveDefinite` leaves, after all entries were divided by `g`. -/
def reducedEntry (f : Nat → Nat → Int) (g : Nat) (i j : Nat) : Int :=
  f 0 0 / (g : Int) * (f (i + 1) (j + 1) / (g : Int)) -
    f (i + 1) 0 / (g : Int) * (f 0 (j + 1) / (g : Int))

/-- One step of `positiveDefinite`, in terms of entries and a common divisor of them. -/
theorem exists_positiveDefinite_succ (n : Nat) (f : Nat → Nat → Int) :
    ∃ g : Nat, (∀ i j, i < n + 1 → j < n + 1 → (g : Int) ∣ f i j) ∧
      positiveDefinite (n + 1) (table (n + 1) f) =
        (decide (0 < f 0 0 / (g : Int)) && positiveDefinite n (table n (reducedEntry f g))) := by
  refine ⟨content (table (n + 1) f), fun i j hi hj => ?_, ?_⟩
  · exact content_dvd (List.mem_map_of_mem (List.mem_range.mpr hi))
      (List.mem_map_of_mem (List.mem_range.mpr hj))
  · have hschur (pivot : Int) (b : Nat → Int) (q : Nat → Nat → Int) :
        schurComplement pivot ((List.range n).map b)
          ((List.range n).map fun i => q (i + 1) 0 :: (List.range n).map fun j => q (i + 1) (j + 1)) =
          table n fun i j => pivot * q (i + 1) (j + 1) - q (i + 1) 0 * b j := by
      simp [schurComplement, table, List.zipWith_map]
    rw [positiveDefinite, primitivePart_table, table_succ]
    simp only
    rw [hschur _ _ fun i j => f i j / (content (table (n + 1) f) : Int)]
    rfl

/-- A symmetric matrix that passes `positiveDefinite` has a positive diagonal. -/
theorem pos_diagonal_of_positiveDefinite {n : Nat} {f : Nat → Nat → Int}
    (hsymm : ∀ i j, f i j = f j i) (h : positiveDefinite n (table n f) = true) :
    ∀ i, i < n → 0 < f i i := by
  induction n generalizing f with
  | zero => exact fun i hi => absurd hi (Nat.not_lt_zero i)
  | succ n ih =>
    obtain ⟨g, hdvd, hstep⟩ := exists_positiveDefinite_succ n f
    rw [hstep, Bool.and_eq_true, decide_eq_true_eq] at h
    obtain ⟨hpivot, hrest⟩ := h
    intro i hi
    refine (ediv_pos_iff (hdvd i i hi hi)).mp ?_
    cases i with
    | zero => exact hpivot
    | succ i =>
      -- What a step leaves of a symmetric matrix is symmetric.
      have hsymm' (i j : Nat) : reducedEntry f g i j = reducedEntry f g j i := by
        unfold reducedEntry
        rw [hsymm (i + 1) (j + 1), hsymm (i + 1) 0, hsymm 0 (j + 1), mul_comm (f 0 (i + 1) / (g : Int))]
      have hminor := ih hsymm' hrest i (Nat.lt_of_succ_lt_succ hi)
      -- The pivot times the entry is more than the square of the entry above it.
      rw [reducedEntry, hsymm (i + 1) 0] at hminor
      have hsquare := mul_self_nonneg (f 0 (i + 1) / (g : Int))
      exact Int.pos_of_mul_pos_right (by omega) hpivot

/-- The entries of a diagonal matrix. -/
def diagonal (d : Nat → Int) (i j : Nat) : Int := if i = j then d i else 0

theorem diagonal_self (d : Nat → Int) (i : Nat) : diagonal d i i = d i := if_pos rfl

/-- A `diagonal` matrix is symmetric. -/
theorem diagonal_comm (d : Nat → Int) (i j : Nat) : diagonal d i j = diagonal d j i := by
  unfold diagonal
  by_cases hij : i = j
  · rw [hij]
  · rw [if_neg hij, if_neg (Ne.symm hij)]

/-- `positiveDefinite` holds of a diagonal matrix exactly if its diagonal is positive. -/
theorem positiveDefinite_diagonal_iff {n : Nat} {d : Nat → Int} :
    positiveDefinite n (table n (diagonal d)) = true ↔ ∀ i, i < n → 0 < d i := by
  constructor
  · intro h i hi
    rw [← diagonal_self d i]
    exact pos_diagonal_of_positiveDefinite (diagonal_comm d) h i hi
  · intro h
    induction n generalizing d with
    | zero => rfl
    | succ n ih =>
      obtain ⟨g, hdvd, hstep⟩ := exists_positiveDefinite_succ n (diagonal d)
      have hquotient (i : Nat) (hi : i < n + 1) : 0 < d i / (g : Int) := by
        have hdvd' := hdvd i i hi hi
        rw [diagonal_self] at hdvd'
        exact (ediv_pos_iff hdvd').mpr (h i hi)
      -- What a step leaves is diagonal again.
      have hreduced : table n (reducedEntry (diagonal d) g) =
          table n (diagonal fun i => d 0 / (g : Int) * (d (i + 1) / (g : Int))) := by
        refine table_congr fun i j _ _ => ?_
        by_cases hij : i = j <;> simp [reducedEntry, diagonal, hij]
      rw [hstep, hreduced, diagonal_self, Bool.and_eq_true, decide_eq_true_eq]
      refine ⟨hquotient 0 (Nat.succ_pos n), ih fun i hi => ?_⟩
      exact Int.mul_pos (hquotient 0 (Nat.succ_pos n)) (hquotient (i + 1) (Nat.succ_lt_succ hi))

/-! ## The search -/

section Search

variable {holds : Nat → Bool} {last : Nat}

/-- The search of `lastTrue` does not end before a number up to which the property holds. -/
theorem le_lastTrue (bits base : Nat) (hlow : base ≤ last) (hhigh : last < base + powerOfTwo bits)
    (h : ∀ k, base < k → k ≤ last → holds k = true) : last ≤ lastTrue holds bits base := by
  induction bits generalizing base last with
  | zero =>
    have hone : powerOfTwo 0 = 1 := rfl
    rw [lastTrue]
    omega
  | succ bits ih =>
    have hpos := powerOfTwo_pos bits
    have hdouble : powerOfTwo (bits + 1) = 2 * powerOfTwo bits := Nat.pow_succ'
    rw [lastTrue]
    split
    · -- The search may have got beyond the number already.
      have hmax : max last (base + powerOfTwo bits) ≤ lastTrue holds bits (base + powerOfTwo bits) :=
        ih _ (by omega) (by omega) fun k hk hk' => h k (by omega) (by omega)
      omega
    · rename_i hfails
      refine ih base hlow ?_ h
      -- The property fails in the middle, so the number is before it.
      by_contra hle
      exact hfails (h _ (by omega) (by omega))

/-- The search of `lastTrue` does not end behind a number after which the property fails. -/
theorem lastTrue_le (bits base : Nat) (hlow : base ≤ last) (h : ∀ k, last < k → holds k = false) :
    lastTrue holds bits base ≤ last := by
  induction bits generalizing base with
  | zero => exact hlow
  | succ bits ih =>
    rw [lastTrue]
    split
    · rename_i hholds
      refine ih _ ?_
      by_contra hlt
      rw [h _ (Nat.not_le.mp hlt)] at hholds
      exact nomatch hholds
    · exact ih base hlow

end Search

/-! ## Gram matrices -/

/-- `gram` of the columns of a matrix, in units. -/
theorem gram_unitColumns (m : Matrix Double) : gram (unitColumns m) = table m.cols fun i j =>
    ∑ k ∈ Finset.range m.rows, (m.entry k i).units * (m.entry k j).units := by
  have hdot (u v : Nat → Int) : dot ((List.range m.rows).map u) ((List.range m.rows).map v) =
      ∑ k ∈ Finset.range m.rows, u k * v k := by
    rw [dot, List.zipWith_map, List.zipWith_self, List.foldl_map, List.foldl_range_add, zero_add]
  simp only [gram, unitColumns, Matrix.column, List.map_map, Function.comp_def, table, hdot]

/-- `shifted` multiplies a table and adds to its diagonal. -/
theorem shifted_table (scale shift : Int) (n : Nat) (f : Nat → Nat → Int) :
    shifted scale shift (table n f) = table n fun i j => scale * f i j + diagonal (fun _ => shift) i j := by
  have hindexed {β : Type} (u : Nat → β) :
      ((List.range n).map u).zipIdx = (List.range n).map fun i => (u i, i) := by
    refine List.ext_getElem (by simp) fun i _ _ => ?_
    simp
  simp only [shifted, table, hindexed, List.map_map, Function.comp_def, diagonal]

variable {m : Matrix Double}

/-! ## Columns of zeros -/

/-- If a column is zero, `smallestMagnitude` is zero. -/
theorem smallestMagnitude_of_zero_column {j : Nat} (hj : j < m.cols)
    (hzero : ∀ i, i < m.rows → (m.entry i j).units = 0) :
    smallestMagnitude (gram (unitColumns m)) = 0 := by
  -- The diagonal of the Gram matrix has a zero, and what is taken from it is a square.
  have hfalse (k : Nat) : allAbove (gram (unitColumns m)) k = false := by
    rw [Bool.eq_false_iff]
    intro habove
    rw [allAbove, gram_unitColumns, length_table, shifted_table] at habove
    have hdiagonal := pos_diagonal_of_positiveDefinite (fun i j => ?_) habove j hj
    · have hsum : ∑ k ∈ Finset.range m.rows, (m.entry k j).units * (m.entry k j).units = 0 :=
        Finset.sum_eq_zero fun k hk => by rw [hzero k (Finset.mem_range.mp hk), zero_mul]
      rw [hsum, diagonal_self] at hdiagonal
      have := mul_self_nonneg (midpoint k)
      omega
    · have hcomm (k : Nat) : (m.entry k i).units * (m.entry k j).units =
          (m.entry k j).units * (m.entry k i).units := mul_comm _ _
      simp only [hcomm, diagonal_comm _ i j]
  have hlast : lastTrue (allAbove (gram (unitColumns m))) 63 0 = 0 :=
    Nat.le_zero.mp (lastTrue_le 63 0 le_rfl fun k _ => hfalse k)
  rw [smallestMagnitude, hlast, Nat.zero_min]

/-- `conditionNumber` is a quotient of numbers that are not NaN. -/
theorem exists_conditionNumber (m : Matrix Double) : ∃ largest smallest : Double,
    conditionNumber m = largest / smallest ∧ largest.isNaN = false ∧
      largest.negative = false ∧ largest.magnitude = largestMagnitude (gram (unitColumns m)) ∧
      smallest.negative = false ∧ smallest.magnitude = smallestMagnitude (gram (unitColumns m)) := by
  have hinfinity : Double.infinityMagnitude < magnitudeBound := by decide
  have hlargest : largestMagnitude (gram (unitColumns m)) ≤ Double.infinityMagnitude :=
    Nat.min_le_right ..
  have hsmallest : smallestMagnitude (gram (unitColumns m)) ≤ Double.infinityMagnitude :=
    Nat.min_le_right ..
  have hbounds := And.intro (hlargest.trans_lt hinfinity) (hsmallest.trans_lt hinfinity)
  refine ⟨⟨false, _, hbounds.1⟩, ⟨false, _, hbounds.2⟩, dif_pos hbounds, ?_, rfl, rfl, rfl, rfl⟩
  exact decide_eq_false (Nat.not_lt.mpr hlargest)

/-- No number divided by zero is finite. -/
theorem isFinite_div_of_isZero {x y : Double} (hx : x.isNaN = false) (hy : y.isZero = true) :
    (x / y).isFinite = false := by
  have hmagnitude : y.magnitude = 0 := beq_iff_eq.mp hy
  have hnan : y.isNaN = false := by simp [Double.isNaN, hmagnitude]
  have hinfinite : y.isInfinite = false := by
    rw [Double.isInfinite, hmagnitude]
    rfl
  show (x.div y).isFinite = false
  rw [Double.div, hx, hnan, hinfinite, hy]
  simp only [Bool.false_eq_true, if_false, if_true]
  split
  · rfl
  · split <;> rfl

/-- A quotient of an infinity and a finite number is infinite. -/
theorem isFinite_div_of_isInfinite {x y : Double} (hx : x.isInfinite = true) (hy : y.Finite) :
    (x / y).isFinite = false := by
  have hmagnitude : x.magnitude = Double.infinityMagnitude := beq_iff_eq.mp hx
  have hnan : x.isNaN = false := by simp [Double.isNaN, hmagnitude]
  show (x.div y).isFinite = false
  rw [Double.div, hnan, hy.isNaN_eq_false, hx, hy.isInfinite_eq_false]
  rfl

/-- A matrix with a column of zeros is not `wellConditioned`. -/
theorem wellConditioned_of_zero_column {j : Nat} (hj : j < m.cols)
    (hzero : ∀ i, i < m.rows → (m.entry i j).units = 0) : wellConditioned m = false := by
  obtain ⟨largest, smallest, hquotient, hnan, -, -, -, hsmallest⟩ := exists_conditionNumber m
  rw [smallestMagnitude_of_zero_column hj hzero] at hsmallest
  have hinfinite := isFinite_div_of_isZero hnan (beq_iff_eq.mpr hsmallest)
  rw [wellConditioned, hquotient, hinfinite, Bool.false_and]

/-! ## Orthogonal columns -/

/-- `midpoint` is less than the magnitude and all larger ones. -/
theorem midpoint_sq_lt {k n : Nat} (hk : 0 < k) (hle : k ≤ n) :
    midpoint k * midpoint k < 4 * (Double.unitsOfMagnitude n * Double.unitsOfMagnitude n) := by
  have hmono := Double.unitsOfMagnitude_strictMono
  have hlt : midpoint k < 2 * Double.unitsOfMagnitude n := by
    have := hmono.monotone hle
    have := hmono (show k - 1 < n by omega)
    rw [midpoint]
    omega
  have hnonneg : 0 ≤ midpoint k := by rw [midpoint]; omega
  linarith [mul_self_lt_mul_self hnonneg hlt]

/-- `midpoint` is more than any smaller magnitude. -/
theorem lt_midpoint_sq {k n : Nat} (hlt : n < k) :
    4 * (Double.unitsOfMagnitude n * Double.unitsOfMagnitude n : Int) < midpoint k * midpoint k := by
  have hmono := Double.unitsOfMagnitude_strictMono
  have hlt' : 2 * Double.unitsOfMagnitude n < midpoint k := by
    have := hmono hlt
    have := hmono.monotone (show n ≤ k - 1 by omega)
    rw [midpoint]
    omega
  have hnonneg : (0 : Int) ≤ 2 * Double.unitsOfMagnitude n := by omega
  linarith [mul_self_lt_mul_self hnonneg hlt']

section Orthogonal

-- The columns are orthogonal, and column `i` has a length whose square is `squares i`.
variable {squares : Nat → Int} (h : ∀ i j, i < m.cols → j < m.cols →
  ∑ k ∈ Finset.range m.rows, (m.entry k i).units * (m.entry k j).units = diagonal squares i j)

include h

/-- With orthogonal columns, `positiveDefinite` asks for the sign of every number on the diagonal. -/
private theorem positiveDefinite_shifted_iff (scale shift : Int) :
    positiveDefinite (gram (unitColumns m)).length (shifted scale shift (gram (unitColumns m))) = true ↔
      ∀ i, i < m.cols → 0 < scale * squares i + shift := by
  rw [gram_unitColumns, table_congr h, length_table, shifted_table, ← positiveDefinite_diagonal_iff]
  refine iff_of_eq (congrArg (positiveDefinite _ · = true) (table_congr fun i j _ _ => ?_))
  by_cases hij : i = j <;> simp [diagonal, hij]

/-- `smallestMagnitude` of orthogonal columns is not below the length of the shortest one. -/
theorem le_smallestMagnitude_of_orthogonal {n : Nat} (hn : n < Double.infinityMagnitude)
    (hleast : ∀ i, i < m.cols → Double.unitsOfMagnitude n * Double.unitsOfMagnitude n ≤ squares i) :
    n ≤ smallestMagnitude (gram (unitColumns m)) := by
  have hbound : Double.infinityMagnitude < 0 + powerOfTwo 63 := by decide
  refine Nat.le_min.mpr ⟨le_lastTrue 63 0 (Nat.zero_le n) (hn.trans hbound) fun k hk hk' => ?_, hn.le⟩
  refine (positiveDefinite_shifted_iff h _ _).mpr fun i hi => ?_
  linarith [midpoint_sq_lt hk hk', hleast i hi]

/-- `smallestMagnitude` of orthogonal columns is not above the length of any of them. -/
theorem smallestMagnitude_le_of_orthogonal {n i : Nat} (hi : i < m.cols)
    (hshort : squares i ≤ Double.unitsOfMagnitude n * Double.unitsOfMagnitude n) :
    smallestMagnitude (gram (unitColumns m)) ≤ n := by
  refine (Nat.min_le_left ..).trans (lastTrue_le 63 0 (Nat.zero_le n) fun k hk => ?_)
  rw [Bool.eq_false_iff]
  intro habove
  have hlong := (positiveDefinite_shifted_iff h _ _).mp habove i hi
  linarith [lt_midpoint_sq hk]

/-- `largestMagnitude` of orthogonal columns is not above the length of the longest one. -/
theorem largestMagnitude_le_of_orthogonal {n : Nat}
    (hgreatest : ∀ i, i < m.cols → squares i ≤ Double.unitsOfMagnitude n * Double.unitsOfMagnitude n) :
    largestMagnitude (gram (unitColumns m)) ≤ n := by
  refine (Nat.min_le_left ..).trans (lastTrue_le 63 0 (Nat.zero_le n) fun k hk => ?_)
  rw [Bool.not_eq_false']
  refine (positiveDefinite_shifted_iff h _ _).mpr fun i hi => ?_
  linarith [lt_midpoint_sq hk, hgreatest i hi]

end Orthogonal

/-! ## The threshold -/

/-- What is evaluated of `threshold` and of one. -/
theorem threshold_spec :
    threshold.negative = false ∧ threshold.magnitude = (1074 + 1) * fractionCount ∧
      Double.nearestMagnitude (Double.unitsOfMagnitude threshold.magnitude * Double.unitsPerOne)
        (Double.unitsOfMagnitude Double.one.magnitude) = threshold.magnitude ∧
      Double.unitsOfMagnitude Double.one.magnitude = Double.unitsPerOne ∧
      Double.unitsOfMagnitude threshold.magnitude = powerOfTwo 52 * Double.unitsPerOne := by
  decide +kernel

/-- The `threshold` is a finite number. -/
theorem finite_threshold : threshold.Finite := by
  have hbound : (1074 + 1) * fractionCount < Double.infinityMagnitude := by decide
  exact decide_eq_true (threshold_spec.2.1 ▸ hbound)

/-- The `threshold` has no minus sign. -/
theorem ordinal_threshold : threshold.ordinal = threshold.magnitude := Double.ordinal_of_nonneg threshold_spec.1

theorem unitsOfMagnitude_one :
    Double.unitsOfMagnitude Double.one.magnitude = Double.unitsPerOne := threshold_spec.2.2.2.1

theorem unitsOfMagnitude_threshold :
    Double.unitsOfMagnitude threshold.magnitude = powerOfTwo 52 * Double.unitsPerOne := threshold_spec.2.2.2.2

/-- The place of a quotient of positive numbers is that of the exact quotient, rounded. -/
theorem ordinal_div_of_nonneg {x y : Double} (hx : x.Finite) (hy : y.Finite) (hxSign : x.negative = false)
    (hySign : y.negative = false) (hy' : y.magnitude ≠ 0) :
    (x / y).ordinal = Double.nearestMagnitude (Double.unitsOfMagnitude x.magnitude * Double.unitsPerOne)
      (Double.unitsOfMagnitude y.magnitude) := by
  have hunits : x.units = Double.unitsOfMagnitude x.magnitude := by rw [Double.units, hxSign]; rfl
  have hunits' : y.units = Double.unitsOfMagnitude y.magnitude := by rw [Double.units, hySign]; rfl
  have hpos : 0 < y.ordinal := by
    rw [Double.ordinal, hySign]
    exact Int.natCast_pos.mpr (Nat.pos_of_ne_zero hy')
  rw [Double.ordinal_div hx hy hpos, hunits, hunits', Double.roundedOrdinal, ← Int.natCast_mul,
    if_neg (Int.not_lt.mpr (Int.natCast_nonneg _)), Int.natAbs_natCast, Int.natAbs_natCast]

/-- A magnitude other than zero is a unit or more. -/
theorem unitsOfMagnitude_pos {k : Nat} (hk : 0 < k) : 0 < Double.unitsOfMagnitude k := by
  have := Double.unitsOfMagnitude_strictMono hk
  rwa [Double.unitsOfMagnitude_zero] at this

/-- `wellConditioned` holds if the quotient of an upper bound for the largest singular value and a
    lower one for the smallest is not above the threshold. -/
theorem wellConditioned_of_quotient {low high : Nat} (hlow : 0 < low) (hhigh : high < Double.infinityMagnitude)
    (hbound : Double.nearestMagnitude (Double.unitsOfMagnitude high * Double.unitsPerOne) (Double.unitsOfMagnitude low) ≤
      threshold.magnitude)
    (hlargest : largestMagnitude (gram (unitColumns m)) ≤ high)
    (hsmallest : low ≤ smallestMagnitude (gram (unitColumns m)))
    (hfinite : smallestMagnitude (gram (unitColumns m)) < Double.infinityMagnitude) : wellConditioned m = true := by
  obtain ⟨x, y, hquotient, -, hxSign, hx, hySign, hy⟩ := exists_conditionNumber m
  rw [← hx] at hlargest
  rw [← hy] at hsmallest hfinite
  have hxFinite : x.Finite := decide_eq_true (hlargest.trans_lt hhigh)
  have hyFinite : y.Finite := decide_eq_true hfinite
  have hplace := ordinal_div_of_nonneg hxFinite hyFinite hxSign hySign (by omega)
  -- A quotient grows with what is divided, and becomes less with what it is divided by.
  have hle : Double.nearestMagnitude (Double.unitsOfMagnitude x.magnitude * Double.unitsPerOne)
      (Double.unitsOfMagnitude y.magnitude) ≤ threshold.magnitude := by
    refine (Double.nearestMagnitude_mono (unitsOfMagnitude_pos (by omega)) (unitsOfMagnitude_pos hlow) ?_).trans hbound
    exact Nat.mul_le_mul (Nat.mul_le_mul_right _ (Double.unitsOfMagnitude_strictMono.monotone hlargest))
      (Double.unitsOfMagnitude_strictMono.monotone hsmallest)
  have hquotientFinite : (x / y).Finite := .of_le_of_le Double.finite_zero finite_threshold
    (by rw [hplace]; exact Int.natCast_nonneg _) (by rw [hplace, ordinal_threshold]; exact Int.ofNat_le.mpr hle)
  rw [wellConditioned, hquotient]
  refine Bool.and_eq_true_iff.mpr ⟨hquotientFinite, decide_eq_true ?_⟩
  rw [hquotientFinite.le_iff finite_threshold, hplace, ordinal_threshold]
  exact Int.ofNat_le.mpr hle

/-- Orthogonal columns are `wellConditioned` if none is shorter than one or longer than the
    threshold. The squares of the lengths are given as multiples of one. -/
theorem wellConditioned_of_orthogonal {squares : Nat → Nat} (hcols : 0 < m.cols)
    (hsquares : ∀ i, i < m.cols → 1 ≤ squares i ∧ squares i ≤ powerOfTwo 52 * powerOfTwo 52)
    (h : ∀ i j, i < m.cols → j < m.cols →
      ∑ k ∈ Finset.range m.rows, (m.entry k i).units * (m.entry k j).units =
        diagonal (fun i => squares i * (Double.unitsPerOne * Double.unitsPerOne)) i j) :
    wellConditioned m = true := by
  have hnonneg : 0 ≤ (Double.unitsPerOne * Double.unitsPerOne : Int) :=
    mul_nonneg (Int.natCast_nonneg _) (Int.natCast_nonneg _)
  have hthreshold : threshold.magnitude < Double.infinityMagnitude := decide_eq_true_eq.mp finite_threshold
  -- No column is longer than the threshold, and none is shorter than one.
  have hlong (i : Nat) (hi : i < m.cols) : (squares i * (Double.unitsPerOne * Double.unitsPerOne) : Int) ≤
      Double.unitsOfMagnitude threshold.magnitude * Double.unitsOfMagnitude threshold.magnitude := by
    rw [unitsOfMagnitude_threshold, Nat.cast_mul, mul_mul_mul_comm]
    exact mul_le_mul_of_nonneg_right (mod_cast (hsquares i hi).2) hnonneg
  have hlow : Double.one.magnitude ≤ smallestMagnitude (gram (unitColumns m)) := by
    refine le_smallestMagnitude_of_orthogonal h (by decide) fun i hi => ?_
    rw [unitsOfMagnitude_one]
    exact le_mul_of_one_le_left hnonneg (mod_cast (hsquares i hi).1)
  exact wellConditioned_of_quotient (by decide) hthreshold threshold_spec.2.2.1.le
    (largestMagnitude_le_of_orthogonal h hlong) hlow
    ((smallestMagnitude_le_of_orthogonal h hcols (hlong 0 hcols)).trans_lt hthreshold)

end Conditioning

end Georef

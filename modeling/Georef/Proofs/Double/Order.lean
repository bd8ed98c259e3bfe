import Georef.Proofs.Double.Rounding
import Mathlib.Algebra.Order.Group.Int

/-!
# The order of doubles

The ordinal of a double is its place on the line, and every operation that rounds once keeps the order of
its exact results. So differences and quotients of finite numbers can be located between known ones without
being computed: that is how the theory gets along without error bounds.

## Key results

- `units_le_units_iff`: exact values are ordered like ordinals
- `ordinal_sub` and `ordinal_div`: what an operation rounds
- `sub_le_sub`, `div_le_div`, `ceil_le_ceil`: operations keep the order
- `ordinal_sub_comm`, `sub_pos_iff`, `sub_neg_iff`: the sign of a difference
-/

namespace Georef

namespace Double

/-! ## Ordinals and units -/

/-- The exact value at a place of the line, in units. -/
def unitsOfOrdinal (place : Int) : Int :=
  if place < 0 then -(unitsOfMagnitude place.natAbs : Int) else unitsOfMagnitude place.natAbs

@[simp] theorem unitsOfMagnitude_zero : unitsOfMagnitude 0 = 0 := rfl

/-- Signs apart, the `ordinal` of a number is its magnitude. -/
theorem natAbs_ordinal (x : Double) : x.ordinal.natAbs = x.magnitude := by
  unfold ordinal
  split <;> simp

/-- The `units` of a number depend on its place only. -/
theorem units_eq (x : Double) : x.units = unitsOfOrdinal x.ordinal := by
  unfold units unitsOfOrdinal
  rw [natAbs_ordinal]
  unfold ordinal
  by_cases hnegative : x.negative = true
  · rw [if_pos hnegative, if_pos hnegative]
    split
    · rfl
    · -- A negative number at place zero is a zero.
      have hzero : x.magnitude = 0 := by omega
      simp [hzero]
  · rw [if_neg hnegative, if_neg hnegative, if_neg (by omega)]

/-- A later place has more units by `unitsOfOrdinal`. -/
theorem unitsOfOrdinal_lt {m n : Int} (hlt : m < n) : unitsOfOrdinal m < unitsOfOrdinal n := by
  unfold unitsOfOrdinal
  -- Which sides of zero the places are on: magnitudes grow away from it.
  split
  · split
    · have := unitsOfMagnitude_strictMono (show n.natAbs < m.natAbs by omega)
      omega
    · have := unitsOfMagnitude_strictMono (show 0 < m.natAbs by omega)
      rw [unitsOfMagnitude_zero] at this
      omega
  · split
    · omega
    · have := unitsOfMagnitude_strictMono (show m.natAbs < n.natAbs by omega)
      omega

/-- A number is its sign and its `magnitude`. -/
theorem eq_of_magnitude {x y : Double} (hnegative : x.negative = y.negative)
    (hmagnitude : x.magnitude = y.magnitude) : x = y := by
  obtain ⟨negative, magnitude, hlt⟩ := x
  obtain rfl : negative = y.negative := hnegative
  obtain rfl : magnitude = y.magnitude := hmagnitude
  rfl

/-- A number other than zero is given by its `ordinal`. At place zero there are two. -/
theorem eq_of_ordinal {x y : Double} (h : x.ordinal = y.ordinal) (hne : x.ordinal ≠ 0) : x = y := by
  have hmagnitude : x.magnitude = y.magnitude := by
    rw [← natAbs_ordinal, ← natAbs_ordinal, h]
  refine eq_of_magnitude ?_ hmagnitude
  unfold ordinal at h hne
  cases hx : x.negative <;> cases hy : y.negative <;> simp only [hx, hy] at h hne ⊢ <;> simp at h hne <;> omega

/-- The `units` are ordered like the ordinals. -/
theorem units_le_units_iff {x y : Double} : x.units ≤ y.units ↔ x.ordinal ≤ y.ordinal := by
  have hmono : StrictMono unitsOfOrdinal := fun _ _ => unitsOfOrdinal_lt
  rw [units_eq, units_eq, hmono.le_iff_le]

/-- The `units` are strictly ordered like the ordinals. -/
theorem units_lt_units_iff {x y : Double} : x.units < y.units ↔ x.ordinal < y.ordinal := by
  have hmono : StrictMono unitsOfOrdinal := fun _ _ => unitsOfOrdinal_lt
  rw [units_eq, units_eq, hmono.lt_iff_lt]

/-! ## Finite numbers -/

/-- The place lies before the infinities. -/
def Finite (x : Double) : Prop := x.isFinite = true

instance (x : Double) : Decidable x.Finite := inferInstanceAs (Decidable (x.isFinite = true))

/-- The finite numbers are those whose place is before `infinityMagnitude` on either side. -/
theorem finite_iff {x : Double} : x.Finite ↔ x.ordinal.natAbs < infinityMagnitude := by
  rw [Finite, isFinite, natAbs_ordinal, decide_eq_true_eq]

theorem finite_zero : (0 : Double).Finite := rfl

theorem ordinal_zero : (0 : Double).ordinal = 0 := rfl

namespace Finite

variable {x y : Double}

/-- A `Finite` number is no NaN. -/
theorem isNaN_eq_false (hx : x.Finite) : x.isNaN = false := by
  have := finite_iff.mp hx
  rw [natAbs_ordinal] at this
  simp only [isNaN, decide_eq_false_iff_not]
  omega

/-- A `Finite` number is no infinity. -/
theorem isInfinite_eq_false (hx : x.Finite) : x.isInfinite = false := by
  have := finite_iff.mp hx
  rw [natAbs_ordinal] at this
  simp only [isInfinite, beq_eq_false_iff_ne]
  omega

/-- What lies between `Finite` numbers is finite. -/
theorem of_le_of_le {low high : Double} (hlow : low.Finite) (hhigh : high.Finite)
    (h : low.ordinal ≤ x.ordinal) (h' : x.ordinal ≤ high.ordinal) : x.Finite := by
  rw [finite_iff] at *
  omega

/-- `Finite` does not look at the sign. -/
theorem neg (hx : x.Finite) : (-x).Finite := hx

/-- `Double.abs` keeps finite numbers finite. -/
theorem abs (hx : x.Finite) : x.abs.Finite := hx

/-- `Finite` numbers are compared by their places. -/
theorem lt_iff (hx : x.Finite) (hy : y.Finite) : x < y ↔ x.ordinal < y.ordinal := by
  show x.lt y = true ↔ _
  simp [lt, hx.isNaN_eq_false, hy.isNaN_eq_false]

/-- Finite numbers are compared by their places, also for `≤`. -/
theorem le_iff (hx : x.Finite) (hy : y.Finite) : x ≤ y ↔ x.ordinal ≤ y.ordinal := by
  show x.le y = true ↔ _
  simp [le, hx.isNaN_eq_false, hy.isNaN_eq_false]

/-- `Finite` numbers are numerically equal if they share a place. -/
theorem beq_iff (hx : x.Finite) (hy : y.Finite) : (x == y) = true ↔ x.ordinal = y.ordinal := by
  show x.numericEq y = true ↔ _
  simp [numericEq, hx.isNaN_eq_false, hy.isNaN_eq_false]

end Finite

/-- Numbers that compare at all do so by their `ordinal`. -/
theorem ordinal_le_of_le {x y : Double} (h : x ≤ y) : x.ordinal ≤ y.ordinal := by
  have h' : x.le y = true := h
  simp only [le, Bool.and_eq_true, decide_eq_true_eq] at h'
  exact h'.2

/-- The negative of a number has the opposite `ordinal`. -/
@[simp] theorem ordinal_neg (x : Double) : (-x).ordinal = -x.ordinal := by
  show x.neg.ordinal = _
  unfold ordinal Double.neg
  cases x.negative <;> simp

/-- The negative of a number has the opposite `units`. -/
@[simp] theorem units_neg (x : Double) : (-x).units = -x.units := by
  show x.neg.units = _
  unfold units Double.neg
  cases x.negative <;> simp

/-- `Double.abs` moves a number to the upper side of the line. -/
theorem ordinal_abs (x : Double) : x.abs.ordinal = x.ordinal.natAbs := by
  rw [natAbs_ordinal]
  rfl

/-- Without a minus sign, the `ordinal` is the magnitude. -/
theorem ordinal_of_nonneg {x : Double} (h : x.negative = false) : x.ordinal = x.magnitude := by simp [ordinal, h]

/-- A number that is not larger than `y`, signs apart, has no larger magnitude. -/
theorem magnitude_le_of_abs_le {x y : Double} (hy : y.negative = false) (h : x.abs ≤ y) :
    x.magnitude ≤ y.magnitude := by
  have hle := ordinal_le_of_le h
  rw [ordinal_abs, natAbs_ordinal, ordinal_of_nonneg hy] at hle
  omega

/-- A number that is not smaller than `y`, signs apart, has no smaller magnitude. -/
theorem magnitude_le_of_le_abs {x y : Double} (hy : y.negative = false) (h : y ≤ x.abs) :
    y.magnitude ≤ x.magnitude := by
  have hle := ordinal_le_of_le h
  rw [ordinal_abs, natAbs_ordinal, ordinal_of_nonneg hy] at hle
  omega

/-! ## What is rounded -/

/-- The place to which a quotient of units is rounded. -/
def roundedOrdinal (n : Int) (d : Nat) : Int :=
  if n < 0 then -(nearestMagnitude n.natAbs d : Int) else nearestMagnitude n.natAbs d

/-- The place of a rounded quotient is `roundedOrdinal`, if its sign is that of the numerator. -/
theorem ordinal_ofRatio {n : Int} {negative : Bool} (h : n ≠ 0 → negative = decide (n < 0)) (d : Nat) :
    (ofRatio negative n.natAbs d).ordinal = roundedOrdinal n d := by
  unfold ordinal roundedOrdinal ofRatio
  by_cases hn : n = 0
  · subst hn
    cases negative <;> simp
  · rw [h hn]
    simp

/-- `roundedOrdinal` treats both signs alike. -/
theorem roundedOrdinal_neg (n : Int) (d : Nat) : roundedOrdinal (-n) d = -roundedOrdinal n d := by
  unfold roundedOrdinal
  rw [Int.natAbs_neg]
  obtain h | rfl | h := lt_trichotomy n 0
  · rw [if_neg (by omega), if_pos h, neg_neg]
  · simp
  · rw [if_pos (by omega), if_neg (by omega)]

/-- `roundedOrdinal` keeps the order of the numerators. -/
theorem roundedOrdinal_mono {m n : Int} {d : Nat} (hd : 0 < d) (h : m ≤ n) :
    roundedOrdinal m d ≤ roundedOrdinal n d := by
  have hmagnitude (a b : Nat) (hab : a ≤ b) : nearestMagnitude a d ≤ nearestMagnitude b d :=
    nearestMagnitude_mono hd hd (Nat.mul_le_mul_right d hab)
  unfold roundedOrdinal
  -- Below zero the order of the magnitudes turns round; across zero there is nothing to compare.
  split
  · split
    · have := hmagnitude n.natAbs m.natAbs (by omega)
      omega
    · omega
  · rw [if_neg (by omega)]
    have := hmagnitude m.natAbs n.natAbs (by omega)
    omega

/-- `roundedOrdinal` keeps the sign of a whole number of units, as it is never rounded to zero. -/
theorem roundedOrdinal_pos_iff {n : Int} : 0 < roundedOrdinal n 1 ↔ 0 < n := by
  unfold roundedOrdinal
  split
  · omega
  · constructor
    · intro h
      by_contra hn
      rw [show n = 0 by omega] at h
      simp at h
    · intro h
      have := nearestMagnitude_pos (show 0 < n.natAbs by omega)
      omega

/-- `roundedOrdinal` rounds the units of a finite number to the number. -/
theorem roundedOrdinal_units {x : Double} (hx : x.Finite) : roundedOrdinal x.units 1 = x.ordinal := by
  have hmagnitude := natAbs_ordinal x
  have hfinite := finite_iff.mp hx
  have hexact := nearestMagnitude_unitsOfMagnitude hfinite
  rw [units_eq, unitsOfOrdinal, roundedOrdinal]
  split
  · rename_i hnegative
    have hpos := unitsOfMagnitude_strictMono (show 0 < x.ordinal.natAbs by omega)
    rw [unitsOfMagnitude_zero] at hpos
    rw [if_pos (by omega), Int.natAbs_neg, Int.natAbs_natCast, hexact]
    omega
  · rw [if_neg (by omega), Int.natAbs_natCast, hexact]
    omega

/-! ## Differences -/

section Sub

variable {x y x' y' : Double}

/-- The `ordinal` of a difference is the exact difference of the units, rounded once. -/
theorem ordinal_sub (hx : x.Finite) (hy : y.Finite) :
    (x - y).ordinal = roundedOrdinal (x.units - y.units) 1 := by
  have hinfinite : y.neg.isInfinite = false := hy.isInfinite_eq_false
  have hunits : y.neg.units = -y.units := units_neg y
  show (x.sub y).ordinal = _
  rw [sub, hx.isNaN_eq_false, hy.isNaN_eq_false, addNumbers, hx.isInfinite_eq_false, hinfinite, hunits,
    ← Int.sub_eq_add_neg]
  simp only [Bool.false_eq_true, if_false]
  split
  · -- An exact zero has a sign of its own, which the place does not show.
    rename_i hzero
    rw [hzero]
    cases (x.negative && y.neg.negative) <;> rfl
  · exact ordinal_ofRatio (fun _ => rfl) 1

/-- `y - x` has the opposite place of `x - y`. -/
theorem ordinal_sub_comm (hx : x.Finite) (hy : y.Finite) :
    (y - x).ordinal = -(x - y).ordinal := by
  rw [ordinal_sub hx hy, ordinal_sub hy hx, ← roundedOrdinal_neg, Int.neg_sub]

/-- Taking zero away keeps the `ordinal`. -/
theorem ordinal_sub_zero (hx : x.Finite) : (x - 0).ordinal = x.ordinal := by
  have hzero : (0 : Double).units = 0 := rfl
  rw [ordinal_sub hx finite_zero, hzero, Int.sub_zero, roundedOrdinal_units hx]

/-- Differences grow in `ordinal` with the first number and with the second one falling. -/
theorem sub_le_sub (hx : x.Finite) (hy : y.Finite) (hx' : x'.Finite) (hy' : y'.Finite)
    (h : x.ordinal ≤ x'.ordinal) (h' : y'.ordinal ≤ y.ordinal) :
    (x - y).ordinal ≤ (x' - y').ordinal := by
  rw [ordinal_sub hx hy, ordinal_sub hx' hy']
  have := units_le_units_iff.mpr h
  have := units_le_units_iff.mpr h'
  exact roundedOrdinal_mono Nat.one_pos (by omega)

/-- A difference is positive exactly if the first number is larger: rounding does not make it
    vanish. -/
theorem sub_pos_iff (hx : x.Finite) (hy : y.Finite) :
    0 < (x - y).ordinal ↔ y.ordinal < x.ordinal := by
  rw [ordinal_sub hx hy, roundedOrdinal_pos_iff, ← units_lt_units_iff]
  omega

/-- A difference is negative exactly if the first number is smaller. -/
theorem sub_neg_iff (hx : x.Finite) (hy : y.Finite) :
    (x - y).ordinal < 0 ↔ x.ordinal < y.ordinal := by
  have hcomm := ordinal_sub_comm hx hy
  rw [← sub_pos_iff hy hx]
  omega

end Sub

/-! ## Quotients and integers -/

section Div

variable {x x' y : Double}

/-- The `ordinal` of a quotient by a positive number is the exact quotient of the units, rounded
    once. -/
theorem ordinal_div (hx : x.Finite) (hy : y.Finite) (hpos : 0 < y.ordinal) :
    (x / y).ordinal = roundedOrdinal (x.units * unitsPerOne) y.units.natAbs := by
  have hmagnitude := natAbs_ordinal y
  -- The divisor has no minus sign and is no zero, so the division is not refused.
  have hnegative : y.negative = false := by
    by_contra hnegative
    rw [Bool.not_eq_false] at hnegative
    rw [ordinal, if_pos hnegative] at hpos
    omega
  have hzero : y.isZero = false := beq_eq_false_iff_ne.mpr (by omega)
  show (x.div y).ordinal = _
  rw [div, hx.isNaN_eq_false, hy.isNaN_eq_false, hx.isInfinite_eq_false, hy.isInfinite_eq_false, hzero,
    hnegative, Bool.bne_false]
  simp only [Bool.false_eq_true, if_false]
  rw [show x.units.natAbs * unitsPerOne = (x.units * (unitsPerOne : Int)).natAbs by
    rw [Int.natAbs_mul, Int.natAbs_natCast]]
  -- The quotient has the sign of the dividend, unless it is a zero.
  refine ordinal_ofRatio (fun hne => ?_) _
  have hunits : (0 : Int) < unitsPerOne := Int.natCast_pos.mpr (powerOfTwo_pos 1074)
  have hne' : x.units ≠ 0 := left_ne_zero_of_mul hne
  have hsign : x.units * unitsPerOne < 0 ↔ x.units < 0 := by
    constructor
    · intro h
      by_contra hnonneg
      have := Int.mul_nonneg (show 0 ≤ x.units by omega) hunits.le
      omega
    · intro h
      exact Int.mul_neg_of_neg_of_pos h hunits
  rw [Bool.eq_iff_iff, decide_eq_true_eq, hsign]
  unfold units at hne' ⊢
  cases hsign' : x.negative with
  | false => simp
  | true =>
    simp [hsign'] at hne' ⊢
    omega

/-- Quotients by the same positive number keep the order. -/
theorem div_le_div (hx : x.Finite) (hx' : x'.Finite) (hy : y.Finite) (hpos : 0 < y.ordinal)
    (h : x.ordinal ≤ x'.ordinal) : (x / y).ordinal ≤ (x' / y).ordinal := by
  rw [ordinal_div hx hy hpos, ordinal_div hx' hy hpos]
  have hunits : 0 < y.units := by
    have hlt := units_lt_units_iff (x := 0) (y := y) |>.mpr hpos
    exact hlt
  refine roundedOrdinal_mono (by omega) ?_
  exact Int.mul_le_mul_of_nonneg_right (units_le_units_iff.mpr h) (Int.natCast_nonneg _)

/-- `Double.ceil` keeps the order. -/
theorem ceil_le_ceil (h : x.ordinal ≤ x'.ordinal) : x.ceil ≤ x'.ceil := by
  unfold ceil
  have hunits := units_le_units_iff.mpr h
  have hquotient : -x'.units / (unitsPerOne : Int) ≤ -x.units / (unitsPerOne : Int) :=
    Int.ediv_le_ediv (Int.natCast_pos.mpr (powerOfTwo_pos 1074)) (by omega)
  omega

end Div

end Double

end Georef

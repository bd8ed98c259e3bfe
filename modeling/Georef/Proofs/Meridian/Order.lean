import Georef.Meridian.Basic
import Georef.Proofs.Double.Order
import Mathlib.Logic.Lemmas

/-!
# How directions along a meridian compare

Two directions with the same base compare by the angle between them: the rounded difference of their
meridians, brought back by whole turns. So the comparison depends on the place of that difference alone, and
the theory looks at nothing else. Where the place decides is read off a few angles around half a turn, and
everything between them follows because rounding keeps the order.

The comparison is not an order. Directions half a turn apart each come before the other (or, one bit short
of it and seen from the south, none does), the two spellings of the antimeridian are balanced without being
the same, and three directions that surround the pole come each before the next. Elsewhere it is one.

## Key results

- `turn_low`, `turn_middle`, `turn_high`: the normalized angle by the place of the difference
- `Accepted.compare_of_base_eq`: the comparison by the place of the difference
- `Accepted.orderFromNorth_trans`: three meridians, and which of the short ways cross the antimeridian
- `compare_order`: where the comparison is an order, and where it is not
-/

namespace Georef

open Double

namespace MeridianDirection

/-! ## Places of the line -/

/-- The place of half a turn, 180 degrees. -/
def halfTurn : Int := 4640537203540230144

/-- The place of a full turn, 360 degrees. -/
def fullTurn : Int := 4645040803167600640

/-- A half turn ends before a full one, by more than the two bits that matter around it. -/
theorem halfTurn_lt_fullTurn : 2 < halfTurn ∧ halfTurn < fullTurn := by decide

/-- The `ordinal` of a full turn and of half a turn, with the angles beside it. -/
theorem ordinal_angles : (360.0 : Double).ordinal = fullTurn ∧ (180.0 : Double).ordinal = halfTurn ∧
    (180.00000000000003 : Double).ordinal = halfTurn + 1 ∧
    (179.99999999999997 : Double).ordinal = halfTurn - 1 ∧
    (179.99999999999994 : Double).ordinal = halfTurn - 2 := by
  decide +kernel

/-- The `ordinal` of 360 degrees. -/
theorem ordinal_fullTurn : (360.0 : Double).ordinal = fullTurn := ordinal_angles.1

/-- The `ordinal` of 180 degrees. -/
theorem ordinal_halfTurn : (180.0 : Double).ordinal = halfTurn := ordinal_angles.2.1

/-- The `ordinal` of `leastLongitude`. -/
theorem ordinal_leastLongitude : leastLongitude.ordinal = -halfTurn := by
  rw [leastLongitude, ordinal_neg, ordinal_halfTurn]

/-- The `ordinal` of `greatestLongitude`. -/
theorem ordinal_greatestLongitude : greatestLongitude.ordinal = halfTurn := ordinal_halfTurn

/-- Angles of a full turn at most are finite. -/
theorem finite_of_le_fullTurn {angle : Double} (h : angle.ordinal.natAbs ≤ fullTurn) : angle.Finite := by
  have hbound : fullTurn < infinityMagnitude := by decide
  rw [finite_iff]
  omega

/-- 180 degrees are `Finite`. -/
theorem finite_halfTurn : (180.0 : Double).Finite :=
  finite_of_le_fullTurn (by rw [ordinal_halfTurn]; decide)

/-- 360 degrees are `Finite`. -/
theorem finite_fullTurn : (360.0 : Double).Finite :=
  finite_of_le_fullTurn (by rw [ordinal_fullTurn]; decide)

/-- `leastLongitude` is `Finite`. -/
theorem finite_leastLongitude : leastLongitude.Finite := finite_halfTurn.neg

/-- `greatestLongitude` is `Finite`. -/
theorem finite_greatestLongitude : greatestLongitude.Finite := finite_halfTurn

/-! ## Whole turns -/

/-- By how many whole turns `normalizeAngle` brings an angle back. -/
def wholeTurns (angle : Double) : Int := ((angle - (180.0 : Double)) / (360.0 : Double)).ceil

/-- `normalizeAngle` takes `wholeTurns` away. -/
theorem normalizeAngle_eq (angle : Double) :
    normalizeAngle angle = angle - (360.0 : Double) * Double.ofInt (wholeTurns angle) := rfl

/-- At the ends of three ranges, `wholeTurns` and what they take away. -/
theorem wholeTurns_ends :
    (wholeTurns (-(360.0 : Double)) = -1 ∧ wholeTurns (-(179.99999999999997 : Double)) = -1 ∧
      (360.0 : Double) * Double.ofInt (-1) = -(360.0 : Double)) ∧
    (wholeTurns (-(179.99999999999994 : Double)) = 0 ∧ wholeTurns (180.0 : Double) = 0 ∧
      (360.0 : Double) * Double.ofInt 0 = 0) ∧
    wholeTurns (180.00000000000003 : Double) = 1 ∧ wholeTurns (360.0 : Double) = 1 ∧
      (360.0 : Double) * Double.ofInt 1 = (360.0 : Double) := by
  decide +kernel

/-- The `ordinal` of the differences between some angles. -/
theorem ordinal_differences :
    ((180.0 : Double) - -(180.0 : Double)).ordinal = fullTurn ∧
    (-(180.00000000000003 : Double) - -(360.0 : Double)).ordinal = halfTurn - 1 ∧
    (-(180.0 : Double) - -(360.0 : Double)).ordinal = halfTurn ∧
    (-(179.99999999999997 : Double) - -(360.0 : Double)).ordinal = halfTurn + 1 ∧
    ((180.00000000000003 : Double) - 360.0).ordinal = 1 - halfTurn ∧
    ((360.0 : Double) - 180.0).Finite ∧ (-(360.0 : Double) - 180.0).Finite := by
  decide +kernel

/-- The `wholeTurns` of an angle between two others are no fewer than those of the one and no more
    than those of the other. -/
theorem wholeTurns_between {low high d : Double} (hlow : -fullTurn ≤ low.ordinal)
    (hhigh : high.ordinal ≤ fullTurn) (h : low.ordinal ≤ d.ordinal) (h' : d.ordinal ≤ high.ordinal) :
    wholeTurns low ≤ wholeTurns d ∧ wholeTurns d ≤ wholeTurns high := by
  have hpos : 0 < (360.0 : Double).ordinal := by rw [ordinal_fullTurn]; decide
  -- Neither the angles nor what is divided overflows, as no difference is wider than those at the
  -- ends.
  have hfinite {x : Double} (hx : -fullTurn ≤ x.ordinal) (hx' : x.ordinal ≤ fullTurn) :
      x.Finite ∧ (x - 180.0).Finite := by
    obtain ⟨-, -, -, -, -, hgreatest, hleast⟩ := ordinal_differences
    have hplace := ordinal_fullTurn
    have hplace' := ordinal_neg (360.0 : Double)
    have hx'' : x.Finite := finite_of_le_fullTurn (by omega)
    exact ⟨hx'', .of_le_of_le hleast hgreatest
      (sub_le_sub finite_fullTurn.neg finite_halfTurn hx'' finite_halfTurn (by omega) le_rfl)
      (sub_le_sub hx'' finite_halfTurn finite_fullTurn finite_halfTurn (by omega) le_rfl)⟩
  obtain ⟨hlowFinite, hlow'⟩ := hfinite hlow (by omega)
  obtain ⟨hhighFinite, hhigh'⟩ := hfinite (by omega) hhigh
  obtain ⟨hd, hd'⟩ := hfinite (hlow.trans h) (h'.trans hhigh)
  -- Subtraction, division and the ceiling keep the order one after the other.
  have hbelow := sub_le_sub hlowFinite finite_halfTurn hd finite_halfTurn h le_rfl
  have habove := sub_le_sub hd finite_halfTurn hhighFinite finite_halfTurn h' le_rfl
  exact ⟨ceil_le_ceil (div_le_div hlow' hd' finite_fullTurn hpos hbelow),
    ceil_le_ceil (div_le_div hd' hhigh' finite_fullTurn hpos habove)⟩

/-- Two angles with the same `wholeTurns` leave no other choice to what lies between. -/
theorem normalizeAngle_between {low high back d : Double} {turns : Int} (hlow : -fullTurn ≤ low.ordinal)
    (hhigh : high.ordinal ≤ fullTurn)
    (hturns : wholeTurns low = turns ∧ wholeTurns high = turns ∧
      (360.0 : Double) * Double.ofInt turns = back)
    (h : low.ordinal ≤ d.ordinal) (h' : d.ordinal ≤ high.ordinal) : normalizeAngle d = d - back := by
  obtain ⟨hfirst, hlast, hback⟩ := hturns
  obtain ⟨hge, hle⟩ := wholeTurns_between hlow hhigh h h'
  have hturns : wholeTurns d = turns := by omega
  rw [normalizeAngle_eq, hturns, hback]

section Turn

variable {d : Double}

/-- An angle of minus half a turn or less, or right after it: `normalizeAngle` brings it back by a
    turn upwards. -/
theorem turn_low (h : -fullTurn ≤ d.ordinal) (h' : d.ordinal ≤ 1 - halfTurn) :
    (normalizeAngle d).Finite ∧ 0 ≤ (normalizeAngle d).ordinal ∧
      (0 < (normalizeAngle d).ordinal ↔ -fullTurn < d.ordinal) ∧
      ((normalizeAngle d).ordinal = halfTurn ↔ d.ordinal = -halfTurn) := by
  have hturns := halfTurn_lt_fullTurn
  obtain ⟨hfull, hhalf, habove, hbelow, -⟩ := ordinal_angles
  have hlow : (-(360.0 : Double)).ordinal = -fullTurn := by rw [ordinal_neg, hfull]
  have hbefore : (-(180.00000000000003 : Double)).ordinal = -halfTurn - 1 := by rw [ordinal_neg]; omega
  have hat : (-(180.0 : Double)).ordinal = -halfTurn := by rw [ordinal_neg, hhalf]
  have hafter : (-(179.99999999999997 : Double)).ordinal = 1 - halfTurn := by rw [ordinal_neg]; omega
  have hlowFinite := finite_fullTurn.neg
  have hbeforeFinite : (-(180.00000000000003 : Double)).Finite := finite_of_le_fullTurn (by omega)
  have hatFinite := finite_halfTurn.neg
  have hafterFinite : (-(179.99999999999997 : Double)).Finite := finite_of_le_fullTurn (by omega)
  have hd : d.Finite := finite_of_le_fullTurn (by omega)
  obtain ⟨-, hturnedBefore, hturnedAt, hturnedAfter, -⟩ := ordinal_differences
  -- From a full turn to right after half a turn it is one and the same turn.
  rw [normalizeAngle_between hlow.ge (by omega) wholeTurns_ends.1 (hlow.le.trans h) (h'.trans hafter.ge)]
  have hpos := sub_pos_iff hd hlowFinite
  have hneg := sub_neg_iff hd hlowFinite
  rw [hlow] at hpos hneg
  have hgreatest := sub_le_sub hd hlowFinite hafterFinite hlowFinite (h'.trans hafter.ge) le_rfl
  refine ⟨finite_of_le_fullTurn (by omega), by omega, hpos, ?_⟩
  -- Only the three angles around minus half a turn come near half a turn.
  obtain hlt | heq | hgt := lt_trichotomy d.ordinal (-halfTurn)
  · have := sub_le_sub hd hlowFinite hbeforeFinite hlowFinite (by omega) le_rfl
    omega
  · have := sub_le_sub hd hlowFinite hatFinite hlowFinite (by omega) le_rfl
    have := sub_le_sub hatFinite hlowFinite hd hlowFinite (by omega) le_rfl
    omega
  · have := sub_le_sub hafterFinite hlowFinite hd hlowFinite (by omega) le_rfl
    omega

/-- An angle up to half a turn: `normalizeAngle` keeps it. -/
theorem turn_middle (h : 2 - halfTurn ≤ d.ordinal) (h' : d.ordinal ≤ halfTurn) :
    (normalizeAngle d).Finite ∧ (normalizeAngle d).ordinal = d.ordinal := by
  have hturns := halfTurn_lt_fullTurn
  obtain ⟨-, hhigh, -, -, hbelow⟩ := ordinal_angles
  have hlow : (-(179.99999999999994 : Double)).ordinal = 2 - halfTurn := by rw [ordinal_neg]; omega
  have hd : d.Finite := finite_of_le_fullTurn (by omega)
  rw [normalizeAngle_between (by omega) (by omega) wholeTurns_ends.2.1 (hlow.le.trans h)
    (h'.trans hhigh.ge), finite_iff, ordinal_sub_zero hd, ← finite_iff]
  exact ⟨hd, rfl⟩

/-- An angle above half a turn: `normalizeAngle` brings it back by a turn downwards. -/
theorem turn_high (h : halfTurn < d.ordinal) (h' : d.ordinal ≤ fullTurn) :
    (normalizeAngle d).Finite ∧ (normalizeAngle d).ordinal ≤ 0 ∧
      ((normalizeAngle d).ordinal < 0 ↔ d.ordinal < fullTurn) := by
  have hturns := halfTurn_lt_fullTurn
  obtain ⟨hhigh, -, hlow, -, -⟩ := ordinal_angles
  have hlowFinite : (180.00000000000003 : Double).Finite := finite_of_le_fullTurn (by omega)
  have hhighFinite := finite_fullTurn
  have hd : d.Finite := finite_of_le_fullTurn (by omega)
  obtain ⟨-, -, -, -, hturned, -⟩ := ordinal_differences
  -- From right above half a turn to a full turn it is one and the same turn.
  rw [normalizeAngle_between (by omega) hhigh.le wholeTurns_ends.2.2 (hlow.le.trans h) (h'.trans hhigh.ge)]
  have hpos := sub_pos_iff hd hhighFinite
  have hneg := sub_neg_iff hd hhighFinite
  rw [hhigh] at hpos hneg
  have hleast := sub_le_sub hlowFinite hhighFinite hd hhighFinite (hlow.le.trans h) le_rfl
  exact ⟨finite_of_le_fullTurn (by omega), by omega, hneg⟩

/-! ## The order of two directions -/

/-- Which of two directions comes first seen from the north, by the place of the difference of their
    meridians. -/
def orderFromNorth (place : Int) : Ordering :=
  if place = 0 ∨ place.natAbs = fullTurn then .eq
  else if (0 < place ∧ place ≤ halfTurn) ∨ place ≤ 1 - halfTurn then .lt
  else .gt

/-- Seen from the south the order is opposite to `orderFromNorth`, except between directions half a
    turn apart. -/
def orderFromSouth (place : Int) : Ordering :=
  if place.natAbs = halfTurn then .lt else (orderFromNorth place).swap

/-- The order of two directions with a base, by the place of the difference of their meridians. -/
def orderFrom (base : Direction) (place : Int) : Ordering :=
  if base.isOpposite then orderFromSouth place else orderFromNorth place

/-- The sign of the normalized angle is what `orderFromNorth` says of the place of the angle. -/
theorem normalizeAngle_sign (h : d.ordinal.natAbs ≤ fullTurn) :
    (normalizeAngle d).Finite ∧ Ord.compare 0 (normalizeAngle d).ordinal = orderFromNorth d.ordinal ∧
      ((normalizeAngle d).ordinal = halfTurn ↔ d.ordinal.natAbs = halfTurn) := by
  obtain ⟨hhalf, hfull⟩ := halfTurn_lt_fullTurn
  unfold orderFromNorth
  -- One case for each number of turns; there is no place between the first two.
  obtain hlow | ⟨hlow, hhigh⟩ | hhigh : d.ordinal ≤ 1 - halfTurn ∨
      (2 - halfTurn ≤ d.ordinal ∧ d.ordinal ≤ halfTurn) ∨ halfTurn < d.ordinal := by omega
  · obtain ⟨hfinite, hnonneg, hpos, heq⟩ := turn_low (by omega) hlow
    refine ⟨hfinite, ?_, by omega⟩
    split_ifs
    · exact compare_eq_iff_eq.mpr (by omega)
    · exact compare_lt_iff_lt.mpr (by omega)
    · omega
  · obtain ⟨hfinite, hsame⟩ := turn_middle hlow hhigh
    refine ⟨hfinite, ?_, by omega⟩
    split_ifs
    · exact compare_eq_iff_eq.mpr (by omega)
    · exact compare_lt_iff_lt.mpr (by omega)
    · exact compare_gt_iff_gt.mpr (by omega)
  · obtain ⟨hfinite, hnonpos, hneg⟩ := turn_high hhigh (by omega)
    refine ⟨hfinite, ?_, by omega⟩
    split_ifs
    · exact compare_eq_iff_eq.mpr (by omega)
    · omega
    · exact compare_gt_iff_gt.mpr (by omega)

end Turn

/-- The comparison of an angle with zero is that of its `ordinal`. -/
theorem order_of_angle {angle : Double} (h : angle.Finite) :
    (if angle < (0 : Double) then Ordering.gt else if (0 : Double) < angle then .lt else .eq) =
      Ord.compare 0 angle.ordinal := by
  simp only [h.lt_iff finite_zero, finite_zero.lt_iff h, ordinal_zero]
  split_ifs
  · exact (compare_gt_iff_gt.mpr (by omega)).symm
  · exact (compare_lt_iff_lt.mpr (by omega)).symm
  · exact (compare_eq_iff_eq.mpr (by omega)).symm

/-- The opposite number compares with zero the opposite way. -/
theorem compare_zero_neg (n : Int) : Ord.compare 0 (-n) = (Ord.compare 0 n).swap := by
  obtain hlt | rfl | hgt := lt_trichotomy n 0
  · rw [compare_lt_iff_lt.mpr (show 0 < -n by omega), compare_gt_iff_gt.mpr (show 0 > n by omega)]
    rfl
  · rfl
  · rw [compare_gt_iff_gt.mpr (show 0 > -n by omega), compare_lt_iff_lt.mpr (show 0 < n by omega)]
    rfl

/-! ## Gaps between meridians -/

/-- What `create` accepts: the base is north or south and the longitude is in range. -/
structure Accepted (m : MeridianDirection) : Prop where
  base : m.base = .north ∨ m.base = .south
  range : inRange m.meridian = true

/-- The place of the difference of two meridians. -/
def gap (m other : MeridianDirection) : Int := (m.meridian - other.meridian).ordinal

namespace Accepted

variable {a b c : MeridianDirection}

/-- A longitude of what is `Accepted` is half a turn at most. -/
theorem ordinal_natAbs_le (ha : a.Accepted) : a.meridian.ordinal.natAbs ≤ halfTurn := by
  have hlow := ordinal_leastLongitude
  have hhigh := ordinal_greatestLongitude
  have hrange := ha.range
  rw [inRange, Bool.and_eq_true, decide_eq_true_eq, decide_eq_true_eq] at hrange
  have := ordinal_le_of_le hrange.1
  have := ordinal_le_of_le hrange.2
  omega

/-- A longitude of what is `Accepted` is `Finite`. -/
theorem finite (ha : a.Accepted) : a.meridian.Finite := by
  have := ha.ordinal_natAbs_le
  have := halfTurn_lt_fullTurn
  exact finite_of_le_fullTurn (by omega)

/-- A `gap` is a full turn at most. -/
theorem gap_bounds (ha : a.Accepted) (hb : b.Accepted) :
    (a.meridian - b.meridian).Finite ∧ (a.gap b).natAbs ≤ fullTurn := by
  -- The two ends of the range are a full turn apart, and no other difference is wider.
  have hwest := finite_leastLongitude
  have heast := finite_greatestLongitude
  have hplaces := And.intro ordinal_leastLongitude ordinal_greatestLongitude
  have hends : (greatestLongitude - leastLongitude).ordinal = fullTurn := ordinal_differences.1
  have hends' := ordinal_sub_comm heast hwest
  have := ha.ordinal_natAbs_le
  have := hb.ordinal_natAbs_le
  have hleast := sub_le_sub hwest heast ha.finite hb.finite (by omega) (by omega)
  have hgreatest := sub_le_sub ha.finite hb.finite heast hwest (by omega) (by omega)
  have hgap : (a.gap b).natAbs ≤ fullTurn := by
    unfold gap
    omega
  exact ⟨finite_of_le_fullTurn hgap, hgap⟩

/-- The `gap` the other way is the opposite one. -/
theorem gap_comm (ha : a.Accepted) (hb : b.Accepted) : b.gap a = -a.gap b :=
  ordinal_sub_comm ha.finite hb.finite

/-- The `gap` is positive exactly if the first meridian is further east. -/
theorem gap_pos_iff (ha : a.Accepted) (hb : b.Accepted) :
    0 < a.gap b ↔ b.meridian.ordinal < a.meridian.ordinal :=
  sub_pos_iff ha.finite hb.finite

/-- The `gap` is negative exactly if the first meridian is further west. -/
theorem gap_neg_iff (ha : a.Accepted) (hb : b.Accepted) :
    a.gap b < 0 ↔ a.meridian.ordinal < b.meridian.ordinal :=
  sub_neg_iff ha.finite hb.finite

/-- A first meridian further east has a greater `gap`. -/
theorem gap_le_of_le_left (ha : a.Accepted) (hb : b.Accepted) (hc : c.Accepted)
    (h : a.meridian.ordinal ≤ b.meridian.ordinal) : a.gap c ≤ b.gap c :=
  sub_le_sub ha.finite hc.finite hb.finite hc.finite h le_rfl

/-- A second meridian further east has a smaller `gap`. -/
theorem gap_le_of_le_right (ha : a.Accepted) (hb : b.Accepted) (hc : c.Accepted)
    (h : b.meridian.ordinal ≤ c.meridian.ordinal) : a.gap c ≤ a.gap b :=
  sub_le_sub ha.finite hc.finite ha.finite hb.finite le_rfl h

/-- From the meridian of Greenwich no meridian is more than half a turn away. -/
theorem gap_of_nonneg (ha : a.Accepted) (hb : b.Accepted) (h : 0 ≤ a.meridian.ordinal) :
    -halfTurn ≤ a.gap b := by
  have heast := finite_greatestLongitude
  have hplaces := And.intro ordinal_zero ordinal_greatestLongitude
  have hend := ordinal_sub_zero heast
  have hend' := ordinal_sub_comm heast finite_zero
  have := hb.ordinal_natAbs_le
  have := sub_le_sub finite_zero heast ha.finite hb.finite (by omega) (by omega)
  unfold gap
  omega

theorem gap_of_nonpos (ha : a.Accepted) (hb : b.Accepted) (h : b.meridian.ordinal ≤ 0) :
    -halfTurn ≤ a.gap b := by
  have hwest := finite_leastLongitude
  have hplaces := And.intro ordinal_zero ordinal_leastLongitude
  have hend := ordinal_sub_zero hwest
  have := ha.ordinal_natAbs_le
  have := sub_le_sub hwest finite_zero ha.finite hb.finite (by omega) (by omega)
  unfold gap
  omega

/-- Directions with the same base compare by the gap between them. -/
theorem compare_of_base_eq (ha : a.Accepted) (hb : b.Accepted) (h : a.base = b.base) :
    a.compare b = orderFrom a.base (a.gap b) := by
  obtain ⟨-, hbound⟩ := ha.gap_bounds hb
  obtain ⟨hturn, hsign, hhalf⟩ := normalizeAngle_sign hbound
  have hpositive : Ord.compare 0 greatestLongitude.ordinal = .lt := by
    rw [ordinal_greatestLongitude]
    decide
  -- What is opposite to half a turn is written as half a turn again.
  have hturned : (-normalizeAngle (a.meridian - b.meridian) == leastLongitude) = true ↔
      (a.gap b).natAbs = halfTurn := by
    rw [hturn.neg.beq_iff finite_leastLongitude, ordinal_neg, ordinal_leastLongitude, neg_inj]
    exact hhalf
  rw [MeridianDirection.compare, if_neg (not_not.mpr h)]
  simp only [angle, turnsHalf, if_neg (not_not.mpr h), beq_iff_eq.mpr h, Bool.true_and, orderFrom]
  cases a.base.isOpposite with
  | false =>
    simp only [Bool.false_and, Bool.false_eq_true, if_false]
    rw [order_of_angle hturn]
    exact hsign
  | true =>
    -- From the south the angle is turned round, except at half a turn.
    simp only [Bool.true_and, if_true, hturned, orderFromSouth]
    split
    · rw [order_of_angle finite_greatestLongitude, hpositive]
    · rw [order_of_angle hturn.neg, ordinal_neg, compare_zero_neg, hsign]
      rfl

/-- The bases are told apart by their `ordinal`. -/
theorem base_eq_iff (ha : a.Accepted) (hb : b.Accepted) :
    a.base = b.base ↔ a.base.ordinal = b.base.ordinal := by
  obtain hnorth | hsouth := ha.base <;> obtain hnorth' | hsouth' := hb.base <;>
    simp only [*] <;> decide

end Accepted

/-! ## Apart and around -/

/-- How many degrees two meridians are apart. -/
def apart (m other : MeridianDirection) : Double := (m.meridian - other.meridian).abs

/-- The meridians are half a turn apart, or all of it but the last bit. -/
def HalfTurnApart (m other : MeridianDirection) : Prop :=
  m.base = other.base ∧ (179.99999999999997 : Double) ≤ m.apart other ∧ m.apart other ≤ (180.0 : Double)

/-- The meridians are a full turn apart: both are the antimeridian, or one is its neighbour on the far
    side and the difference is rounded up. -/
def FullTurnApart (m other : MeridianDirection) : Prop :=
  m.base = other.base ∧ (m.apart other == (360.0 : Double)) = true

/-- The short way from one meridian to the other leads over the antimeridian. -/
def AcrossAntimeridian (m other : MeridianDirection) : Prop := (180.0 : Double) < m.apart other

/-- Neither half a turn nor a full turn apart. -/
def Distinguished (m other : MeridianDirection) : Prop :=
  ¬m.HalfTurnApart other ∧ ¬m.FullTurnApart other

/-- No half turn holds the three meridians: the short ways between them lead once around the pole, so
    one of them or all three cross the antimeridian. -/
def SurroundPole (a b c : MeridianDirection) : Prop :=
  a.base = b.base ∧ b.base = c.base ∧
    (a.AcrossAntimeridian b ↔ (b.AcrossAntimeridian c ↔ a.AcrossAntimeridian c))

instance (m other : MeridianDirection) : Decidable (m.HalfTurnApart other) :=
  inferInstanceAs (Decidable (_ ∧ _ ∧ _))

instance (m other : MeridianDirection) : Decidable (m.FullTurnApart other) :=
  inferInstanceAs (Decidable (_ ∧ _))

instance (m other : MeridianDirection) : Decidable (m.AcrossAntimeridian other) :=
  inferInstanceAs (Decidable (_ < _))

instance (m other : MeridianDirection) : Decidable (m.Distinguished other) :=
  inferInstanceAs (Decidable (_ ∧ _))

instance (a b c : MeridianDirection) : Decidable (SurroundPole a b c) :=
  inferInstanceAs (Decidable (_ ∧ _ ∧ (_ ↔ (_ ↔ _))))

section Places

variable {a b c : MeridianDirection}

/-- How far two meridians are apart, by their `gap`. -/
theorem apart_spec (ha : a.Accepted) (hb : b.Accepted) :
    (a.apart b).Finite ∧ (a.apart b).ordinal = (a.gap b).natAbs :=
  ⟨(ha.gap_bounds hb).1.abs, ordinal_abs _⟩

/-- `HalfTurnApart` by the `gap`. -/
theorem halfTurnApart_iff (ha : a.Accepted) (hb : b.Accepted) :
    a.HalfTurnApart b ↔
      a.base = b.base ∧ ((a.gap b).natAbs = halfTurn - 1 ∨ (a.gap b).natAbs = halfTurn) := by
  obtain ⟨-, hat, -, hbefore, -⟩ := ordinal_angles
  have hturns := halfTurn_lt_fullTurn
  have hbeforeFinite : (179.99999999999997 : Double).Finite := finite_of_le_fullTurn (by omega)
  obtain ⟨hfinite, hordinal⟩ := apart_spec ha hb
  rw [HalfTurnApart, hbeforeFinite.le_iff hfinite, hfinite.le_iff finite_halfTurn]
  refine and_congr_right fun _ => ?_
  omega

/-- `FullTurnApart` by the `gap`. -/
theorem fullTurnApart_iff (ha : a.Accepted) (hb : b.Accepted) :
    a.FullTurnApart b ↔ a.base = b.base ∧ (a.gap b).natAbs = fullTurn := by
  obtain ⟨hfinite, hordinal⟩ := apart_spec ha hb
  rw [FullTurnApart, hfinite.beq_iff finite_fullTurn, hordinal, ordinal_fullTurn]

/-- `AcrossAntimeridian` by the `gap`. -/
theorem acrossAntimeridian_iff (ha : a.Accepted) (hb : b.Accepted) :
    a.AcrossAntimeridian b ↔ halfTurn < (a.gap b).natAbs := by
  obtain ⟨hfinite, hordinal⟩ := apart_spec ha hb
  rw [AcrossAntimeridian, finite_halfTurn.lt_iff hfinite, hordinal, ordinal_halfTurn]

/-- `sameAs` by the `gap`. -/
theorem sameAs_iff (ha : a.Accepted) (hb : b.Accepted) :
    a.sameAs b = true ↔ a.base = b.base ∧ a.gap b = 0 := by
  rw [sameAs, Bool.and_eq_true, beq_iff_eq, ha.finite.beq_iff hb.finite]
  have := ha.gap_pos_iff hb
  have := ha.gap_neg_iff hb
  refine and_congr_right fun _ => ?_
  omega

/-- `precedes` is a comparison. -/
theorem precedes_iff : a.precedes b = true ↔ a.compare b = .lt := by
  rw [precedes, beq_iff_eq]

/-- `compare` of directions with different bases does not look at the meridians. -/
theorem compare_of_base_ne (h : a.base ≠ b.base) :
    a.compare b = if a.base.ordinal < b.base.ordinal then .lt else .gt := by
  rw [MeridianDirection.compare, if_pos h]

/-- What comes before another direction has no later base. -/
theorem base_ordinal_le_of_precedes (h : a.precedes b = true) : a.base.ordinal ≤ b.base.ordinal := by
  rw [precedes_iff] at h
  by_cases hbase : a.base = b.base
  · rw [hbase]
  · rw [compare_of_base_ne hbase] at h
    split at h
    · omega
    · cases h

end Places

/-! ## The order of places -/

section OrderOfPlaces

variable {p : Int}

/-- Where `orderFromNorth` is balanced. -/
theorem orderFromNorth_eq_eq_iff : orderFromNorth p = .eq ↔ p = 0 ∨ p.natAbs = fullTurn := by
  unfold orderFromNorth
  split_ifs <;> simp_all

/-- Where `orderFromNorth` puts the first direction first. -/
theorem orderFromNorth_eq_lt_iff (h : p.natAbs ≤ fullTurn) :
    orderFromNorth p = .lt ↔
      (0 < p ∧ p ≤ halfTurn) ∨ (-fullTurn < p ∧ p ≤ 1 - halfTurn) := by
  obtain ⟨hhalf, hfull⟩ := halfTurn_lt_fullTurn
  unfold orderFromNorth
  split_ifs
  · exact iff_of_false nofun (by omega)
  · exact iff_of_true rfl (by omega)
  · exact iff_of_false nofun (by omega)

/-- `orderFromNorth` is opposite at the opposite place, except around half a turn. -/
theorem orderFromNorth_neg (h : p.natAbs ≤ fullTurn) :
    orderFromNorth (-p) = (orderFromNorth p).swap ↔
      ¬(p.natAbs = halfTurn - 1 ∨ p.natAbs = halfTurn) := by
  obtain ⟨hhalf, hfull⟩ := halfTurn_lt_fullTurn
  unfold orderFromNorth
  split_ifs <;> simp only [Ordering.swap, reduceCtorEq, true_iff, false_iff] <;> omega

end OrderOfPlaces

section OrderFrom

variable {base : Direction} {p : Int}

/-- `orderFrom` is balanced where `orderFromNorth` is. -/
theorem orderFrom_eq_eq_iff : orderFrom base p = .eq ↔ p = 0 ∨ p.natAbs = fullTurn := by
  obtain ⟨hhalf, hfull⟩ := halfTurn_lt_fullTurn
  rw [← orderFromNorth_eq_eq_iff, orderFrom, orderFromSouth]
  split_ifs with hopposite habs
  · rw [orderFromNorth_eq_eq_iff]
    -- Half a turn is seen from the south as a direction that comes first.
    exact iff_of_false nofun (by omega)
  · exact Ordering.swap_eq_eq
  · rfl

/-- `orderFrom` is opposite at the opposite place, except around half a turn. -/
theorem orderFrom_neg (h : p.natAbs ≤ fullTurn) :
    orderFrom base (-p) = (orderFrom base p).swap ↔
      ¬(p.natAbs = halfTurn - 1 ∨ p.natAbs = halfTurn) := by
  have hnorth := orderFromNorth_neg h
  rw [← hnorth, orderFrom, orderFrom, orderFromSouth, orderFromSouth, Int.natAbs_neg]
  split_ifs with hopposite habs
  · exact iff_of_false nofun (hnorth.not.mpr (by omega))
  · exact Ordering.swap_inj
  · rfl

/-- Away from half a turn, `orderFromSouth` is `orderFromNorth` in a mirror. -/
theorem orderFrom_eq_lt_iff (h : p.natAbs ≤ fullTurn)
    (hhalf : ¬(p.natAbs = halfTurn - 1 ∨ p.natAbs = halfTurn)) :
    orderFrom base p = .lt ↔ orderFromNorth (if base.isOpposite then -p else p) = .lt := by
  rw [orderFrom]
  split_ifs with hopposite
  · rw [orderFromSouth, if_neg (by omega), (orderFromNorth_neg h).mpr hhalf]
  · rfl

end OrderFrom

/-! ## Where the comparison is an order -/

namespace Accepted

variable {a b c : MeridianDirection}

/-- Seen from the north, a direction before the next one before a third is before the third unless the
    three surround the pole. -/
theorem orderFromNorth_trans (ha : a.Accepted) (hb : b.Accepted) (hc : c.Accepted)
    (habApart : ¬((a.gap b).natAbs = halfTurn - 1 ∨ (a.gap b).natAbs = halfTurn))
    (hbcApart : ¬((b.gap c).natAbs = halfTurn - 1 ∨ (b.gap c).natAbs = halfTurn))
    (hacApart : ¬((a.gap c).natAbs = halfTurn - 1 ∨ (a.gap c).natAbs = halfTurn))
    (hacFull : (a.gap c).natAbs ≠ fullTurn)
    (hab : orderFromNorth (a.gap b) = .lt) (hbc : orderFromNorth (b.gap c) = .lt) :
    orderFromNorth (a.gap c) = .lt ↔
      ¬(halfTurn < (a.gap b).natAbs ↔
        (halfTurn < (b.gap c).natAbs ↔ halfTurn < (a.gap c).natAbs)) := by
  obtain ⟨-, hacBound⟩ := ha.gap_bounds hc
  rw [orderFromNorth_eq_lt_iff (ha.gap_bounds hb).2] at hab
  rw [orderFromNorth_eq_lt_iff (hb.gap_bounds hc).2] at hbc
  rw [orderFromNorth_eq_lt_iff hacBound]
  obtain ⟨hhalf, -⟩ := halfTurn_lt_fullTurn
  have hacPos := ha.gap_pos_iff hc
  have hacNeg := ha.gap_neg_iff hc
  -- Each step goes down to a meridian nearby, or up to one across the antimeridian.
  obtain habNear | habFar := hab <;> obtain hbcNear | hbcFar := hbc
  · -- Downwards all the way.
    have := (ha.gap_pos_iff hb).mp habNear.1
    have := (hb.gap_pos_iff hc).mp hbcNear.1
    omega
  · -- Over the antimeridian in the second step, so the third meridian is the greatest.
    have hless : a.meridian.ordinal < c.meridian.ordinal := by
      by_contra hge
      have := hc.gap_le_of_le_left ha hb (by omega)
      have := hb.gap_comm hc
      omega
    omega
  · -- Over the antimeridian in the first step, so the first meridian is the least.
    have hless : a.meridian.ordinal < c.meridian.ordinal := by
      by_contra hge
      have := hb.gap_le_of_le_right hc ha (by omega)
      have := ha.gap_comm hb
      omega
    omega
  · -- There is no room to cross the antimeridian twice.
    obtain hnonneg | hnonpos := le_total 0 b.meridian.ordinal
    · have := hb.gap_of_nonneg hc hnonneg
      omega
    · have := ha.gap_of_nonpos hb hnonpos
      omega

/-- `compare` is balanced between directions that are `sameAs` each other, and between those a full
    turn apart. -/
theorem compare_eq_eq_iff (ha : a.Accepted) (hb : b.Accepted) :
    a.compare b = .eq ↔ a.sameAs b = true ∨ a.FullTurnApart b := by
  rw [sameAs_iff ha hb, fullTurnApart_iff ha hb, ← and_or_left]
  by_cases hbase : a.base = b.base
  · rw [ha.compare_of_base_eq hb hbase, orderFrom_eq_eq_iff, and_iff_right hbase]
  · rw [compare_of_base_ne hbase]
    refine iff_of_false ?_ fun h => hbase h.1
    split <;> nofun

/-- `compare` is opposite the other way unless the directions are `HalfTurnApart`. -/
theorem compare_swap_iff (ha : a.Accepted) (hb : b.Accepted) :
    b.compare a = (a.compare b).swap ↔ ¬a.HalfTurnApart b := by
  rw [halfTurnApart_iff ha hb]
  by_cases hbase : a.base = b.base
  · rw [and_iff_right hbase, ha.compare_of_base_eq hb hbase, hb.compare_of_base_eq ha hbase.symm,
      ha.gap_comm hb, ← hbase, orderFrom_neg (ha.gap_bounds hb).2]
  · -- Different bases are ordered like their numbers, whatever the meridians.
    have hordinal := (ha.base_eq_iff hb).not.mp hbase
    rw [compare_of_base_ne hbase, compare_of_base_ne (Ne.symm hbase)]
    refine iff_of_true ?_ fun h => hbase h.1
    split_ifs <;> first | rfl | omega

/-- Directions that are `HalfTurnApart` compare the same both ways. -/
theorem compare_comm_of_halfTurnApart (ha : a.Accepted) (hb : b.Accepted) (h : a.HalfTurnApart b) :
    b.compare a = a.compare b ∧ a.compare b ≠ .eq := by
  have hswap := (compare_swap_iff ha hb).not.mpr (not_not.mpr h)
  obtain ⟨hbase, hgap⟩ := (halfTurnApart_iff ha hb).mp h
  have hne {place : Int} (hplace : place.natAbs = (a.gap b).natAbs) : orderFrom a.base place ≠ .eq := by
    obtain ⟨hhalf, hfull⟩ := halfTurn_lt_fullTurn
    rw [Ne, orderFrom_eq_eq_iff]
    omega
  have hforth : a.compare b ≠ .eq := by
    rw [ha.compare_of_base_eq hb hbase]
    exact hne rfl
  have hback : b.compare a ≠ .eq := by
    rw [hb.compare_of_base_eq ha hbase.symm, ← hbase]
    exact hne (by rw [ha.gap_comm hb, Int.natAbs_neg])
  -- Two outcomes that are neither balanced nor opposite are the same.
  refine ⟨?_, hforth⟩
  revert hswap hforth hback
  cases a.compare b <;> cases b.compare a <;> simp [Ordering.swap]

/-- Directions that are `HalfTurnApart` are neither the same nor `FullTurnApart`. -/
theorem not_fullTurnApart_of_halfTurnApart (ha : a.Accepted) (hb : b.Accepted) (h : a.HalfTurnApart b) :
    a.sameAs b = false ∧ ¬a.FullTurnApart b := by
  have hne := (ha.compare_comm_of_halfTurnApart hb h).2
  rw [Ne, compare_eq_eq_iff ha hb, not_or, Bool.not_eq_true] at hne
  exact hne

/-- Directions that are `sameAs` each other are not `FullTurnApart`. -/
theorem sameAs_ne_fullTurnApart (ha : a.Accepted) (hb : b.Accepted) (h : a.sameAs b = true) :
    ¬a.FullTurnApart b := by
  rw [fullTurnApart_iff ha hb, ((sameAs_iff ha hb).mp h).2]
  rintro ⟨-, hfull⟩
  exact absurd hfull (by decide)

/-- Exactly one of two directions `precedes` the other, or they are the same, unless they are half a
    turn or a full turn apart. -/
theorem exactlyOne_iff (ha : a.Accepted) (hb : b.Accepted) :
    (a.precedes b).toNat + (a.sameAs b).toNat + (b.precedes a).toNat = 1 ↔ a.Distinguished b := by
  by_cases hhalf : a.HalfTurnApart b
  · -- Both come first or none does.
    obtain ⟨hcomm, hne⟩ := ha.compare_comm_of_halfTurnApart hb hhalf
    rw [precedes, precedes, hcomm, (not_fullTurnApart_of_halfTurnApart ha hb hhalf).1]
    refine iff_of_false (fun h => ?_) fun h => h.1 hhalf
    rw [Bool.toNat_false] at h
    omega
  · -- Otherwise the two comparisons are opposite, and they are balanced between equal directions
    -- only.
    have heq := compare_eq_eq_iff ha hb
    rw [precedes, precedes, (compare_swap_iff ha hb).mpr hhalf, Distinguished, and_iff_right hhalf]
    cases hsame : a.sameAs b with
    | true =>
      rw [heq.mpr (.inl hsame)]
      exact iff_of_true rfl (sameAs_ne_fullTurnApart ha hb hsame)
    | false =>
      simp only [hsame, Bool.false_eq_true, false_or] at heq
      rw [← heq]
      cases a.compare b <;> decide

/-- Between directions that are `Distinguished`, `precedes` is transitive unless the three meridians
    `SurroundPole`. -/
theorem precedes_trans_iff (ha : a.Accepted) (hb : b.Accepted) (hc : c.Accepted)
    (hab : a.Distinguished b) (hbc : b.Distinguished c) (hac : a.Distinguished c)
    (h : a.precedes b = true) (h' : b.precedes c = true) :
    a.precedes c = true ↔ ¬SurroundPole a b c := by
  have hle := base_ordinal_le_of_precedes h
  have hle' := base_ordinal_le_of_precedes h'
  -- With different ends the bases decide; with the same ones all three are the same.
  obtain hless | hsame := Nat.lt_or_eq_of_le (hle.trans hle')
  · have hne : a.base ≠ c.base := fun hbase => by
      rw [hbase] at hless
      omega
    rw [precedes_iff, compare_of_base_ne hne, if_pos hless]
    exact iff_of_true rfl fun hsurround => hne (hsurround.1.trans hsurround.2.1)
  · have habBase := (ha.base_eq_iff hb).mpr (by omega)
    have hbcBase := (hb.base_eq_iff hc).mpr (by omega)
    have hacBase := habBase.trans hbcBase
    simp only [Distinguished, halfTurnApart_iff, fullTurnApart_iff, ha, hb, hc, habBase, hbcBase,
      true_and] at hab hbc hac
    rw [SurroundPole, and_iff_right habBase, and_iff_right hbcBase, acrossAntimeridian_iff ha hb,
      acrossAntimeridian_iff hb hc, acrossAntimeridian_iff ha hc]
    rw [precedes_iff, ha.compare_of_base_eq hb habBase, orderFrom_eq_lt_iff (ha.gap_bounds hb).2 hab.1] at h
    rw [precedes_iff, hb.compare_of_base_eq hc hbcBase, orderFrom_eq_lt_iff (hb.gap_bounds hc).2 hbc.1] at h'
    rw [precedes_iff, ha.compare_of_base_eq hc hacBase, orderFrom_eq_lt_iff (ha.gap_bounds hc).2 hac.1]
    rw [← habBase] at h'
    cases hopposite : a.base.isOpposite with
    | false =>
      simp only [hopposite, Bool.false_eq_true, if_false] at h h' ⊢
      exact ha.orderFromNorth_trans hb hc hab.1 hbc.1 hac.1 hac.2 h h'
    | true =>
      -- From the south the three are passed in the other direction.
      simp only [hopposite, if_true] at h h' ⊢
      have hmirror := hc.orderFromNorth_trans hb ha
      rw [ha.gap_comm hb, hb.gap_comm hc, ha.gap_comm hc, Int.natAbs_neg, Int.natAbs_neg,
        Int.natAbs_neg] at hmirror
      rw [hmirror hbc.1 hab.1 hac.1 hac.2 h' h, not_iff_not]
      exact iff_left_comm

end Accepted

/-- Where the comparison is an order: two directions are balanced if they are the same or a full turn apart,
    and compare the opposite way when exchanged unless they are half a turn apart. Away from both, exactly one
    of them comes first or they are the same, and what comes before transitively comes before unless the three
    surround the pole. -/
theorem compare_order {a b c : MeridianDirection} (ha : a.Accepted) (hb : b.Accepted) (hc : c.Accepted) :
    (a.compare b = .eq ↔ a.sameAs b = true ∨ a.FullTurnApart b) ∧
    (b.compare a = (a.compare b).swap ↔ ¬a.HalfTurnApart b) ∧
    ((a.precedes b).toNat + (a.sameAs b).toNat + (b.precedes a).toNat = 1 ↔ a.Distinguished b) ∧
    (a.Distinguished b → b.Distinguished c → a.Distinguished c →
      a.precedes b = true → b.precedes c = true → (a.precedes c = true ↔ ¬SurroundPole a b c)) :=
  ⟨ha.compare_eq_eq_iff hb, ha.compare_swap_iff hb, ha.exactlyOne_iff hb, ha.precedes_trans_iff hb hc⟩

/-- Greenwich, 120°W and 120°E surround the pole, and each comes before the next. -/
theorem compare_order_thirds :
    let a : MeridianDirection := ⟨.north, 0, none⟩
    let b : MeridianDirection := ⟨.north, -(120.0 : Double), none⟩
    let c : MeridianDirection := ⟨.north, 120.0, none⟩
    a.precedes b = true ∧ b.precedes c = true ∧ (a.precedes c = true ↔ ¬SurroundPole a b c) ∧
      SurroundPole a b c ∧ c.precedes a = true := by
  intro a b c
  have hab : a.precedes b = true := by decide +kernel
  have hbc : b.precedes c = true := by decide +kernel
  have horder := compare_order (a := a) (b := b) (c := c) ⟨.inl rfl, by decide +kernel⟩
    ⟨.inl rfl, by decide +kernel⟩ ⟨.inl rfl, by decide +kernel⟩
  exact ⟨hab, hbc, horder.2.2.2 (by decide +kernel) (by decide +kernel) (by decide +kernel) hab hbc,
    by decide +kernel, by decide +kernel⟩

/-- Directions half a turn apart each come before the other. -/
theorem precedes_each_other :
    ∃ a b : MeridianDirection, a.Accepted ∧ b.Accepted ∧ a.precedes b = true ∧ b.precedes a = true ∧
      b.compare a ≠ (a.compare b).swap :=
  ⟨⟨.north, 90.0, none⟩, ⟨.north, -(90.0 : Double), none⟩, ⟨.inl rfl, by decide +kernel⟩,
    ⟨.inl rfl, by decide +kernel⟩, by decide +kernel, by decide +kernel, by decide +kernel⟩

end MeridianDirection

end Georef

import Georef.Proofs.Meridian.Order

/-!
# The range of the angle between directions along a meridian

An angle is meant to lie above minus half a turn, up to half a turn. How many turns an angle is brought back
by is the ceiling of a rounded quotient, and the rounding reaches one angle too far: minus 179.99999999999997
degrees, the first angle above minus half a turn, is divided as if it were minus half a turn. So it is brought
back by a turn that it does not need, and ends one bit above half a turn. Every other difference of two
meridians is brought into the range.

## Key results

- `normalizeAngle_place`: where an angle of at most a full turn is brought
- `angle_in_range_iff`: between which directions the angle is in range, and what it is otherwise
-/

namespace Georef

open Double

namespace MeridianDirection

/-- The angle is above minus half a turn, and half a turn at most. -/
def AngleInRange (angle : Double) : Prop := leastLongitude < angle ∧ angle ≤ greatestLongitude

instance (angle : Double) : Decidable (AngleInRange angle) := inferInstanceAs (Decidable (_ ∧ _))

/-- The first direction is the least bit less than half a turn to the west of the second one. -/
def JustBelowHalfTurn (m other : MeridianDirection) : Prop :=
  m.meridian - other.meridian = -(179.99999999999997 : Double)

instance (m other : MeridianDirection) : Decidable (m.JustBelowHalfTurn other) :=
  inferInstanceAs (Decidable (_ = _))

/-- `AngleInRange` by the `ordinal` of an angle. -/
theorem angleInRange_iff {angle : Double} (h : angle.Finite) :
    AngleInRange angle ↔ -halfTurn < angle.ordinal ∧ angle.ordinal ≤ halfTurn := by
  rw [AngleInRange, finite_leastLongitude.lt_iff h, h.le_iff finite_greatestLongitude,
    ordinal_leastLongitude, ordinal_greatestLongitude]

/-! ## Where an angle is brought -/

section Turn

variable {d : Double}

/-- `normalizeAngle` brings the angle one bit above minus half a turn to one bit above half a turn. -/
theorem ordinal_normalizeAngle_overturned (h : d.ordinal = 1 - halfTurn) :
    (normalizeAngle d).ordinal = halfTurn + 1 := by
  obtain ⟨hfull, -, -, hbelow, -⟩ := ordinal_angles
  have hturns := halfTurn_lt_fullTurn
  have hplace : (-(179.99999999999997 : Double)).ordinal = 1 - halfTurn := by rw [ordinal_neg]; omega
  have hlow : (-(360.0 : Double)).ordinal = -fullTurn := by rw [ordinal_neg, hfull]
  -- It is one angle only, so what it is turned to can be computed.
  obtain rfl : d = -(179.99999999999997 : Double) := eq_of_ordinal (by omega) (by omega)
  rw [normalizeAngle_between hlow.ge (by omega) wholeTurns_ends.1 (by omega) le_rfl]
  exact ordinal_differences.2.2.2.1

/-- `normalizeAngle` brings an angle below minus half a turn below half a turn. -/
theorem ordinal_normalizeAngle_low (h : -fullTurn ≤ d.ordinal) (h' : d.ordinal < -halfTurn) :
    (normalizeAngle d).ordinal < halfTurn := by
  obtain ⟨hfull, -, habove, hbelow, -⟩ := ordinal_angles
  have hturns := halfTurn_lt_fullTurn
  have hplace : (-(179.99999999999997 : Double)).ordinal = 1 - halfTurn := by rw [ordinal_neg]; omega
  have hbefore : (-(180.00000000000003 : Double)).ordinal = -halfTurn - 1 := by rw [ordinal_neg]; omega
  have hlow : (-(360.0 : Double)).ordinal = -fullTurn := by rw [ordinal_neg, hfull]
  have hd : d.Finite := finite_of_le_fullTurn (by omega)
  have hbeforeFinite : (-(180.00000000000003 : Double)).Finite := finite_of_le_fullTurn (by omega)
  rw [normalizeAngle_between hlow.ge (by omega) wholeTurns_ends.1 (by omega) (by omega)]
  -- Differences keep the order of the angles, so the last angle below minus half a turn decides.
  have hturned := sub_le_sub hd finite_fullTurn.neg hbeforeFinite finite_fullTurn.neg (by omega) le_rfl
  have hend := ordinal_differences.2.1
  omega

/-- `normalizeAngle` brings an angle above half a turn above minus half a turn. -/
theorem ordinal_normalizeAngle_high (h : halfTurn < d.ordinal) (h' : d.ordinal ≤ fullTurn) :
    -halfTurn < (normalizeAngle d).ordinal := by
  obtain ⟨hfull, -, habove, -, -⟩ := ordinal_angles
  have hturns := halfTurn_lt_fullTurn
  have hd : d.Finite := finite_of_le_fullTurn (by omega)
  have hlow : -fullTurn ≤ (180.00000000000003 : Double).ordinal := by omega
  have haboveFinite : (180.00000000000003 : Double).Finite := finite_of_le_fullTurn (by omega)
  rw [normalizeAngle_between hlow hfull.le wholeTurns_ends.2.2 (by omega) (by omega)]
  -- The first angle above half a turn decides, as differences keep the order.
  have hturned := sub_le_sub haboveFinite finite_fullTurn hd finite_fullTurn (by omega) le_rfl
  have hend := ordinal_differences.2.2.2.2.1
  omega

/-- `normalizeAngle` brings an angle into the range, except the one that is turned too far. -/
theorem normalizeAngle_place (h : d.ordinal.natAbs ≤ fullTurn) :
    (normalizeAngle d).Finite ∧
      (d.ordinal = 1 - halfTurn → (normalizeAngle d).ordinal = halfTurn + 1) ∧
      (d.ordinal ≠ 1 - halfTurn →
        -halfTurn < (normalizeAngle d).ordinal ∧ (normalizeAngle d).ordinal ≤ halfTurn) := by
  have hturns := halfTurn_lt_fullTurn
  refine ⟨(normalizeAngle_sign h).1, ordinal_normalizeAngle_overturned, fun hne => ?_⟩
  -- On each of these parts the angle is turned by the same number of turns.
  obtain hlow | hat | ⟨hlow, hhigh⟩ | hhigh : d.ordinal < -halfTurn ∨ d.ordinal = -halfTurn ∨
      (2 - halfTurn ≤ d.ordinal ∧ d.ordinal ≤ halfTurn) ∨ halfTurn < d.ordinal := by omega
  · have hnonneg := (turn_low (d := d) (by omega) (by omega)).2.1
    have hless := ordinal_normalizeAngle_low (by omega) hlow
    omega
  · have hhalf := (turn_low (d := d) (by omega) (by omega)).2.2.2.mpr hat
    omega
  · have hsame := (turn_middle hlow hhigh).2
    omega
  · have hnonpos := (turn_high hhigh (by omega)).2.1
    have hgreater := ordinal_normalizeAngle_high hhigh (by omega)
    omega

end Turn

/-! ## The angle between two directions -/

variable {a b : MeridianDirection}

/-- `JustBelowHalfTurn` by the `gap`. -/
theorem justBelowHalfTurn_iff : a.JustBelowHalfTurn b ↔ a.gap b = 1 - halfTurn := by
  obtain ⟨-, -, -, hbelow, -⟩ := ordinal_angles
  have hturns := halfTurn_lt_fullTurn
  have hplace : (-(179.99999999999997 : Double)).ordinal = 1 - halfTurn := by rw [ordinal_neg]; omega
  unfold JustBelowHalfTurn gap
  refine ⟨fun h => by rw [h, hplace], fun h => eq_of_ordinal (h.trans hplace.symm) (by omega)⟩

namespace Accepted

/-- The place of `angle`: the normalized difference seen from the north, its opposite seen from the
    south, where minus half a turn is written as half a turn. -/
theorem angle_place (ha : a.Accepted) (hb : b.Accepted) (h : a.base = b.base) :
    (a.angle b).Finite ∧
      (a.angle b).ordinal =
        if a.base.isOpposite then
          if (normalizeAngle (a.meridian - b.meridian)).ordinal = halfTurn then halfTurn
          else -(normalizeAngle (a.meridian - b.meridian)).ordinal
        else (normalizeAngle (a.meridian - b.meridian)).ordinal := by
  have hturn := (normalizeAngle_place (ha.gap_bounds hb).2).1
  -- Its opposite is the western end of the range exactly if it is half a turn.
  have hturned : (-normalizeAngle (a.meridian - b.meridian) == leastLongitude) = true ↔
      (normalizeAngle (a.meridian - b.meridian)).ordinal = halfTurn := by
    rw [hturn.neg.beq_iff finite_leastLongitude, ordinal_neg, ordinal_leastLongitude, neg_inj]
  simp only [angle, turnsHalf, if_neg (not_not.mpr h), beq_iff_eq.mpr h, Bool.true_and]
  cases a.base.isOpposite with
  | false =>
    simp only [Bool.false_and, Bool.false_eq_true, if_false, and_true]
    exact hturn
  | true =>
    simp only [Bool.true_and, if_true, hturned]
    split
    · exact ⟨finite_greatestLongitude, ordinal_greatestLongitude⟩
    · exact ⟨hturn.neg, ordinal_neg _⟩

end Accepted

/-- Between two directions with the same base the angle is a number of degrees above -180, up to 180, unless
    the rounded difference of the meridians is -179.99999999999997. Then it is one bit beyond half a turn:
    180.00000000000003 seen from the north, and -180.00000000000003 seen from the south. -/
theorem angle_in_range_iff (ha : a.Accepted) (hb : b.Accepted)
    (h : a.base = b.base) :
    (a.angle b).Finite ∧ (AngleInRange (a.angle b) ↔ ¬a.JustBelowHalfTurn b) ∧
      (a.JustBelowHalfTurn b →
        a.angle b = if a.base.isOpposite then -(180.00000000000003 : Double) else 180.00000000000003) := by
  obtain ⟨hfinite, hangle⟩ := ha.angle_place hb h
  obtain ⟨-, hoverturned, hturned⟩ := normalizeAngle_place (ha.gap_bounds hb).2
  obtain ⟨-, -, habove, -⟩ := ordinal_angles
  have hhalf := halfTurn_lt_fullTurn
  rw [angleInRange_iff hfinite, justBelowHalfTurn_iff]
  refine ⟨hfinite, ?_, fun hgap => ?_⟩
  · -- From either pole, the place of the normalized difference decides.
    by_cases hgap : a.gap b = 1 - halfTurn
    · have hplace := hoverturned hgap
      refine iff_of_false ?_ (not_not.mpr hgap)
      rw [hangle]
      split_ifs <;> omega
    · have hplace := hturned hgap
      refine iff_of_true ?_ hgap
      rw [hangle]
      split_ifs <;> omega
  -- The place one bit above half a turn, and its opposite, belong to one double each.
  · have hplace := hoverturned hgap
    have hne : ¬halfTurn + 1 = halfTurn := by omega
    rw [hplace, if_neg hne] at hangle
    cases hopposite : a.base.isOpposite with
    | false =>
      rw [hopposite, if_neg Bool.false_ne_true] at hangle
      exact eq_of_ordinal (hangle.trans habove.symm) (by omega)
    | true =>
      rw [hopposite, if_pos rfl, ← habove, ← ordinal_neg] at hangle
      exact eq_of_ordinal hangle (by rw [hangle, ordinal_neg]; omega)

/-- From 90°W to 90°E it is half a turn, from whichever pole. -/
theorem angle_in_range_half_turn :
    let a : MeridianDirection := ⟨.south, -(90.0 : Double), none⟩
    let b : MeridianDirection := ⟨.south, 90.0, none⟩
    AngleInRange (a.angle b) ∧ (a.angle b).Finite ∧ a.angle b = 180.0 := by
  intro a b
  have hrange := angle_in_range_iff (a := a) (b := b) ⟨.inr rfl, by decide +kernel⟩
    ⟨.inr rfl, by decide +kernel⟩ rfl
  exact ⟨hrange.2.1.mpr (by decide +kernel), hrange.1, by decide +kernel⟩

/-- One bit less than half a turn west of Greenwich, the angle to Greenwich is out of range from either pole. -/
theorem angle_out_of_range :
    let west : Double := -(179.99999999999997 : Double)
    (create .north west = .ok ⟨.north, west, none⟩ ∧ create .north 0 = .ok ⟨.north, 0, none⟩ ∧
      angle ⟨.north, west, none⟩ ⟨.north, 0, none⟩ = 180.00000000000003 ∧
      ¬AngleInRange (angle ⟨.north, west, none⟩ ⟨.north, 0, none⟩)) ∧
    create .south west = .ok ⟨.south, west, none⟩ ∧ create .south 0 = .ok ⟨.south, 0, none⟩ ∧
      angle ⟨.south, west, none⟩ ⟨.south, 0, none⟩ = -(180.00000000000003 : Double) ∧
      ¬AngleInRange (angle ⟨.south, west, none⟩ ⟨.south, 0, none⟩) := by
  decide +kernel

end MeridianDirection

end Georef

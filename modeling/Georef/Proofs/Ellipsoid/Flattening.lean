import Georef.Ellipsoid.Basic
import Mathlib.Data.EReal.Inv
import Mathlib.Tactic.FieldSimp
import Mathlib.Tactic.Linarith

/-!
# Inverse flattening and semi-minor axis

An ellipsoid is given by its semi-major axis and one more number, from which the third one is computed. Over the
real numbers with an infinite one the two computations undo each other: an inverse flattening above one gives a
semi-minor axis from which it comes back, and the sphere is the case of the infinite one. But every positive inverse
flattening is accepted, and from one or less comes a semi-minor axis that is not positive, so that the same
ellipsoid cannot be given by its axes.

## Key results

- `flattenedSphere_coe` and `flattenedSphere_top`: the semi-minor axis over the real numbers
- `ofAxes?_coe`: the inverse flattening over the real numbers
- `flattening_spec`: which ellipsoids are accepted, and that the two ways to give them agree
-/

namespace Georef

namespace Spheroid

/-- Exact numbers with an infinite one. -/
noncomputable instance instUnboundedEReal : Unbounded EReal := ⟨⊤, fun x => decide (0 < x)⟩

/-- `isPositive` over the real numbers with an infinite one. -/
theorem isPositive_iff {x : EReal} : Unbounded.isPositive x = true ↔ 0 < x := decide_eq_true_iff

/-! ## Real numbers -/

section Real

variable {a b f : ℝ}

/-- The semi-minor axis is positive for an inverse flattening above one. -/
theorem semiMinor_pos_iff (ha : 0 < a) (hf : 0 < f) : 0 < a * (1 - 1 / f) ↔ 1 < f := by
  rw [mul_pos_iff_of_pos_left ha, sub_pos, div_lt_one hf]

/-- What is taken away from the semi-major axis. -/
theorem semiMajor_sub_semiMinor : a - a * (1 - 1 / f) = a / f := by ring

/-- The inverse flattening comes back. -/
theorem semiMajor_div_sub (ha : 0 < a) (hf : 0 < f) : a / (a - a * (1 - 1 / f)) = f := by
  rw [semiMajor_sub_semiMinor]
  field_simp

/-- The semi-minor axis comes back. -/
theorem semiMajor_mul_one_sub (ha : 0 < a) (hlt : b < a) : a * (1 - 1 / (a / (a - b))) = b := by
  have hsub : a - b ≠ 0 := (sub_pos.mpr hlt).ne'
  rw [one_div_div]
  field_simp
  ring

end Real

/-! ## Real numbers with an infinite one -/

variable {a b : ℝ} {f : EReal} {s : Spheroid EReal}

/-- `ofFlattening?` accepts two positive numbers. -/
theorem ofFlattening?_eq_some_iff :
    ofFlattening? (a : EReal) f = some s ↔ (0 < a ∧ 0 < f) ∧ s = ⟨a, a * (1 - 1 / f), f, true⟩ := by
  unfold ofFlattening?
  split
  · rename_i h
    rw [Bool.and_eq_true, isPositive_iff, isPositive_iff, EReal.coe_pos] at h
    simp [h, eq_comm]
  · rename_i h
    rw [Bool.and_eq_true, isPositive_iff, isPositive_iff, EReal.coe_pos] at h
    simp [h]

/-- `ofAxes?` accepts two positive axes. -/
theorem ofAxes?_coe :
    ofAxes? (a : EReal) (b : EReal) =
      if 0 < a ∧ 0 < b then some ⟨a, b, if a = b then ⊤ else ((a / (a - b) : ℝ) : EReal), false⟩ else none := by
  have hequal : ((a : EReal) == (b : EReal)) = decide (a = b) := by
    rw [Bool.eq_iff_iff, beq_iff_eq, decide_eq_true_iff, EReal.coe_eq_coe_iff]
  have hinfinite : (Unbounded.infinity : EReal) = ⊤ := rfl
  unfold ofAxes?
  simp only [Bool.and_eq_true, isPositive_iff, EReal.coe_pos, hequal, hinfinite, decide_eq_true_eq, EReal.coe_div,
    EReal.coe_sub]

/-- The semi-minor axis that a finite inverse flattening gives. -/
theorem coe_semiMinor (a f : ℝ) : (a : EReal) * (1 - 1 / (f : EReal)) = ((a * (1 - 1 / f) : ℝ) : EReal) := by
  rw [EReal.coe_mul, EReal.coe_sub, EReal.coe_div, EReal.coe_one]

/-- The semi-minor axis that the infinite one gives is the semi-major axis. -/
theorem semiMinor_top (a : ℝ) : (a : EReal) * (1 - 1 / ⊤) = a := by
  rw [EReal.div_top, sub_zero, mul_one]

/-- What is true of the ellipsoid with the given semi-major axis and inverse flattening. -/
structure FlattenedSphere (a : ℝ) (f : EReal) (s : Spheroid EReal) : Prop where
  inverseFlattening_eq : s.inverseFlattening = f
  /-- The semi-minor axis is positive only for an inverse flattening above one. -/
  semiMinorAxis_pos_iff : 0 < s.semiMinorAxis ↔ 1 < f
  /-- Then the same ellipsoid can be given by its axes, and the inverse flattening comes back. -/
  accepted : 1 < f → ofAxes? (a : EReal) s.semiMinorAxis = some { s with flatteningIsDefinitive := false }
  /-- In all other cases the axes are refused. -/
  refused : ¬1 < f → ofAxes? (a : EReal) s.semiMinorAxis = none
  isSphere_iff : s.isSphere = true ↔ f = ⊤

/-- `ofFlattening?` with an infinite inverse flattening gives a sphere. -/
theorem flattenedSphere_top (ha : 0 < a) : FlattenedSphere a ⊤ ⟨a, a * (1 - 1 / ⊤), ⊤, true⟩ := by
  rw [semiMinor_top]
  have hone : (1 : EReal) < ⊤ := EReal.coe_lt_top 1
  exact {
    inverseFlattening_eq := rfl
    semiMinorAxis_pos_iff := iff_of_true (EReal.coe_pos.mpr ha) hone
    accepted := fun _ => by simp [ofAxes?_coe, ha]
    refused := fun h => absurd hone h
    isSphere_iff := by simp [isSphere] }

/-- `ofFlattening?` with a finite inverse flattening gives an ellipsoid with different axes. -/
theorem flattenedSphere_coe (ha : 0 < a) {f : ℝ} (hf : 0 < f) :
    FlattenedSphere a f ⟨a, a * (1 - 1 / (f : EReal)), f, true⟩ := by
  have hpos := semiMinor_pos_iff ha hf
  have hone : 1 < (f : EReal) ↔ 1 < f := EReal.coe_lt_coe_iff (x := 1)
  have hne : a ≠ a * (1 - 1 / f) := by
    rw [← sub_ne_zero, semiMajor_sub_semiMinor]
    exact (div_pos ha hf).ne'
  rw [coe_semiMinor]
  constructor
  case inverseFlattening_eq => rfl
  case semiMinorAxis_pos_iff => rw [EReal.coe_pos, hpos, hone]
  case accepted =>
    intro h
    have hminor := hpos.mpr (hone.mp h)
    rw [ofAxes?_coe, if_pos ⟨ha, hminor⟩, if_neg hne, semiMajor_div_sub ha hf]
  case refused =>
    intro h
    have hminor := (hpos.trans hone.symm).not.mpr h
    rw [ofAxes?_coe, if_neg fun h => hminor h.2]
  case isSphere_iff =>
    rw [isSphere, beq_iff_eq, EReal.coe_eq_coe_iff]
    exact iff_of_false hne (EReal.coe_ne_top f)

/-- The ellipsoid that `ofAxes?` makes of two axes, the minor one no longer than the major one, has
    an inverse flattening that gives it back. -/
theorem ofFlattening?_of_ofAxes? (hle : b ≤ a) (h : ofAxes? (a : EReal) (b : EReal) = some s) :
    ofFlattening? (a : EReal) s.inverseFlattening = some { s with flatteningIsDefinitive := true } := by
  rw [ofAxes?_coe] at h
  split at h
  · rename_i hpos
    obtain ⟨ha, hb⟩ := hpos
    cases h
    rw [ofFlattening?_eq_some_iff]
    -- The sphere has the infinite inverse flattening, and no other ellipsoid has.
    obtain rfl | hlt := hle.eq_or_lt
    · simp only [if_true, semiMinor_top, and_true]
      exact ⟨ha, EReal.zero_lt_top⟩
    · have hratio : 0 < a / (a - b) := div_pos ha (sub_pos.mpr hlt)
      simp only [if_neg hlt.ne', coe_semiMinor, semiMajor_mul_one_sub ha hlt, and_true]
      exact ⟨ha, EReal.coe_pos.mpr hratio⟩
  · cases h

/-- Exactly the positive numbers are accepted, and the two ways to give an ellipsoid agree, as long as the inverse
flattening is above one. -/
theorem flattening_spec (a b : ℝ) (f : EReal) :
    ((ofFlattening? (a : EReal) f).isSome = true ↔ 0 < a ∧ 0 < f) ∧
      (∀ s, ofFlattening? (a : EReal) f = some s → FlattenedSphere a f s) ∧
      ∀ s, b ≤ a → ofAxes? (a : EReal) (b : EReal) = some s →
        ofFlattening? (a : EReal) s.inverseFlattening = some { s with flatteningIsDefinitive := true } := by
  refine ⟨?accepted, ?axes, fun s => ofFlattening?_of_ofAxes?⟩
  case accepted =>
    rw [Option.isSome_iff_exists]
    simp only [ofFlattening?_eq_some_iff, exists_and_left, exists_eq, and_true]
  case axes =>
    intro s h
    obtain ⟨⟨ha, hf⟩, rfl⟩ := ofFlattening?_eq_some_iff.mp h
    induction f with
    | bot => exact absurd hf (by simp)
    | coe f => exact flattenedSphere_coe ha (EReal.coe_pos.mp hf)
    | top => exact flattenedSphere_top ha

/-- An ellipsoid three wide and two high has the inverse flattening three. -/
theorem flattening_spec_three :
    (∃ s, ofFlattening? ((3 : ℝ) : EReal) ((3 : ℝ) : EReal) = some s ∧ FlattenedSphere 3 ((3 : ℝ) : EReal) s) ∧
      ∃ s, ofAxes? ((3 : ℝ) : EReal) ((2 : ℝ) : EReal) = some s ∧
        ofFlattening? ((3 : ℝ) : EReal) s.inverseFlattening = some { s with flatteningIsDefinitive := true } := by
  obtain ⟨haccepted, hflattened, hback⟩ := flattening_spec 3 2 ((3 : ℝ) : EReal)
  have hpos : (0 : ℝ) < 3 ∧ 0 < ((3 : ℝ) : EReal) := ⟨by norm_num, EReal.coe_pos.mpr (by norm_num)⟩
  obtain ⟨s, hs⟩ := Option.isSome_iff_exists.mp (haccepted.mpr hpos)
  have haxes := ofAxes?_coe (a := 3) (b := 2)
  rw [if_pos ⟨by norm_num, by norm_num⟩] at haxes
  exact ⟨⟨s, hs, hflattened s hs⟩, _, haxes, hback _ (by norm_num) haxes⟩

/-- Not every ellipsoid that is accepted has a positive semi-minor axis: the inverse flattening one half gives the
opposite of the semi-major axis, which is refused as an axis. -/
theorem half_gives_negative_axis :
    (¬∀ (a : ℝ) (f : EReal) (s : Spheroid EReal), ofFlattening? (a : EReal) f = some s → 0 < s.semiMinorAxis) ∧
      ofFlattening? (1 : Double) 0.5 = some ⟨1, -1, 0.5, true⟩ ∧ ofAxes? (1 : Double) (-1) = none := by
  refine ⟨fun h => ?_, by decide +kernel, by decide +kernel⟩
  have hhalf : (0 : ℝ) < 1 / 2 := by norm_num
  have hsome := ofFlattening?_eq_some_iff.mpr ⟨⟨one_pos, EReal.coe_pos.mpr hhalf⟩, rfl⟩
  have hminor := h 1 ((1 / 2 : ℝ) : EReal) _ hsome
  rw [coe_semiMinor, EReal.coe_pos] at hminor
  norm_num at hminor

end Spheroid

end Georef

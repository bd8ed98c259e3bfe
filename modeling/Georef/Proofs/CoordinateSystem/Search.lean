import Georef.CoordinateSystem.Basic

/-!
# The axis that is found for a direction

The axes are gone through once. The search stops at an axis with exactly the direction and remembers the first
axis with the opposite direction, so it does the work of two searches: one for the direction, and, if there is no
such axis, one for the opposite direction. A direction without opposite is its own, and then the second search
finds nothing either.

## Key results

- `CoordinateSystem.searchAxes_eq`: one pass as two searches, from any place and with any axis remembered
- `CoordinateSystem.indexOf?_eq_some_iff`, `CoordinateSystem.indexOf?_eq_none_iff`: which axis is found
-/

namespace Georef

/-- The directions are the same or opposite. -/
def Direction.Colinear (d e : Direction) : Prop := d = e ∨ d = e.opposite

instance (d e : Direction) : Decidable (d.Colinear e) :=
  inferInstanceAs (Decidable (d = e ∨ d = e.opposite))

namespace CoordinateSystem

variable {cs : CoordinateSystem} {d : Direction} {i : Nat}

/-- The first axis with exactly the direction stands at the place. -/
def FirstAt (cs : CoordinateSystem) (d : Direction) (i : Nat) : Prop :=
  cs.axes[i]?.map Axis.direction = some d ∧ ∀ j < i, cs.axes[j]?.map Axis.direction ≠ some d

/-- The axis at the place is the one to be found for the direction: the first one with exactly the direction, or,
if there is none, the first one with the opposite direction. -/
def FoundAt (cs : CoordinateSystem) (d : Direction) (i : Nat) : Prop :=
  cs.FirstAt d i ∨ (∀ axis ∈ cs.axes, axis.direction ≠ d) ∧ cs.FirstAt d.opposite i

/-- `searchAxes` does the work of two searches in one pass over the axes. What was remembered before
    counts as opposite. -/
theorem searchAxes_eq (d : Direction) (axes : List Axis) (place : Nat) (fallback : Option Nat) :
    searchAxes d place fallback axes =
      ((axes.findIdx? fun axis => axis.direction == d).map (· + place)).or
        (fallback.or ((axes.findIdx? fun axis => axis.direction == d.opposite).map (· + place))) := by
  -- The other axes are counted from one place further on.
  have hshift (place : Nat) (found : Option Nat) :
      (found.map (· + 1)).map (· + place) = found.map (· + (place + 1)) := by
    cases found <;> simp [Nat.add_assoc, Nat.add_comm 1]
  -- The axis that comes next ends the search, is remembered, or is passed over.
  induction axes generalizing place fallback with
  | nil => simp [searchAxes]
  | cons axis axes ih =>
    simp only [searchAxes, List.findIdx?_cons, beq_iff_eq]
    by_cases hsame : axis.direction = d
    · simp [hsame]
    · by_cases hopposite : axis.direction = d.opposite
      · -- The opposite of the direction is another direction, so the axis counts as opposite only.
        have hother : d.opposite ≠ d := fun heq => hsame (hopposite.trans heq)
        cases fallback <;> simp [hopposite, hother, ih, hshift]
      · simp [hsame, hopposite, ih, hshift]

/-- `indexOf?` searches for the direction, then for the opposite direction. -/
theorem indexOf?_eq (cs : CoordinateSystem) (d : Direction) :
    cs.indexOf? d = (cs.axes.findIdx? fun axis => axis.direction == d).or
      (cs.axes.findIdx? fun axis => axis.direction == d.opposite) := by
  simp [indexOf?, searchAxes_eq]

/-- The first axis with a direction stands where `FirstAt` says. -/
theorem findIdx?_eq_some_iff_firstAt :
    (cs.axes.findIdx? fun axis => axis.direction == d) = some i ↔ cs.FirstAt d i := by
  rw [List.findIdx?_eq_some_iff_getElem, FirstAt]
  constructor
  · rintro ⟨hi, hfound, hbefore⟩
    refine ⟨by simpa [hi] using hfound, fun j hj => ?_⟩
    have hnot := hbefore j hj
    simpa [show j < cs.axes.length by omega] using hnot
  · rintro ⟨hfound, hbefore⟩
    obtain ⟨axis, haxis, hdirection⟩ := Option.map_eq_some_iff.mp hfound
    obtain ⟨hi, rfl⟩ := List.getElem?_eq_some_iff.mp haxis
    refine ⟨hi, by simpa using hdirection, fun j hj => ?_⟩
    have hnot := hbefore j hj
    simpa [show j < cs.axes.length by omega] using hnot

/-- `indexOf?` finds the axis of `FoundAt`. -/
theorem indexOf?_eq_some_iff : cs.indexOf? d = some i ↔ cs.FoundAt d i := by
  rw [indexOf?_eq, Option.or_eq_some_iff, findIdx?_eq_some_iff_firstAt, findIdx?_eq_some_iff_firstAt,
    List.findIdx?_eq_none_iff, FoundAt]
  simp

/-- `indexOf?` finds no axis exactly if none is colinear with the direction. -/
theorem indexOf?_eq_none_iff : cs.indexOf? d = none ↔ ∀ axis ∈ cs.axes, ¬axis.direction.Colinear d := by
  rw [indexOf?_eq, Option.or_eq_none_iff, List.findIdx?_eq_none_iff, List.findIdx?_eq_none_iff]
  simp [Direction.Colinear, forall_and]

/-- The axis that is found is colinear with the direction. -/
theorem FoundAt.colinear (h : cs.FoundAt d i) :
    ∃ axis, cs.axes[i]? = some axis ∧ axis.direction.Colinear d := by
  obtain ⟨hfirst, -⟩ | ⟨-, hfirst, -⟩ := h
  · obtain ⟨axis, haxis, hdirection⟩ := Option.map_eq_some_iff.mp hfirst
    exact ⟨axis, haxis, .inl hdirection⟩
  · obtain ⟨axis, haxis, hdirection⟩ := Option.map_eq_some_iff.mp hfirst
    exact ⟨axis, haxis, .inr hdirection⟩

end CoordinateSystem

end Georef

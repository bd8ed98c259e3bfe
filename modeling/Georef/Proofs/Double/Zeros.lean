import Georef.Proofs.Double.Order

/-!
# The sign of a zero

A double has two zeros, which are the same number. An operation whose operands are the same numbers gives the
same number, too, whatever the signs of the zeros among them: only a quotient by zero would show them, and the
sign of a zero that is itself a result.

## Key results

- `SameNumber`: the relation, equality but for the sign of a zero
- `SameNumber.add`, `SameNumber.sub`, `SameNumber.mul`: sums, differences and products keep it
- `SameNumber.beq_eq`, `SameNumber.abs_eq`: comparisons do not see it
-/

namespace Georef

namespace Double

/-! ## Zero as an operand -/

/-- Neither zero has any `units`. -/
@[simp] theorem units_signedZero (negative : Bool) : (signedZero negative).units = 0 := by
  cases negative <;> rfl

/-- Both zeros are `Finite`. -/
theorem finite_signedZero (negative : Bool) : (signedZero negative).Finite := rfl

/-- `ofRatio` rounds a quotient of zero to the zero of its sign. -/
theorem ofRatio_zero (negative : Bool) (d : Nat) : ofRatio negative 0 d = signedZero negative :=
  eq_of_magnitude rfl (nearestMagnitude_zero d)

/-- A number that is not finite is a NaN or an infinity. -/
theorem isNaN_or_isInfinite {x : Double} (h : ¬x.Finite) : x.isNaN = true ∨ x.isInfinite = true := by
  simp only [Finite, isFinite, isNaN, isInfinite, decide_eq_true_eq, beq_iff_eq] at *
  omega

/-- A product of finite numbers is the product of their units, rounded once. -/
theorem Finite.mul_eq {x y : Double} (hx : x.Finite) (hy : y.Finite) :
    x * y = ofRatio (x.negative != y.negative) (x.units.natAbs * y.units.natAbs) unitsPerOne := by
  show x.mul y = _
  rw [mul, hx.isNaN_eq_false, hy.isNaN_eq_false, hx.isInfinite_eq_false, hy.isInfinite_eq_false]
  rfl

/-- Zero times a `Finite` number is one of the zeros. -/
theorem Finite.exists_signedZero_mul {x : Double} (hx : x.Finite) (a : Bool) :
    ∃ b, signedZero a * x = signedZero b := by
  rw [(finite_signedZero a).mul_eq hx, units_signedZero, Int.natAbs_zero, Nat.zero_mul, ofRatio_zero]
  exact ⟨_, rfl⟩

/-- A `Finite` number times zero is one of the zeros. -/
theorem Finite.exists_mul_signedZero {x : Double} (hx : x.Finite) (a : Bool) :
    ∃ b, x * signedZero a = signedZero b := by
  rw [hx.mul_eq (finite_signedZero a), units_signedZero, Int.natAbs_zero, Nat.mul_zero, ofRatio_zero]
  exact ⟨_, rfl⟩

/-! ## Numbers but for the sign of a zero -/

/-- The numbers are equal but for the sign of a zero. -/
def SameNumber (x y : Double) : Prop := x = y ∨ ∃ a b, x = signedZero a ∧ y = signedZero b

namespace SameNumber

variable {x x' y y' : Double}

/-- Every number is the `SameNumber` as itself, also a NaN. -/
theorem refl (x : Double) : SameNumber x x := .inl rfl

/-- The two zeros count as the `SameNumber`. -/
theorem zeros (a b : Bool) : SameNumber (signedZero a) (signedZero b) := .inr ⟨a, b, rfl, rfl⟩

/-- `SameNumber` is transitive, since a zero is the same as zeros only. -/
theorem trans {z : Double} (h : SameNumber x y) (h' : SameNumber y z) : SameNumber x z := by
  obtain rfl | ⟨a, b, rfl, rfl⟩ := h
  · exact h'
  · obtain rfl | ⟨c, d, -, rfl⟩ := h'
    · exact zeros a b
    · exact zeros a d

/-- `SameNumber` is symmetric. -/
theorem symm (h : SameNumber x y) : SameNumber y x := by
  obtain rfl | ⟨a, b, rfl, rfl⟩ := h
  · exact refl x
  · exact zeros b a

/-- A function that does not tell the two zeros apart does not tell the `SameNumber` apart. -/
theorem congr {β : Type} (h : SameNumber x y) (f : Double → β)
    (hzeros : ∀ a, f (signedZero a) = f (signedZero false)) : f x = f y := by
  obtain rfl | ⟨a, b, rfl, rfl⟩ := h
  · rfl
  · exact (hzeros a).trans (hzeros b).symm

/-- The same numbers are equal if one of them has a property that no zero has. -/
theorem eq_of {p : Double → Bool} (h : SameNumber x y) (hx : p x = true)
    (hzeros : ∀ a, p (signedZero a) = false) : x = y := by
  obtain rfl | ⟨a, b, rfl, rfl⟩ := h
  · rfl
  · rw [hzeros a] at hx
    exact nomatch hx

/-- `abs` of the same numbers is equal. -/
theorem abs_eq (h : SameNumber x y) : x.abs = y.abs := h.congr Double.abs fun _ => rfl

theorem units_eq (h : SameNumber x y) : x.units = y.units := h.congr Double.units units_signedZero

theorem isFinite_eq (h : SameNumber x y) : x.isFinite = y.isFinite := h.congr isFinite fun _ => rfl

theorem isNaN_eq (h : SameNumber x y) : x.isNaN = y.isNaN := h.congr isNaN fun _ => rfl

theorem isInfinite_eq (h : SameNumber x y) : x.isInfinite = y.isInfinite :=
  h.congr isInfinite fun _ => rfl

/-- Numeric equality does not tell the `SameNumber` apart. -/
theorem beq_eq (h : SameNumber x y) (z : Double) : (x == z) = (y == z) := by
  refine h.congr (· == z) fun a => ?_
  cases a <;> rfl

/-- An infinity is the same as itself only. -/
theorem eq_of_isInfinite (h : SameNumber x y) (hx : x.isInfinite = true) : x = y :=
  h.eq_of hx fun _ => rfl

/-- A NaN is the same as itself only, its payload included. -/
theorem eq_of_isNaN (h : SameNumber x y) (hx : x.isNaN = true) : x = y := h.eq_of hx fun _ => rfl

/-- The same numbers are equal if they do not compare equal to zero. -/
theorem eq_of_ne_zero (h : SameNumber x y) (hx : (x == 0) = false) : x = y := by
  refine h.eq_of (p := fun x => !(x == 0)) (by simp [hx]) fun a => ?_
  cases a <;> rfl

/-- A number that compares equal to zero is the `SameNumber` as zero. -/
theorem of_beq_zero (h : (x == 0) = true) : SameNumber 0 x := by
  simp only [BEq.beq, numericEq, Bool.and_eq_true, decide_eq_true_eq] at h
  have hmagnitude : x.magnitude = 0 := by
    have := natAbs_ordinal x
    have : x.ordinal = 0 := h.2
    omega
  exact .inr ⟨false, x.negative, rfl, eq_of_magnitude rfl hmagnitude⟩

/-- The negatives of the same numbers are the `SameNumber`. -/
theorem neg (h : SameNumber x y) : SameNumber x.neg y.neg := by
  obtain rfl | ⟨a, b, rfl, rfl⟩ := h
  · exact refl _
  · exact zeros (!a) (!b)

/-! ## Arithmetic -/

/-- An operation looks for NaNs first and passes on the first one, made quiet. So only its results
    for other numbers have to be compared. -/
private theorem passNaN {r r' : Double} (hx : SameNumber x x') (hy : SameNumber y y') (h : SameNumber r r') :
    SameNumber (if x.isNaN then x.quieted else if y.isNaN then y.quieted else r)
      (if x'.isNaN then x'.quieted else if y'.isNaN then y'.quieted else r') := by
  rw [← hx.isNaN_eq, ← hy.isNaN_eq]
  split
  · rename_i hnan
    obtain rfl := hx.eq_of_isNaN hnan
    exact refl _
  · split
    · rename_i hnan
      obtain rfl := hy.eq_of_isNaN hnan
      exact refl _
    · exact h

/-- `Double.addNumbers` gives the same number of the same numbers. -/
private theorem addNumbers (hx : SameNumber x x') (hy : SameNumber y y') :
    SameNumber (x.addNumbers y) (x'.addNumbers y') := by
  unfold Double.addNumbers
  by_cases hinfinite : x.isInfinite = true
  · obtain rfl := hx.eq_of_isInfinite hinfinite
    by_cases hinfinite' : y.isInfinite = true
    · obtain rfl := hy.eq_of_isInfinite hinfinite'
      exact refl _
    · rw [← hy.isInfinite_eq, eq_false_of_ne_true hinfinite', hinfinite]
      exact refl _
  · rw [← hx.isInfinite_eq, ← hy.isInfinite_eq, ← hx.units_eq, ← hy.units_eq,
      eq_false_of_ne_true hinfinite]
    by_cases hinfinite' : y.isInfinite = true
    · obtain rfl := hy.eq_of_isInfinite hinfinite'
      simp only [Bool.false_eq_true, if_false, hinfinite', if_true]
      exact refl _
    · rw [eq_false_of_ne_true hinfinite']
      -- Only a sum that is zero shows the signs.
      by_cases hsum : x.units + y.units = 0
      · simp only [Bool.false_eq_true, if_false, hsum, if_true]
        exact zeros _ _
      · simp only [Bool.false_eq_true, if_false, hsum]
        exact refl _

/-- Sums of the same numbers are the `SameNumber`. -/
theorem add (hx : SameNumber x x') (hy : SameNumber y y') : SameNumber (x + y) (x' + y') :=
  passNaN hx hy (hx.addNumbers hy)

/-- Differences of the same numbers are the `SameNumber`. -/
theorem sub (hx : SameNumber x x') (hy : SameNumber y y') : SameNumber (x - y) (x' - y') :=
  passNaN hx hy (hx.addNumbers hy.neg)

/-- The two zeros have the same product with every number: times a number that is not finite, a zero
    loses its sign. -/
private theorem zero_mul (a b : Bool) (y : Double) :
    SameNumber (signedZero a * y) (signedZero b * y) := by
  by_cases hfinite : y.Finite
  · obtain ⟨c, hc⟩ := hfinite.exists_signedZero_mul a
    obtain ⟨d, hd⟩ := hfinite.exists_signedZero_mul b
    rw [hc, hd]
    exact zeros c d
  · show SameNumber ((signedZero a).mul y) ((signedZero b).mul y)
    unfold Double.mul
    obtain hnan | hinfinite := isNaN_or_isInfinite hfinite
    · rw [hnan]
      exact refl _
    · rw [hinfinite, Bool.or_true]
      exact refl _

/-- The two zeros have the same product with every number also as second factors. -/
private theorem mul_zero (x : Double) (a b : Bool) :
    SameNumber (x * signedZero a) (x * signedZero b) := by
  by_cases hfinite : x.Finite
  · obtain ⟨c, hc⟩ := hfinite.exists_mul_signedZero a
    obtain ⟨d, hd⟩ := hfinite.exists_mul_signedZero b
    rw [hc, hd]
    exact zeros c d
  · show SameNumber (x.mul (signedZero a)) (x.mul (signedZero b))
    unfold Double.mul
    obtain hnan | hinfinite := isNaN_or_isInfinite hfinite
    · rw [hnan]
      exact refl _
    · have hzero (c : Bool) : (x.isZero || (signedZero c).isZero) = true := Bool.or_true _
      simp only [hinfinite, Bool.true_or, if_true, hzero]
      exact refl _

/-- Products of the same numbers are the `SameNumber`. -/
theorem mul (hx : SameNumber x x') (hy : SameNumber y y') : SameNumber (x * y) (x' * y') := by
  -- The factors are exchanged one after the other.
  have hleft : SameNumber (x * y) (x' * y) := by
    obtain rfl | ⟨a, b, rfl, rfl⟩ := hx
    · exact refl _
    · exact zero_mul a b y
  have hright : SameNumber (x' * y) (x' * y') := by
    obtain rfl | ⟨a, b, rfl, rfl⟩ := hy
    · exact refl _
    · exact mul_zero x' a b
  exact hleft.trans hright

end SameNumber

/-- Zero times a finite number is zero, of either sign. -/
theorem Finite.zero_mul {x : Double} (hx : x.Finite) : SameNumber (0 * x) 0 := by
  obtain ⟨b, hb⟩ := hx.exists_signedZero_mul false
  exact .inr ⟨b, false, hb, rfl⟩

/-- What is computed of zeros and ones alone is exact. -/
private theorem units_exact :
    (1 : Double) / 1 = 1 ∧ ((0 : Double) * 0 = 0 ∧ (0 : Double) * 1 = 0 ∧ (1 : Double) * 1 = 1) ∧
      (0 - signedZero false = 0 ∧ 0 - signedZero true = 0) ∧ 1 - signedZero false = 1 ∧ 1 - signedZero true = 1 := by
  decide +kernel

theorem one_div_one : (1 : Double) / 1 = 1 := units_exact.1

theorem zero_mul_zero : (0 : Double) * 0 = 0 := units_exact.2.1.1

theorem zero_mul_one : (0 : Double) * 1 = 0 := units_exact.2.1.2.1

theorem one_mul_one : (1 : Double) * 1 = 1 := units_exact.2.1.2.2

/-- Taking either zero from zero leaves the zero without a sign. -/
theorem zero_sub_signedZero (negative : Bool) : 0 - signedZero negative = 0 := by
  cases negative
  · exact units_exact.2.2.1.1
  · exact units_exact.2.2.1.2

/-- Taking either zero from one leaves one. -/
theorem one_sub_signedZero (negative : Bool) : 1 - signedZero negative = 1 := by
  cases negative
  · exact units_exact.2.2.2.1
  · exact units_exact.2.2.2.2

/-- Taking a number that is the same as zero away from one leaves one. -/
theorem one_sub_eq_one {x : Double} (hx : SameNumber x 0) : 1 - x = 1 := by
  have hone : (1 : Double) - 0 = 1 := one_sub_signedZero false
  have hsame : SameNumber (1 - 0) (1 - x) := (SameNumber.refl 1).sub hx.symm
  rw [hone] at hsame
  exact (hsame.eq_of_ne_zero (by decide)).symm

end Double

end Georef

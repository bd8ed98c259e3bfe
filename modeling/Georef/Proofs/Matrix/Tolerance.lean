import Georef.Proofs.Matrix.HashKeys

/-!
# Comparing with a tolerance

Comparison of matrices goes element by element, and asks three questions of two elements: whether they are equal,
whether both are NaN, and whether their difference is within the tolerance. As long as the tolerance is finite, the
third question is answered with yes for finite elements only. An infinite tolerance is not below the difference
with an infinity either, so that an infinity agrees with every number then, the opposite infinity among them.

## Key results

- `agrees_iff_agreesWithin`: what agreement within a finite tolerance means
- `agrees_iff_isNaN_eq`: what an infinite tolerance leaves of it
- `agrees_comm`, `agrees_mono`: agreement goes both ways, and a larger tolerance keeps it
- `equals_spec`: the same for matrices
-/

namespace Georef

namespace Double

variable {x y s t : Double}

/-! ## Differences that are not finite -/

/-- A number that is no NaN has the magnitude of an infinity at most. -/
theorem isNaN_eq_false_iff : x.isNaN = false ↔ x.magnitude ≤ infinityMagnitude := by
  rw [isNaN, decide_eq_false_iff_not, Nat.not_lt]

/-- A difference `isNaN` if its left number is one. -/
theorem isNaN_sub_of_left (hx : x.isNaN = true) : (x - y).isNaN = true := by
  show (x.sub y).isNaN = true
  rw [sub, if_pos hx]
  exact isNaN_quieted hx

/-- A difference `isNaN` if its right number is one. -/
theorem isNaN_sub_of_right (hy : y.isNaN = true) : (x - y).isNaN = true := by
  cases hx : x.isNaN with
  | true => exact isNaN_sub_of_left hx
  | false =>
    show (x.sub y).isNaN = true
    simp only [sub, hx, hy, if_true, Bool.false_eq_true, if_false]
    exact isNaN_quieted hy

/-- A difference with an infinity is that infinity or its opposite, unless it is that of an infinity
    with itself. -/
theorem magnitude_sub_of_isInfinite (hx : x.isNaN = false) (hy : y.isNaN = false)
    (hinfinite : x.isInfinite = true ∨ y.isInfinite = true) (hne : x ≠ y) :
    (x - y).magnitude = infinityMagnitude := by
  have hnegated : y.neg.isInfinite = y.isInfinite := rfl
  have hmagnitude {z : Double} (hz : z.isInfinite = true) : z.magnitude = infinityMagnitude := beq_iff_eq.mp hz
  show (x.sub y).magnitude = _
  rw [sub, hx, hy, addNumbers, hnegated]
  -- Which of the two is infinite. Of two infinities the second one is turned round and then passed
  -- on.
  cases hxi : x.isInfinite with
  | false =>
    have hyi : y.isInfinite = true := hinfinite.resolve_left (by simp [hxi])
    simp [hyi, hmagnitude (z := y.neg) hyi]
  | true =>
    cases hyi : y.isInfinite with
    | false => simp [hmagnitude hxi]
    | true =>
      -- The infinities have different signs, because they are different.
      have hsign : x.negative ≠ y.negative := fun h =>
        hne (eq_of_magnitude h ((hmagnitude hxi).trans (hmagnitude hyi).symm))
      have hopposite : x.negative = y.neg.negative := by
        show _ = !y.negative
        cases hxs : x.negative <;> cases hys : y.negative <;> simp [hxs, hys] at hsign ⊢
      simp [hopposite, hmagnitude hxi]

/-- An infinity less itself is a NaN. -/
theorem isNaN_sub_self (hinfinite : x.isInfinite = true) : (x - x).isNaN = true := by
  have heq : x = infinity x.negative := eq_of_magnitude rfl (beq_iff_eq.mp hinfinite)
  rw [heq]
  cases x.negative <;> decide

/-- A finite difference is one of finite numbers. -/
theorem finite_of_finite_sub (h : (x - y).Finite) : x.Finite ∧ y.Finite := by
  have hnan := h.isNaN_eq_false
  have hx : x.isNaN = false := Bool.eq_false_iff.mpr fun hx => by simp [isNaN_sub_of_left hx] at hnan
  have hy : y.isNaN = false := Bool.eq_false_iff.mpr fun hy => by simp [isNaN_sub_of_right hy] at hnan
  -- With an infinity the difference is infinite or a NaN.
  by_contra hnot
  have hinfinite : x.isInfinite = true ∨ y.isInfinite = true := by
    by_contra hneither
    obtain ⟨hxi, hyi⟩ := not_or.mp hneither
    exact hnot ⟨finite_of_not_isNaN (by simp [hx]) hxi, finite_of_not_isNaN (by simp [hy]) hyi⟩
  by_cases heq : x = y
  · subst heq
    rw [isNaN_sub_self (hinfinite.elim id id)] at hnan
    exact absurd hnan (by simp)
  · have hmagnitude := magnitude_sub_of_isInfinite hx hy hinfinite heq
    exact absurd h.isInfinite_eq_false (by rw [isInfinite, hmagnitude]; decide)

/-- A difference of `Finite` numbers may be infinite, but it is not a NaN. -/
theorem Finite.isNaN_sub (hx : x.Finite) (hy : y.Finite) : (x - y).isNaN = false := by
  rw [isNaN_eq_false_iff, ← natAbs_ordinal, ordinal_sub hx hy, roundedOrdinal]
  -- Rounding stops at infinity.
  have hbound (n : Nat) : nearestMagnitude n 1 ≤ infinityMagnitude := by
    rw [nearestMagnitude_eq]
    exact Nat.min_le_right ..
  split
  · rw [Int.natAbs_neg, Int.natAbs_natCast]
    exact hbound _
  · rw [Int.natAbs_natCast]
    exact hbound _

/-- The difference of two numbers is a NaN only for an infinity and itself. -/
theorem isNaN_sub_of_ne (hx : x.isNaN = false) (hy : y.isNaN = false) (hne : x ≠ y) : (x - y).isNaN = false := by
  by_cases hinfinite : x.isInfinite = true ∨ y.isInfinite = true
  · exact isNaN_eq_false_iff.mpr (magnitude_sub_of_isInfinite hx hy hinfinite hne).le
  · obtain ⟨hxi, hyi⟩ := not_or.mp hinfinite
    exact (finite_of_not_isNaN (by simp [hx]) hxi).isNaN_sub (finite_of_not_isNaN (by simp [hy]) hyi)

/-- Turning a difference round keeps its `magnitude`. -/
theorem magnitude_sub_comm (hx : x.isNaN = false) (hy : y.isNaN = false) :
    (x - y).magnitude = (y - x).magnitude := by
  by_cases heq : x = y
  · rw [heq]
  by_cases hinfinite : x.isInfinite = true ∨ y.isInfinite = true
  · rw [magnitude_sub_of_isInfinite hx hy hinfinite heq,
      magnitude_sub_of_isInfinite hy hx hinfinite.symm (Ne.symm heq)]
  · obtain ⟨hxi, hyi⟩ := not_or.mp hinfinite
    have hcomm := ordinal_sub_comm (finite_of_not_isNaN (by simp [hx]) hxi) (finite_of_not_isNaN (by simp [hy]) hyi)
    rw [← natAbs_ordinal, ← natAbs_ordinal, hcomm, Int.natAbs_neg]

/-! ## Sizes of differences -/

/-- How `abs` compares with a tolerance. -/
theorem abs_le_iff : x.abs ≤ t ↔ x.isNaN = false ∧ t.isNaN = false ∧ (x.magnitude : Int) ≤ t.ordinal := by
  have hnan : x.abs.isNaN = x.isNaN := rfl
  have hordinal : x.abs.ordinal = x.magnitude := rfl
  show x.abs.le t = true ↔ _
  simp [le, hnan, hordinal, and_assoc]

theorem abs_sub_le_comm : (x - y).abs ≤ t ↔ (y - x).abs ≤ t := by
  cases hx : x.isNaN with
  | true => simp [abs_le_iff, isNaN_sub_of_left hx, isNaN_sub_of_right hx]
  | false =>
    cases hy : y.isNaN with
    | true => simp [abs_le_iff, isNaN_sub_of_left hy, isNaN_sub_of_right hy]
    | false => simp only [abs_le_iff, isNaN_eq_false_iff, magnitude_sub_comm hx hy]

/-- What can be compared is no NaN. -/
theorem isNaN_of_le (h : s ≤ t) : s.isNaN = false ∧ t.isNaN = false := by
  have h' : s.le t = true := h
  simp only [le, Bool.and_eq_true, Bool.not_eq_true'] at h'
  exact h'.1

/-- Numbers that are the `SameNumber` are not further apart than any tolerance. -/
theorem abs_sub_le_of_sameNumber (hx : x.Finite) (hsame : SameNumber x y) (ht : 0 ≤ t) : (x - y).abs ≤ t := by
  have hy : y.Finite := hsame.isFinite_eq.symm.trans hx
  have hordinal : (x - y).ordinal = 0 := by
    rw [ordinal_sub hx hy, hsame.units_eq, Int.sub_self]
    simp [roundedOrdinal]
  have hmagnitude : (x - y).magnitude = 0 := by rw [← natAbs_ordinal, hordinal, Int.natAbs_zero]
  have hle := ordinal_le_of_le ht
  rw [ordinal_zero] at hle
  have hnan : (x - y).isNaN = false := isNaN_eq_false_iff.mpr (by omega)
  exact abs_le_iff.mpr ⟨hnan, (isNaN_of_le ht).2, by omega⟩

/-- What is no larger than a finite tolerance is finite. -/
theorem finite_of_abs_le (hinfinite : t.isInfinite = false) (h : x.abs ≤ t) : x.Finite := by
  obtain ⟨-, hnan, hle⟩ := abs_le_iff.mp h
  have ht : t.Finite := finite_of_not_isNaN (by simp [hnan]) (by simp [hinfinite])
  have hbound := finite_iff.mp ht
  rw [finite_iff, natAbs_ordinal]
  omega

/-! ## Agreement within a tolerance -/

/-- What agreement means for a finite tolerance: both numbers are NaN, or both are the same infinity, or both are
finite and their difference is within the tolerance. -/
inductive AgreesWithin (t x y : Double) : Prop
  | nans (hx : x.isNaN = true) (hy : y.isNaN = true)
  | infinities (hx : x.isInfinite = true) (heq : x = y)
  | numbers (hx : x.Finite) (hy : y.Finite) (hle : (x - y).abs ≤ t)

/-- The three questions that `agrees` asks. -/
theorem agrees_iff :
    agrees t x y = true ↔ (x == y) = true ∨ x.isNaN = true ∧ y.isNaN = true ∨ (x - y).abs ≤ t := by
  simp only [agrees, Bool.or_eq_true, Bool.and_eq_true, decide_eq_true_eq, or_assoc]

/-- A number compares equal to itself. -/
theorem beq_self_of_not_isNaN (hx : x.isNaN = false) : (x == x) = true :=
  beq_iff_sameNumber.mpr ⟨hx, .refl x⟩

/-- For a finite tolerance, `agrees` is `AgreesWithin`. -/
theorem agrees_iff_agreesWithin (ht : 0 ≤ t) (hfinite : t.isInfinite = false) :
    agrees t x y = true ↔ AgreesWithin t x y := by
  rw [agrees_iff]
  constructor
  · rintro (hequal | ⟨hx, hy⟩ | hle)
    · -- Equal numbers are both infinite or both finite.
      obtain ⟨hnan, hsame⟩ := beq_iff_sameNumber.mp hequal
      cases hinfinite : x.isInfinite with
      | true => exact .infinities hinfinite (hsame.eq_of_isInfinite hinfinite)
      | false =>
        have hx : x.Finite := finite_of_not_isNaN (by simp [hnan]) (by simp [hinfinite])
        exact .numbers hx (hsame.isFinite_eq.symm.trans hx) (abs_sub_le_of_sameNumber hx hsame ht)
    · exact .nans hx hy
    · -- Only a difference of finite numbers can be below a finite tolerance.
      obtain ⟨hx, hy⟩ := finite_of_finite_sub (finite_of_abs_le hfinite hle)
      exact .numbers hx hy hle
  · intro h
    cases h with
    | nans hx hy => exact .inr (.inl ⟨hx, hy⟩)
    | infinities hx heq =>
      subst heq
      rw [isInfinite, beq_iff_eq] at hx
      exact .inl (beq_self_of_not_isNaN (isNaN_eq_false_iff.mpr hx.le))
    | numbers hx hy hle => exact .inr (.inr hle)

/-- Within an infinite tolerance every number `agrees` with every other one, and NaN with NaN. -/
theorem agrees_iff_isNaN_eq (ht : 0 ≤ t) (hinfinite : t.isInfinite = true) :
    agrees t x y = true ↔ x.isNaN = y.isNaN := by
  have hordinal : t.ordinal = infinityMagnitude := by
    have hle := ordinal_le_of_le ht
    have habs := natAbs_ordinal t
    rw [ordinal_zero] at hle
    rw [isInfinite, beq_iff_eq] at hinfinite
    omega
  -- Infinity is above every difference but a NaN.
  have hle : (x - y).abs ≤ t ↔ (x - y).isNaN = false := by
    rw [abs_le_iff, hordinal, Nat.cast_le, ← isNaN_eq_false_iff]
    exact ⟨fun h => h.1, fun h => ⟨h, (isNaN_of_le ht).2, h⟩⟩
  rw [agrees_iff, hle]
  cases hx : x.isNaN with
  | true =>
    have hequal : (x == y) = false := Bool.eq_false_iff.mpr fun h => by
      rw [(beq_iff_sameNumber.mp h).1] at hx
      cases hx
    cases hy : y.isNaN <;> simp [hequal, isNaN_sub_of_left hx]
  | false =>
    cases hy : y.isNaN with
    | true =>
      have hequal : (x == y) = false := Bool.eq_false_iff.mpr fun h => by
        rw [← (beq_iff_sameNumber.mp h).2.isNaN_eq, hx] at hy
        cases hy
      simp [hequal, isNaN_sub_of_right hy]
    | false =>
      by_cases heq : x = y
      · have hequal : (x == y) = true := heq ▸ beq_self_of_not_isNaN hx
        simp [hequal]
      · simp [isNaN_sub_of_ne hx hy heq]

/-- `agrees` goes both ways. -/
theorem agrees_comm : agrees t x y = agrees t y x := by
  have hequal : (x == y) = (y == x) := by
    show x.numericEq y = y.numericEq x
    simp only [numericEq, Bool.and_comm (!x.isNaN), BEq.comm (a := x.ordinal)]
  rw [Bool.eq_iff_iff, agrees_iff, agrees_iff, hequal, abs_sub_le_comm, and_comm]

/-- A larger tolerance keeps what `agrees`. -/
theorem agrees_mono (hst : s ≤ t) (h : agrees s x y = true) : agrees t x y = true := by
  rw [agrees_iff] at h ⊢
  refine h.imp_right fun h => h.imp_right fun hle => ?_
  obtain ⟨hnan, -, hmagnitude⟩ := abs_le_iff.mp hle
  exact abs_le_iff.mpr ⟨hnan, (isNaN_of_le hst).2, hmagnitude.trans (ordinal_le_of_le hst)⟩

/-- Without a tolerance, `agrees` is transitive. -/
theorem agrees_zero_trans {z : Double} (h : agrees 0 x y = true) (h' : agrees 0 y z = true) :
    agrees 0 x z = true := by
  rw [agrees_zero_iff] at h h' ⊢
  obtain hsame | ⟨hx, hy⟩ := h
  · obtain hsame' | ⟨hy, hz⟩ := h'
    · exact .inl (hsame.trans hsame')
    · exact .inr ⟨hsame.isNaN_eq.trans hy, hz⟩
  · obtain hsame' | ⟨-, hz⟩ := h'
    · exact .inr ⟨hx, hsame'.isNaN_eq.symm.trans hy⟩
    · exact .inr ⟨hx, hz⟩

end Double

namespace Matrix

variable {a b c : Matrix Double} {s t : Double}

/-! ## Matrices -/

/-- The relation holds of all elements at the same place, and the sizes are the same. -/
def Pointwise (r : Double → Double → Prop) (a b : Matrix Double) : Prop :=
  (a.rows = b.rows ∧ a.cols = b.cols) ∧ ∀ i < a.rows, ∀ j < a.cols, r (a.entry i j) (b.entry i j)

/-- `equals` compares sizes and then element by element. -/
theorem equals_iff : a.equals b t = true ↔ Pointwise (fun x y => Double.agrees t x y = true) a b := by
  simp only [equals, Pointwise, Bool.and_eq_true, beq_iff_eq, List.all_eq_true, List.mem_range]

/-- `Pointwise` depends on the relation of elements only. -/
theorem Pointwise.congr {r r' : Double → Double → Prop} (h : ∀ x y, r x y ↔ r' x y) :
    Pointwise r a b ↔ Pointwise r' a b := by
  simp only [Pointwise, h]

/-- Turning the relation round turns `Pointwise` round. -/
theorem Pointwise.symm {r r' : Double → Double → Prop} (h : ∀ x y, r x y → r' y x) (hab : Pointwise r a b) :
    Pointwise r' b a := by
  obtain ⟨⟨hrows, hcols⟩, hentries⟩ := hab
  exact ⟨⟨hrows.symm, hcols.symm⟩, fun i hi j hj => h _ _ (hentries i (hrows ▸ hi) j (hcols ▸ hj))⟩

/-- `Pointwise` is transitive if its relation is. -/
theorem Pointwise.trans {r : Double → Double → Prop} (h : ∀ x y z, r x y → r y z → r x z) (hab : Pointwise r a b)
    (hbc : Pointwise r b c) : Pointwise r a c := by
  obtain ⟨⟨hrows, hcols⟩, hentries⟩ := hab
  obtain ⟨⟨hrows', hcols'⟩, hentries'⟩ := hbc
  refine ⟨⟨hrows.trans hrows', hcols.trans hcols'⟩, fun i hi j hj => ?_⟩
  exact h _ _ _ (hentries i hi j hj) (hentries' i (hrows ▸ hi) j (hcols ▸ hj))

/-- `sameAs`, which is `equals` without a tolerance, is an equivalence. -/
theorem sameAs_equivalence : Equivalence fun a b : Matrix Double => a.sameAs b = true where
  refl _ := equals_iff.mpr ⟨⟨rfl, rfl⟩, fun _ _ _ _ => Double.agrees_zero_iff.mpr (.inl (.refl _))⟩
  symm h := equals_iff.mpr ((equals_iff.mp h).symm fun _ _ hxy => Double.agrees_comm.trans hxy)
  trans h h' := equals_iff.mpr ((equals_iff.mp h).trans (fun _ _ _ => Double.agrees_zero_trans) (equals_iff.mp h'))

/-- Matrices are compared element by element. Within a finite tolerance, NaN agrees with NaN only and an infinity
with itself only; within an infinite one, all numbers agree, the infinities among them. Comparison goes both
ways, a larger tolerance keeps it, and without tolerance it is an equivalence. -/
theorem equals_spec (a b : Matrix Double) :
    (∀ t : Double, 0 ≤ t → t.isInfinite = false → (a.equals b t = true ↔ Pointwise (Double.AgreesWithin t) a b)) ∧
      (∀ t : Double, 0 ≤ t → t.isInfinite = true →
        (a.equals b t = true ↔ Pointwise (fun x y => x.isNaN = y.isNaN) a b)) ∧
      (∀ t : Double, a.equals b t = b.equals a t) ∧
      (∀ s t : Double, s ≤ t → a.equals b s = true → a.equals b t = true) ∧
      Equivalence fun a b : Matrix Double => a.sameAs b = true := by
  refine ⟨?finite, ?infinite, ?symmetric, ?monotone, sameAs_equivalence⟩
  case finite =>
    intro t ht hfinite
    rw [equals_iff]
    exact Pointwise.congr fun x y => Double.agrees_iff_agreesWithin ht hfinite
  case infinite =>
    intro t ht hinfinite
    rw [equals_iff]
    exact Pointwise.congr fun x y => Double.agrees_iff_isNaN_eq ht hinfinite
  case symmetric =>
    intro t
    rw [Bool.eq_iff_iff, equals_iff, equals_iff]
    have hturn (x y : Double) (h : Double.agrees t x y = true) : Double.agrees t y x = true :=
      Double.agrees_comm.trans h
    exact ⟨.symm hturn, .symm hturn⟩
  case monotone =>
    intro s t hst h
    obtain ⟨hsizes, hentries⟩ := equals_iff.mp h
    exact equals_iff.mpr ⟨hsizes, fun i hi j hj => Double.agrees_mono hst (hentries i hi j hj)⟩

/-- A NaN, an infinity, two numbers half a unit apart and the two zeros. -/
def specialRow : Matrix Double := ofRows 1 4 [[Double.quietNaN false, Double.infinity true, 1, 0]]

/-- Numbers that agree with them within one half. -/
def nearbyRow : Matrix Double := ofRows 1 4 [[Double.quietNaN true, Double.infinity true, 1.5, -0]]

theorem equals_spec_special :
    specialRow.equals nearbyRow 0.5 = true ∧ Pointwise (Double.AgreesWithin 0.5) specialRow nearbyRow ∧
      nearbyRow.equals specialRow 1 = true ∧
      Pointwise (fun x y => x.isNaN = y.isNaN) specialRow nearbyRow := by
  obtain ⟨hfinite, hinfinite, hcomm, hmono, -⟩ := equals_spec specialRow nearbyRow
  have hequal : specialRow.equals nearbyRow 0.5 = true := by decide +kernel
  have hhalf : (0 : Double) ≤ 0.5 := by decide +kernel
  have hlarger : (0.5 : Double) ≤ 1 := by decide +kernel
  have hbeyond : (0.5 : Double) ≤ Double.infinity false := by decide +kernel
  exact ⟨hequal, (hfinite 0.5 hhalf (by decide +kernel)).mp hequal, hcomm 1 ▸ hmono 0.5 1 hlarger hequal,
    (hinfinite (Double.infinity false) (by decide) rfl).mp (hmono 0.5 _ hbeyond hequal)⟩

/-- Not every tolerance keeps an infinity apart from a number: an infinite one does not, nor does it tell the two
infinities apart. -/
theorem infinity_within_infinite_tolerance :
    (¬∀ (a b : Matrix Double) (t : Double), 0 ≤ t →
      (a.equals b t = true ↔ Pointwise (Double.AgreesWithin t) a b)) ∧
      (ofRows 1 1 [[Double.infinity false]]).equals (ofRows 1 1 [[1]]) (Double.infinity false) = true ∧
      (ofRows 1 1 [[Double.infinity false]]).equals (ofRows 1 1 [[Double.infinity true]]) (Double.infinity false) =
        true := by
  have hequal : (ofRows 1 1 [[Double.infinity false]]).equals (ofRows 1 1 [[1]]) (Double.infinity false) = true := by
    decide +kernel
  refine ⟨fun h => ?_, hequal, by decide +kernel⟩
  have hagree := ((h _ _ _ (by decide)).mp hequal).2 0 (by decide) 0 (by decide)
  cases hagree with
  | nans hx => exact absurd hx (by decide)
  | infinities _ heq => exact absurd heq (by decide)
  | numbers hx => exact absurd hx (by decide)

end Matrix

end Georef

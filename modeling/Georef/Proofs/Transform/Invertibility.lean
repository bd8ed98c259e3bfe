import Georef.Proofs.Matrix.DefaultSolver
import Georef.Proofs.Transform.Inverse

/-!
# Invertibility and form

Each form of a linear transform decides on its own whether it has an inverse: a transform of the line looks at
its scale, a selection at its ordinates, and the general form at the condition number of its matrix. This file
compares the decision of the form that was chosen for a matrix with that of the general form, for any solver that
judges the plainest matrices rightly.

They agree but for two cases. A selection that takes every ordinate and some of them more than once is not a
permutation and has no inverse of its form, where the general form finds a least-squares inverse. And a
transform of the line is inverted whenever its scale is not zero, where the general form also asks for a condition
number that is not above the threshold. Nothing is said about transforms of the line with numbers that are not finite,
other than those with a scale of zero.

## Key results

- `isNonInvertible_of_inverse_eq_error`: an inverse fails only for want of an inverse
- `IsNormal.exists_inverse_iff`: but for the two cases, a form has an inverse if its matrix has one
- `inverse_independent_of_form`: what the forms decide, and that their inverses have one matrix
-/

namespace Georef

/-- The failure is that something has no inverse, and not that sizes or numbers are wrong. -/
def Failure.isNonInvertible : Failure → Bool
  | noUniqueSolution .. | illConditioned .. | zeroPivot | zeroScale | notPermutation _ => true
  | _ => false

/-! ## Failures -/

section Failures

variable {α : Type} [Zero α] [One α] [Add α] [Sub α] [Mul α] [Div α] [BEq α] [Solver α]

omit [Add α] in
/-- `Matrix.inverse` of a matrix with columns fails only for want of an inverse. -/
theorem Matrix.isNonInvertible_of_inverse_eq_error {m : Matrix α} {e : Failure} (hcols : 1 ≤ m.cols)
    (h : m.inverse = .error e) : e.isNonInvertible = true := by
  obtain ⟨hne, -⟩ | ⟨-, hnone, -⟩ | ⟨-, rfl | rfl | rfl⟩ := Matrix.failure_of_solve h
  · exact absurd rfl hne
  · exact absurd hnone (Nat.ne_of_gt hcols)
  all_goals rfl

namespace LinearTransform

variable [Solver.Sized α]

/-- `ofMatrix` makes a transform of the inverse of a matrix, if there is one. -/
theorem exists_ofMatrix_inverse_iff {m : Matrix α} (hrows : 2 ≤ m.rows) (hcols : 2 ≤ m.cols) :
    (∃ u : LinearTransform α, (do ofMatrix (← m.inverse)) = .ok u) ↔ ∃ x, m.inverse = .ok x := by
  constructor
  · rintro ⟨u, hu⟩
    cases hinverse : m.inverse with
    | error e => rw [hinverse] at hu; cases hu
    | ok x => exact ⟨x, rfl⟩
  · rintro ⟨x, hx⟩
    obtain ⟨hxrows, hxcols⟩ := Matrix.size_inverse hx
    rw [hx]
    exact exists_ofMatrix (by omega) (by omega)

variable [Neg α]

/-- `inverse` of a transform fails only for want of an inverse. -/
theorem isNonInvertible_of_inverse_eq_error {t : LinearTransform α} {e : Failure}
    (hrows : 2 ≤ t.matrix.rows) (hcols : 2 ≤ t.matrix.cols) (h : t.inverse = .error e) :
    e.isNonInvertible = true := by
  -- Two of the forms are inverted by way of the matrix.
  have hsolved (h : (do ofMatrix (← t.matrix.inverse)) = (.error e : Except Failure (LinearTransform α))) :
      e.isNonInvertible = true := by
    cases hinverse : t.matrix.inverse with
    | error e' =>
      rw [hinverse] at h
      obtain rfl : e' = e := Except.error.inj h
      exact Matrix.isNonInvertible_of_inverse_eq_error (by omega) hinverse
    | ok x =>
      obtain ⟨u, hu⟩ := (exists_ofMatrix_inverse_iff hrows hcols).mpr ⟨x, hinverse⟩
      cases h.symm.trans hu
  cases t with
  | identity dimension => cases h
  | scaleOffset scale offset =>
    rw [LinearTransform.inverse] at h
    split at h
    · obtain rfl := Except.error.inj h
      rfl
    · cases h
  | affine m00 m10 m01 m11 m02 m12 => exact hsolved h
  | selection source indices =>
    rw [LinearTransform.inverse] at h
    split at h
    · cases h
    · obtain rfl := Except.error.inj h
      rfl
  | projective planar m => exact hsolved h

/-- Asked for its `inverse`, the transform fails because it has none. -/
def NonInvertible (t : LinearTransform α) : Prop :=
  ∃ e, t.inverse = .error e ∧ e.isNonInvertible = true

/-- As there is no other failure, to be `NonInvertible` is to have no inverse. -/
theorem nonInvertible_iff {t : LinearTransform α} (hrows : 2 ≤ t.matrix.rows) (hcols : 2 ≤ t.matrix.cols) :
    t.NonInvertible ↔ ¬∃ u, t.inverse = .ok u := by
  constructor
  · rintro ⟨e, he, -⟩ ⟨u, hu⟩
    cases he.symm.trans hu
  · intro hnone
    cases h : t.inverse with
    | ok u => exact absurd ⟨u, h⟩ hnone
    | error e => exact ⟨e, h, isNonInvertible_of_inverse_eq_error hrows hcols h⟩

end LinearTransform

end Failures

namespace LinearTransform

/-! ## The two cases -/

/-- A selection that takes every ordinate, and more ordinates than there are: its indices name some
    of them twice. -/
def Repeats {α : Type} : LinearTransform α → Prop
  | selection source indices => source < indices.length ∧ ∀ i : Nat, i < source → (i : Int) ∈ indices
  | _ => False

/-- A transform of the line with a scale other than zero, whose matrix the general form would refuse for its condition
number. `LinearTransform.inverse` does not ask for it. -/
def Unchecked [Solver Double] : LinearTransform Double → Prop
  | scaleOffset scale offset => scale.Finite ∧ offset.Finite ∧ (scale == 0) = false ∧
      Solver.wellConditioned (scaleOffset scale offset).matrix = false
  | _ => False

/-- A transform of the line with a scale other than zero, but not with finite numbers. -/
def NotFinite : LinearTransform Double → Prop
  | scaleOffset scale offset => (scale == 0) = false ∧ ¬(scale.Finite ∧ offset.Finite)
  | _ => False

/-! ## Selections -/

section Selections

variable {source : Nat} {places : List Nat}

/-- The rows of `selectionMatrix` are those of an identity; the last one is the last. -/
theorem unitRows_selectionMatrix (hlt : ∀ i (h : i < places.length), places[i] < source) :
    Matrix.UnitRows (selectionMatrix source (places.map fun (j : Nat) => (j : Int)))
      (places ++ [source]) where
  rows_eq := by simp
  entry i j hi (hj : j < source + 1) := by
    rw [List.length_append, List.length_singleton] at hi
    by_cases hlast : i = places.length
    · rw [entry_selectionMatrix_last (by simpa using hlast) hj, hlast, List.getElem?_concat_length]
      simp only [Option.some_inj, eq_comm]
    · have hi' : i < places.length := by omega
      rw [entry_selectionMatrix_natCast hi' (hlt i hi') hj, List.getElem?_append_left hi',
        List.getElem?_eq_getElem hi']
      simp only [Option.some_inj, eq_comm]

variable [Solver Double] [Solver.DoublePivots]

/-- The matrix of a permutation has an inverse, for any solver that is `Discerning`. -/
theorem exists_inverse_of_isPermutation (hperm : places.Perm (List.range source))
    (hjudge : Solver.Discerning (source + 1)) :
    ∃ x, (selectionMatrix source (places.map fun (j : Nat) => (j : Int)) : Matrix Double).inverse =
      .ok x := by
  have hrows := unitRows_selectionMatrix (getElem_lt_of_perm_range hperm)
  have hperm' : (places ++ [source]).Perm (List.range (source + 1)) := by
    rw [List.range_succ]
    exact hperm.append_right [source]
  have hlength : places.length = source := by rw [hperm.length_eq, List.length_range]
  have hcondition := hjudge.unitRows (by simp [hlength]) hrows (Nat.succ_pos source)
    fun j hj => hperm'.symm.subset (List.mem_range.mpr hj)
  exact hrows.exists_inverse_of_perm (Nat.succ_pos source) hperm' hcondition

/-- An ordinate that is not taken leaves a column of zeros, which no `Discerning` solver accepts. -/
theorem not_exists_inverse_of_notMem (hlt : ∀ i (h : i < places.length), places[i] < source) {j : Nat}
    (hj : j < source) (hnot : j ∉ places) (hjudge : Solver.Discerning (places.length + 1)) :
    ¬∃ x, (selectionMatrix source (places.map fun (j : Nat) => (j : Int)) : Matrix Double).inverse =
      .ok x := by
  intro h
  obtain ⟨-, -, -, -, hcondition, -⟩ := Matrix.exists_solve_iff.mp h
  have hrows := unitRows_selectionMatrix hlt
  -- The column of an ordinate that is not taken has zeros only.
  have hfalse := hjudge.zeroColumn (j := j)
    (m := selectionMatrix source (places.map fun (j : Nat) => (j : Int))) (by simp)
    (Nat.lt_succ_of_lt hj) fun i hi => by
      rw [hrows.entry i j (hrows.rows_eq ▸ hi) (Nat.lt_succ_of_lt hj), if_neg]
      · exact UnitsApart.zero_beq_zero
      · intro htaken
        have hmem := List.mem_of_getElem? htaken
        obtain hmem | hmem := List.mem_append.mp hmem
        · exact hnot hmem
        · exact absurd (List.mem_singleton.mp hmem) (Nat.ne_of_lt hj)
  rw [hfalse] at hcondition
  cases hcondition

/-- If every ordinate is taken and some are taken more than once, the matrix has a least-squares inverse. -/
theorem exists_inverse_of_repeats (hlt : ∀ i (h : i < places.length), places[i] < source)
    (hlonger : source < places.length) (hall : ∀ j, j < source → j ∈ places)
    (hjudge : Solver.Discerning (places.length + 1)) :
    ∃ x, (selectionMatrix source (places.map fun (j : Nat) => (j : Int)) : Matrix Double).inverse =
      .ok x := by
  have hrows := unitRows_selectionMatrix hlt
  have hcondition := hjudge.unitRows (by simp) hrows (Nat.succ_pos source) fun j (hj : j < source + 1) => by
    obtain hj | rfl : j < source ∨ j = source := by omega
    · exact List.mem_append_left _ (hall j hj)
    · exact List.mem_append_right _ List.mem_cons_self
  exact hrows.exists_inverse_of_lt (Nat.succ_pos source) (by simpa using hlonger) hcondition

end Selections

/-! ## The decisions compared -/

section Decisions

variable [Solver Double] [Solver.DoublePivots]

/-- Apart from the cases named, a normal transform has an `inverse` exactly if its matrix has one. -/
theorem IsNormal.exists_inverse_iff [Solver.Sized Double] [Solver.TinyPivots] {t : LinearTransform Double}
    (ht : t.IsNormal) (hjudge : Solver.Discerning t.matrix.rows) (hrepeats : ¬t.Repeats) (hunchecked : ¬t.Unchecked)
    (hfinite : ¬t.NotFinite) : (∃ u, t.inverse = .ok u) ↔ ∃ x, t.matrix.inverse = .ok x := by
  obtain ⟨hrows, hcols, -⟩ := ofMatrix_eq_ok_iff.mp ht
  cases t with
  | identity dimension =>
    refine iff_of_true ⟨_, rfl⟩ ?_
    have hunit := Matrix.unitRows_eye (dimension + 1)
    have hcondition := hjudge.unitRows rfl hunit (Nat.succ_pos dimension) fun j hj => List.mem_range.mpr hj
    exact hunit.exists_inverse_of_perm (Nat.succ_pos dimension) (.refl _) hcondition
  | scaleOffset scale offset =>
    have hform : (∃ u, (scaleOffset scale offset).inverse = .ok u) ↔ (scale == 0) = false := by
      rw [LinearTransform.inverse]
      cases hzero : (scale == 0) with
      | true =>
        refine iff_of_false ?_ (by decide)
        rintro ⟨u, hu⟩
        cases hu
      | false => exact iff_of_true ⟨_, rfl⟩ rfl
    rw [hform, matrix, Matrix.exists_inverse_line_iff hjudge]
    refine ⟨fun hne => ?_, And.left⟩
    -- What the general form asks for besides is what the last two cases are about.
    obtain ⟨hscale, hoffset⟩ : scale.Finite ∧ offset.Finite := by
      by_contra hnot
      exact hfinite ⟨hne, hnot⟩
    refine ⟨hne, hscale, hoffset, ?_⟩
    by_contra hnot
    exact hunchecked ⟨hscale, hoffset, hne, Bool.eq_false_iff.mpr hnot⟩
  | affine m00 m10 m01 m11 m02 m12 => exact exists_ofMatrix_inverse_iff hrows hcols
  | selection source indices =>
    obtain ⟨places, rfl, hlt, -⟩ := ht.selection_places
    rw [matrix, rows_selectionMatrix, List.length_map] at hjudge
    rw [LinearTransform.inverse, matrix]
    by_cases hpermutation : isPermutation source (places.map fun (j : Nat) => (j : Int)) = true
    · rw [if_pos hpermutation]
      have hperm := isPermutation_iff.mp hpermutation
      rw [hperm.length_eq, List.length_range] at hjudge
      exact iff_of_true ⟨_, rfl⟩ (exists_inverse_of_isPermutation hperm hjudge)
    · rw [if_neg hpermutation]
      -- If all ordinates were taken, some would be taken twice.
      have hnot : ∃ j, j < source ∧ j ∉ places := by
        by_contra hall
        push Not at hall
        have hlength : places.length ≤ source := by
          by_contra hlonger
          refine hrepeats ⟨?_, fun i hi => List.mem_map_of_mem (hall i hi)⟩
          rw [List.length_map]
          omega
        have hsub : List.range source ⊆ places := fun j hj => hall j (List.mem_range.mp hj)
        have hperm := (List.subperm_of_subset List.nodup_range hsub).perm_of_length_le
          (by rw [List.length_range]; exact hlength)
        exact hpermutation (isPermutation_iff.mpr hperm.symm)
      obtain ⟨j, hj, hnot⟩ := hnot
      refine iff_of_false ?_ (not_exists_inverse_of_notMem hlt hj hnot hjudge)
      rintro ⟨u, hu⟩
      cases hu
  | projective planar m => exact exists_ofMatrix_inverse_iff hrows hcols

/-- A selection that `Repeats` has no inverse of its form, but its matrix has one. -/
theorem IsNormal.inverse_of_repeats {t : LinearTransform Double} (ht : t.IsNormal)
    (hjudge : Solver.Discerning t.matrix.rows) (hrepeats : t.Repeats) :
    (¬∃ u, t.inverse = .ok u) ∧ ∃ x, t.matrix.inverse = .ok x := by
  -- Only a selection can repeat ordinates.
  cases t with
  | selection source indices =>
    obtain ⟨places, rfl, hlt, -⟩ := ht.selection_places
    obtain ⟨hlonger, hall⟩ := hrepeats
    rw [List.length_map] at hlonger
    rw [matrix, rows_selectionMatrix, List.length_map] at hjudge
    refine ⟨?_, exists_inverse_of_repeats hlt hlonger (fun j hj => ?_) hjudge⟩
    · rintro ⟨u, hu⟩
      rw [LinearTransform.inverse, if_neg] at hu
      · cases hu
      · intro hpermutation
        have := length_of_perm_range (isPermutation_iff.mp hpermutation)
        omega
    · obtain ⟨i, hi, heq⟩ := List.mem_map.mp (hall j hj)
      rwa [Int.ofNat_inj.mp heq] at hi
  | identity _ => exact hrepeats.elim
  | scaleOffset _ _ => exact hrepeats.elim
  | affine _ _ _ _ _ _ => exact hrepeats.elim
  | projective _ _ => exact hrepeats.elim

/-- A transform of the line that is `Unchecked` has an inverse, but its matrix has none. -/
theorem inverse_of_unchecked {t : LinearTransform Double} (hunchecked : t.Unchecked) :
    (∃ u, t.inverse = .ok u) ∧ ¬∃ x, t.matrix.inverse = .ok x := by
  cases t with
  | scaleOffset scale offset =>
    obtain ⟨-, -, hne, hcondition⟩ := hunchecked
    refine ⟨⟨ofScale (1 / scale) (-offset / scale), ?_⟩, fun h => ?_⟩
    · rw [LinearTransform.inverse, hne]
      rfl
    · obtain ⟨-, -, -, -, hgood, -⟩ := Matrix.exists_solve_iff.mp h
      rw [hcondition] at hgood
      cases hgood
  | identity _ => exact hunchecked.elim
  | affine _ _ _ _ _ _ => exact hunchecked.elim
  | selection _ _ => exact hunchecked.elim
  | projective _ _ => exact hunchecked.elim

end Decisions

/-! ## The inverses compared -/

/-- Over exact numbers, the `inverse` of a form and that of the general form have the same matrix. -/
theorem matrix_eq_of_inverses {K : Type} [Field K] [LinearOrder K] [IsStrictOrderedRing K] [Solver K]
    [Solver.Exact K] {m : Matrix K} {t u v : LinearTransform K} (ht : ofMatrix m = .ok t)
    (hu : t.inverse = .ok u) (hv : (projective false m).inverse = .ok v) : u.matrix = v.matrix := by
  obtain rfl := matrix_of_ofMatrix ht
  obtain ⟨x, hx, hvx⟩ : ∃ x, t.matrix.inverse = .ok x ∧ ofMatrix x = .ok v := by
    cases invertsTo_of_inverse hv with
    | solved hx hvx => exact ⟨_, hx, hvx⟩
  rw [matrix_of_ofMatrix hvx]
  -- A square matrix has only one inverse, and the others are solved for in the same way.
  have hsquare (hsize : t.matrix.rows = t.matrix.cols) : u.matrix = x := by
    obtain ⟨-, hcols, hproduct⟩ := leftInverse_of_inverse hu
    obtain ⟨hrows, -, -, hright⟩ := Matrix.inverse_sound hx
    exact Matrix.eq_of_inverses (hcols.trans hsize) hrows hproduct (hsize ▸ (hright hsize).1)
  cases invertsTo_of_inverse hu with
  | identity dimension => exact hsquare rfl
  | scaleOffset offset _ => exact hsquare rfl
  | selection hpermutation =>
    obtain ⟨places, rfl, -⟩ := (isNormal_of_ofMatrix ht).selection_places
    have hlength := length_of_perm_range (isPermutation_iff.mp hpermutation)
    exact hsquare (by simp [matrix, hlength])
  | solved hx' hux =>
    rw [matrix_of_ofMatrix hux]
    exact Except.ok.inj (hx'.symm.trans hx)

/-- Whatever solver for doubles is used that judges the plainest matrices rightly: whether a linear transform has an
inverse does not depend on the form that was chosen for its matrix, but for two cases. A selection that takes every
ordinate and repeats some has none, though the general form has one. A transform of the line with finite numbers and a
scale other than zero has one, though the general form has none if the condition number is above the threshold. If the
scale is not zero and a number is not finite, nothing is said. The inverses have the same matrix over exact numbers. -/
theorem inverse_independent_of_form [Solver Double] [Solver.Sized Double] [Solver.DoublePivots] [Solver.TinyPivots] :
    (∀ m : Matrix Double, 2 ≤ m.rows → 2 ≤ m.cols → Solver.Discerning m.rows → ∃ t, ofMatrix m = .ok t ∧
      (t.Repeats → t.NonInvertible ∧ ∃ v, (projective false m).inverse = .ok v) ∧
      (t.Unchecked → (∃ u, t.inverse = .ok u) ∧ (projective false m).NonInvertible) ∧
      (¬t.Repeats → ¬t.Unchecked → ¬t.NotFinite → (t.NonInvertible ↔ (projective false m).NonInvertible))) ∧
    ∀ (K : Type) [Field K] [LinearOrder K] [IsStrictOrderedRing K] [Solver K] [Solver.Exact K]
      (m : Matrix K) (t u v : LinearTransform K), ofMatrix m = .ok t → t.inverse = .ok u →
        (projective false m).inverse = .ok v → u.matrix = v.matrix := by
  refine ⟨fun m hrows hcols hjudge => ?_, fun K _ _ _ _ _ m t u v => matrix_eq_of_inverses⟩
  obtain ⟨t, ht⟩ := exists_ofMatrix hrows hcols
  have hnormal := isNormal_of_ofMatrix ht
  obtain ⟨hrows', hcols', -⟩ := ofMatrix_eq_ok_iff.mp hnormal
  -- The form remembers the matrix but for the signs of zeros.
  have hsame := (eqUpToUnits_matrix ht).sameNumbers
  have hjudge' : Solver.Discerning t.matrix.rows := hsame.rows_eq.symm ▸ hjudge
  have hgeneral : (∃ v, (projective false m).inverse = .ok v) ↔ ∃ x, t.matrix.inverse = .ok x :=
    (exists_ofMatrix_inverse_iff hrows hcols).trans
      (Matrix.SameNumbers.exists_inverse_iff (hjudge'.congr rfl hsame) hsame).symm
  have hform := nonInvertible_iff hrows' hcols'
  have hgeneral' := nonInvertible_iff (t := projective false m) hrows hcols
  refine ⟨t, ht, fun hrepeats => ?_, fun hunchecked => ?_, fun hrepeats hunchecked hfinite => ?_⟩
  · obtain ⟨hnone, hsome⟩ := hnormal.inverse_of_repeats hjudge' hrepeats
    rw [hform, hgeneral]
    exact ⟨hnone, hsome⟩
  · obtain ⟨hsome, hnone⟩ := inverse_of_unchecked hunchecked
    rw [hgeneral', hgeneral]
    exact ⟨hsome, hnone⟩
  · rw [hform, hgeneral', hgeneral, hnormal.exists_inverse_iff hjudge' hrepeats hunchecked hfinite]

/-- Without the two cases there would be a contradiction: a scale of 10^-30 has a reciprocal, but its matrix has
too large a condition number for the general form. -/
theorem inverse_depends_on_form :
    ¬∀ m : Matrix Double, 2 ≤ m.rows → 2 ≤ m.cols → ∀ t, ofMatrix m = .ok t →
      (t.NonInvertible ↔ (projective false m).NonInvertible) := by
  intro hall
  have hform : ofMatrix (.ofRows 2 2 [[(1e-30 : Double), 0], [0, 1]]) = .ok (.scaleOffset 1e-30 0) := by
    decide +kernel
  have hgeneral : (projective false (.ofRows 2 2 [[(1e-30 : Double), 0], [0, 1]])).inverse =
      .error (.illConditioned 2 2) := by decide +kernel
  have hscale : (scaleOffset (1e-30 : Double) 0).inverse = .ok (ofScale (1 / 1e-30) (-0 / 1e-30)) := by
    decide +kernel
  obtain ⟨e, he, -⟩ := (hall _ (Nat.le_refl 2) (Nat.le_refl 2) _ hform).mpr ⟨_, hgeneral, rfl⟩
  exact nomatch he.symm.trans hscale

/-- Each of the cases at a matrix of its own. -/
theorem inverse_independent_of_form_cases :
    (∃ v, (selection 1 [0, 0] : LinearTransform Double).NonInvertible ∧
      (projective false (.ofRows 3 2 [[(1 : Double), 0], [1, 0], [0, 1]])).inverse = .ok v) ∧
    (∃ u, (scaleOffset (1e-30 : Double) 0).inverse = .ok u ∧
      (projective false (.ofRows 2 2 [[(1e-30 : Double), 0], [0, 1]])).NonInvertible) ∧
    ((affine (1 : Double) 1 1 1 0 0).NonInvertible ↔
      (projective false (.ofRows 3 3 [[(1 : Double), 1, 0], [1, 1, 0], [0, 0, 1]])).NonInvertible) ∧
    ∃ v, (projective false (.ofRows 2 2 [[2, 0], [0, (1 : ℚ)]])).inverse = .ok v ∧
      (scaleOffset (1 / 2 : ℚ) 0).matrix = v.matrix := by
  have hselection : ofMatrix (.ofRows 3 2 [[(1 : Double), 0], [1, 0], [0, 1]]) = .ok (.selection 1 [0, 0]) := by
    decide +kernel
  have hline : ofMatrix (.ofRows 2 2 [[(1e-30 : Double), 0], [0, 1]]) = .ok (.scaleOffset 1e-30 0) := by
    decide +kernel
  have hrefused : (scaleOffset (1e-30 : Double) 0).Unchecked := by
    unfold Unchecked
    decide +kernel
  have hplane : ofMatrix (.ofRows 3 3 [[(1 : Double), 1, 0], [1, 1, 0], [0, 0, 1]]) =
      .ok (.affine 1 1 1 1 0 0) := by decide +kernel
  obtain ⟨hdoubles, hnumbers⟩ := inverse_independent_of_form
  have hjudge (rows : Nat) (hrows : rows ≤ 3) : Solver.Discerning rows :=
    Solver.discerning_of_le (hrows.trans (by decide))
  refine ⟨?_, ?_, ?_, ?_⟩
  · obtain ⟨t, ht, hrepeats, -⟩ :=
      hdoubles (.ofRows 3 2 [[1, 0], [1, 0], [0, 1]]) (by decide) (by decide) (hjudge 3 le_rfl)
    obtain rfl := Except.ok.inj (ht.symm.trans hselection)
    obtain ⟨hnone, v, hv⟩ := hrepeats ⟨by decide, by decide⟩
    exact ⟨v, hnone, hv⟩
  · obtain ⟨t, ht, -, hunchecked, -⟩ :=
      hdoubles (.ofRows 2 2 [[1e-30, 0], [0, 1]]) (by decide) (by decide) (hjudge 2 (by decide))
    obtain rfl := Except.ok.inj (ht.symm.trans hline)
    obtain ⟨⟨u, hu⟩, hnone⟩ := hunchecked hrefused
    exact ⟨u, hu, hnone⟩
  · obtain ⟨t, ht, -, -, hsame⟩ :=
      hdoubles (.ofRows 3 3 [[1, 1, 0], [1, 1, 0], [0, 0, 1]]) (by decide) (by decide) (hjudge 3 le_rfl)
    obtain rfl := Except.ok.inj (ht.symm.trans hplane)
    exact hsame id id id
  · let m : Matrix ℚ := .ofRows 2 2 [[2, 0], [0, 1]]
    have hform : ofMatrix m = .ok (.scaleOffset 2 0) := by
      rw [ofMatrix_scaleOffset]
      norm_num [ofScale]
    have hinverse : (scaleOffset 2 0 : LinearTransform ℚ).inverse = .ok (.scaleOffset (1 / 2) 0) := by
      rw [LinearTransform.inverse, if_neg (by simp)]
      norm_num [ofScale]
    have hcolumn (v : Nat → ℚ) : m.mulVec v 0 = 2 * v 0 ∧ m.mulVec v 1 = v 1 := by
      simp [Finset.sum_range_succ, m, Matrix.mulVec, Matrix.entry_ofRows]
    -- Over exact numbers the matrix has to be well-conditioned as well, and it stretches by two at
    -- most.
    have hcondition : m.ConditionAtMost (2 ^ 52) := by
      refine ⟨fun v hv j (hj : j < 2) => ?_, fun u v => ?_⟩
      · have hfirst := hv 0
        have hsecond := hv 1
        rw [(hcolumn v).1] at hfirst
        rw [(hcolumn v).2] at hsecond
        interval_cases j
        · linarith
        · exact hsecond
      · -- No column is stretched by more than two, and none is shortened.
        have hsquares (v : Nat → ℚ) : Matrix.sumSquares 2 v = v 0 * v 0 + v 1 * v 1 := by
          simp [Matrix.sumSquares, Finset.sum_range_succ]
        have hnonneg := Matrix.sumSquares_nonneg (K := ℚ) 2
        have hupper : Matrix.sumSquares 2 (m.mulVec u) ≤ 4 * Matrix.sumSquares 2 u := by
          rw [hsquares, hsquares, (hcolumn u).1, (hcolumn u).2]
          linarith [mul_self_nonneg (u 1)]
        have hlower : Matrix.sumSquares 2 v ≤ Matrix.sumSquares 2 (m.mulVec v) := by
          rw [hsquares, hsquares, (hcolumn v).1, (hcolumn v).2]
          linarith [mul_self_nonneg (v 0)]
        show Matrix.sumSquares 2 (m.mulVec u) * Matrix.sumSquares 2 v ≤
          (2 ^ 52) ^ 2 * (Matrix.sumSquares 2 (m.mulVec v) * Matrix.sumSquares 2 u)
        have hproduct := mul_le_mul hupper hlower (hnonneg v) (by linarith [hnonneg u])
        have := mul_nonneg (hnonneg (m.mulVec v)) (hnonneg u)
        linarith
    obtain ⟨x, hx⟩ := Matrix.exists_inverse (a := m) rfl Nat.two_pos hcondition
    obtain ⟨v, hv⟩ := (exists_ofMatrix_inverse_iff (m := m) (Nat.le_refl 2) (Nat.le_refl 2)).mpr ⟨x, hx⟩
    exact ⟨v, hv, hnumbers ℚ m _ _ _ hform hinverse hv⟩

end LinearTransform

end Georef

import Georef.Proofs.Transform.Selection
import Georef.Transform.Comparison
import Mathlib.Tactic.IntervalCases

/-!
# The normal form of linear transforms

`LinearTransform.ofMatrix` puts a matrix into the simplest of five forms, most of which forget the
matrix. `KeptAs` lists what each form has to know of the matrix, and the other results are cases on it.

They hold for any numbers whose comparison tells zero from one, so they serve doubles, where numbers
that compare equal need not be the same, as well as exact numbers.

## Key results

- `ofMatrix_eq_ok_iff`: the conditions under which a matrix is kept in a form
- `eqUpToUnits_matrix`: a form gives its matrix back, but for zeros and ones that compare equal
- `Made.isNormal`: the matrix of a transform that was made in one of the usual ways gives the same
  transform again
- `IsNormal.inverse`: so does the matrix of its inverse
- `ofMatrix_lossless`: all of this for doubles, as comparison sees it
-/

namespace Georef

namespace LinearTransform

variable {α : Type} [Zero α] [One α] [BEq α]

/-! ## The form of a matrix -/

/-- A matrix is none of those that are kept as an identity, as a transform of the line or as a transform
    of the plane. -/
structure Unplaced (m : Matrix α) : Prop where
  not_identity : m.isIdentity = false
  large_of_affine : m.isAffine = true → 4 ≤ m.cols
  not_planar : ¬(m.rows = 3 ∧ m.cols = 3)

/-- The form that a matrix is kept in by `ofMatrix`, with what was found out on the way to it. -/
inductive KeptAs (m : Matrix α) : LinearTransform α → Prop where
  | identity : m.isIdentity = true → KeptAs m (.identity (m.cols - 1))
  | scaleOffset : m.isIdentity = false → m.isAffine = true → m.cols = 2 →
      KeptAs m (.scaleOffset (m.entry 0 0) (m.entry 0 1))
  | affine : m.isIdentity = false → m.isAffine = true → m.cols = 3 →
      KeptAs m (.affine (m.entry 0 0) (m.entry 1 0) (m.entry 0 1) (m.entry 1 1) (m.entry 0 2)
        (m.entry 1 2))
  | planar : m.isAffine = false → m.rows = 3 → m.cols = 3 → KeptAs m (.projective true m)
  | selection {t : LinearTransform α} : Unplaced m → selection? m = some t → KeptAs m t
  | projective : Unplaced m → selection? m = none → KeptAs m (.projective false m)

/-- An `Unplaced` matrix is a selection if it can be, else it is kept. -/
private theorem ofMatrix_of_unplaced {m : Matrix α} (h : Unplaced m) (hrows : 2 ≤ m.rows)
    (hcols : 2 ≤ m.cols) : ofMatrix m = .ok ((selection? m).getD (projective false m)) := by
  obtain ⟨hid, hfour, hthree⟩ := h
  have hline : (m.isAffine && m.cols == 2) = false := by
    rw [Bool.and_eq_false_imp]
    exact fun haffine => beq_false_of_ne fun hcols => by have := hfour haffine; omega
  have hplane : (m.isAffine && m.cols == 3) = false := by
    rw [Bool.and_eq_false_imp]
    exact fun haffine => beq_false_of_ne fun hcols => by have := hfour haffine; omega
  have hsize : ¬(m.rows < 2 ∨ m.cols < 2) := by omega
  have hthree' : (m.rows == 3 && m.cols == 3) = false := by
    rw [Bool.and_eq_false_imp, beq_iff_eq]
    exact fun hrows => beq_false_of_ne fun hcols => hthree ⟨hrows, hcols⟩
  rw [ofMatrix, if_neg hsize]
  simp [hid, hline, hplane, hthree']

/-- `ofMatrix` keeps a matrix of at least two rows and columns in a form that fits it, and no
    smaller matrix. -/
theorem ofMatrix_eq_ok_iff {m : Matrix α} {t : LinearTransform α} :
    ofMatrix m = .ok t ↔ 2 ≤ m.rows ∧ 2 ≤ m.cols ∧ KeptAs m t := by
  by_cases hsize : m.rows < 2 ∨ m.cols < 2
  · rw [ofMatrix, if_pos hsize]
    exact ⟨fun h => (nomatch h), fun ⟨hrows, hcols, _⟩ => by omega⟩
  have hlarge : 2 ≤ m.rows ∧ 2 ≤ m.cols := by omega
  constructor
  · intro h
    rw [ofMatrix, if_neg hsize] at h
    refine ⟨hlarge.1, hlarge.2, ?_⟩
    split at h
    · rename_i hid
      obtain rfl := Except.ok.inj h
      exact .identity hid
    · rename_i hid
      rw [Bool.not_eq_true] at hid
      split at h
      · rename_i hline
        obtain ⟨haffine, hcols⟩ := Bool.and_eq_true_iff.mp hline
        obtain rfl := Except.ok.inj h
        exact .scaleOffset hid haffine (beq_iff_eq.mp hcols)
      · rename_i hline
        split at h
        · rename_i hplane
          obtain ⟨haffine, hcols⟩ := Bool.and_eq_true_iff.mp hplane
          obtain rfl := Except.ok.inj h
          exact .affine hid haffine (beq_iff_eq.mp hcols)
        · rename_i hplane
          -- An affine matrix of two or three columns has been kept already, and it has no fewer.
          have hfour : m.isAffine = true → 4 ≤ m.cols := by
            intro haffine
            rw [haffine, Bool.true_and, beq_iff_eq] at hline hplane
            omega
          split at h
          · rename_i hthree
            obtain ⟨hrows, hcols⟩ := Bool.and_eq_true_iff.mp hthree
            rw [beq_iff_eq] at hrows hcols
            obtain rfl := Except.ok.inj h
            refine .planar ?_ hrows hcols
            exact Bool.eq_false_iff.mpr fun haffine => by
              have := hfour haffine
              omega
          · rename_i hthree
            rw [Bool.and_eq_true_iff, beq_iff_eq, beq_iff_eq] at hthree
            have hunplaced : Unplaced m := ⟨hid, hfour, hthree⟩
            obtain rfl := Except.ok.inj h
            cases hselection : selection? m with
            | none => exact .projective hunplaced hselection
            | some t => exact .selection hunplaced hselection
  · rintro ⟨hrows, hcols, hkept⟩
    cases hkept with
    | identity hid =>
      rw [ofMatrix, if_neg hsize, if_pos hid]
    | scaleOffset hid haffine hcols =>
      rw [ofMatrix, if_neg hsize]
      simp [hid, haffine, hcols]
    | affine hid haffine hcols =>
      rw [ofMatrix, if_neg hsize]
      simp [hid, haffine, hcols]
    | planar haffine hrows hcols =>
      -- The tests for an identity come first, but an identity would be affine.
      have hid : m.isIdentity = false := Bool.eq_false_iff.mpr fun hid => by
        rw [Matrix.isAffine_of_isIdentity hid (by omega)] at haffine
        exact nomatch haffine
      rw [ofMatrix, if_neg hsize]
      simp [hid, haffine, hrows, hcols]
    | selection hunplaced hselection =>
      rw [ofMatrix_of_unplaced hunplaced hrows hcols, hselection]
      rfl
    | projective hunplaced hselection =>
      rw [ofMatrix_of_unplaced hunplaced hrows hcols, hselection]
      rfl

/-- `ofMatrix` gives a transform for every matrix of at least two rows and columns. -/
theorem exists_ofMatrix {m : Matrix α} (hrows : 2 ≤ m.rows) (hcols : 2 ≤ m.cols) :
    ∃ t, ofMatrix m = .ok t := by
  rw [ofMatrix, if_neg (by omega)]
  repeat' split
  all_goals exact ⟨_, rfl⟩

/-! ## Giving the matrix back -/

/-- The `matrix` of a transform is the one it was made of, but for zeros and ones that compare
    equal. -/
theorem eqUpToUnits_matrix [UnitsApart α] {m : Matrix α} {t : LinearTransform α}
    (h : ofMatrix m = .ok t) : t.matrix.EqUpToUnits m := by
  obtain ⟨hrows, hcols, hkept⟩ := ofMatrix_eq_ok_iff.mp h
  cases hkept with
  | identity hid =>
    obtain ⟨hsquare, hentry⟩ := Matrix.isIdentity_iff.mp hid
    refine ⟨?_, ?_, fun i j hi hj => ?_⟩
    · show m.cols - 1 + 1 = m.rows
      omega
    · show m.cols - 1 + 1 = m.cols
      omega
    · have hij := hentry i hi j hj
      show EqUpToUnit ((Matrix.eye (m.cols - 1 + 1) (m.cols - 1 + 1) : Matrix α).entry i j) _
      rw [Matrix.entry_eye (by omega) (by omega)]
      -- The entries compare equal to those of an identity, and so the ones made anew to them.
      by_cases hdiagonal : i = j
      · rw [if_pos hdiagonal] at hij ⊢
        exact .one hij
      · rw [if_neg hdiagonal] at hij ⊢
        exact .zero hij
  | scaleOffset _ haffine htwo =>
    obtain ⟨hsquare, hends⟩ := Matrix.isAffine_iff.mp haffine
    obtain ⟨hlast, hzero⟩ := Matrix.endsAffine_iff.mp hends
    rw [hsquare, htwo] at hlast hzero
    refine ⟨by rw [hsquare, htwo]; rfl, htwo.symm, fun i j hi hj => ?_⟩
    rw [matrix, Matrix.entry_ofRows (by omega) (by omega)]
    rw [hsquare, htwo] at hi
    rw [htwo] at hj
    -- The scale and the offset are kept, the last row is made anew.
    interval_cases i <;> interval_cases j
    · exact .refl _
    · exact .refl _
    · exact .zero (hzero 0 (by decide))
    · exact .one hlast
  | affine _ haffine hthree =>
    obtain ⟨hsquare, hends⟩ := Matrix.isAffine_iff.mp haffine
    obtain ⟨hlast, hzero⟩ := Matrix.endsAffine_iff.mp hends
    rw [hsquare, hthree] at hlast hzero
    refine ⟨by rw [hsquare, hthree]; rfl, hthree.symm, fun i j hi hj => ?_⟩
    rw [matrix, Matrix.entry_ofRows (by omega) (by omega)]
    rw [hsquare, hthree] at hi
    rw [hthree] at hj
    -- The first two rows are kept as they are, only the last one is made anew.
    obtain hi | rfl : i < 2 ∨ i = 2 := by omega
    · interval_cases i <;> interval_cases j <;> exact .refl _
    · interval_cases j
      · exact .zero (hzero 0 (by decide))
      · exact .zero (hzero 1 (by decide))
      · exact .one hlast
  | planar => exact .refl _
  | selection _ hselection =>
    obtain ⟨places, hselects, rfl⟩ := selection?_eq_some_iff.mp hselection
    obtain ⟨hlast, hzero⟩ := Matrix.endsAffine_iff.mp hselects.endsAffine
    have hlength := hselects.length_eq
    refine ⟨?_, ?_, fun i j hi hj => ?_⟩
    · show (places.map _).length + 1 = m.rows
      rw [List.length_map]
      omega
    · show m.cols - 1 + 1 = m.cols
      omega
    · rw [matrix]
      -- A row of the selection, or the last row.
      by_cases hi' : i < places.length
      · rw [entry_selectionMatrix_natCast hi' (hselects.lt i hi') (by omega)]
        split
        · rename_i hplace
          exact .one (hplace ▸ hselects.one i hi')
        · rename_i hplace
          by_cases hoffset : j = m.cols - 1
          · exact .zero (hoffset ▸ hselects.offset i (by omega))
          · exact .zero (hselects.zero i hi' j (by omega) hplace)
      · obtain rfl : i = m.rows - 1 := by omega
        rw [entry_selectionMatrix_last (by rw [List.length_map, hlength]) (by omega)]
        split
        · rename_i hplace
          exact .one (hplace ▸ hlast)
        · exact .zero (hzero j (by omega))
  | projective => exact .refl _

/-! ## Normal transforms -/

/-- The transform is what `ofMatrix` makes of its own matrix. -/
def IsNormal (t : LinearTransform α) : Prop := ofMatrix t.matrix = .ok t

/-- The transform was made of a matrix, of a scale and an offset, or as the identity of a dimension:
    by `ofMatrix`, `ofScale` or `ofDimension`. -/
inductive Made : LinearTransform α → Prop where
  | ofMatrix {m : Matrix α} {t : LinearTransform α} : ofMatrix m = .ok t → Made t
  | ofScale (scale offset : α) : Made (ofScale scale offset)
  | ofDimension {dimension : Int} {t : LinearTransform α} : ofDimension dimension = .ok t → Made t

variable [UnitsApart α]

/-- What `ofMatrix` makes is normal. -/
theorem isNormal_of_ofMatrix {m : Matrix α} {t : LinearTransform α} (h : ofMatrix m = .ok t) :
    t.IsNormal := by
  have hback := eqUpToUnits_matrix h
  have hunits := hback.sameUnits
  obtain ⟨hrows, hcols, hkept⟩ := ofMatrix_eq_ok_iff.mp h
  have hrows' : 2 ≤ t.matrix.rows := hback.rows_eq ▸ hrows
  have hcols' : 2 ≤ t.matrix.cols := hback.cols_eq ▸ hcols
  -- Every test that led to the form has the same answer for the matrix that comes back.
  have hid := Matrix.isIdentity_congr hunits
  have haffine := Matrix.isAffine_congr hunits (by omega) (by omega)
  have hunplaced (hm : Unplaced m) : Unplaced t.matrix :=
    ⟨hid ▸ hm.not_identity, fun hends => hback.cols_eq ▸ hm.large_of_affine (haffine ▸ hends),
      fun hthree => hm.not_planar ⟨hback.rows_eq ▸ hthree.1, hback.cols_eq ▸ hthree.2⟩⟩
  refine ofMatrix_eq_ok_iff.mpr ⟨hrows', hcols', ?_⟩
  cases hkept with
  | identity hm => exact .identity (hid.trans hm)
  | scaleOffset hm hends htwo =>
    have hline := KeptAs.scaleOffset (hid.trans hm) (haffine.trans hends) rfl
    simpa [matrix, Matrix.entry_ofRows] using hline
  | affine hm hends hthree =>
    have hplane := KeptAs.affine (hid.trans hm) (haffine.trans hends) rfl
    simpa [matrix, Matrix.entry_ofRows] using hplane
  | planar hends hthree hthree' => exact .planar hends hthree hthree'
  | selection hm hselection =>
    obtain ⟨places, hselects, rfl⟩ := selection?_eq_some_iff.mp hselection
    refine .selection (hunplaced hm) (selection?_eq_some_iff.mpr ⟨places, ?_, rfl⟩)
    exact hselects.congr hunits (by omega) (by omega)
  | projective hm hselection => exact .projective hm hselection

/-- `ofScale` makes what `ofMatrix` would of the matrix with the scale and the offset. -/
theorem ofMatrix_scaleOffset (scale offset : α) :
    ofMatrix (.ofRows 2 2 [[scale, offset], [0, 1]]) = .ok (ofScale scale offset) := by
  have hentry (i j : Nat) (hi : i < 2) (hj : j < 2) :
      (Matrix.ofRows 2 2 [[scale, offset], [0, 1]]).entry i j =
        ([[scale, offset], [0, 1]].getD i []).getD j 0 := Matrix.entry_ofRows hi hj
  have hends : (Matrix.ofRows 2 2 [[scale, offset], [0, 1]]).isAffine = true := by
    refine Matrix.isAffine_iff.mpr ⟨rfl, Matrix.endsAffine_iff.mpr ⟨?_, fun j (hj : j < 1) => ?_⟩⟩
    · exact hentry 1 1 (by decide) (by decide) ▸ UnitsApart.one_beq_one
    · obtain rfl : j = 0 := by omega
      exact hentry 1 0 (by decide) (by decide) ▸ UnitsApart.zero_beq_zero
  refine ofMatrix_eq_ok_iff.mpr ⟨Nat.le_refl 2, Nat.le_refl 2, ?_⟩
  -- The unit scale without offset is the identity, which is asked for first.
  cases hunit : (scale == 1 && offset == 0) with
  | true =>
    rw [ofScale, hunit, if_pos rfl]
    obtain ⟨hscale, hoffset⟩ := Bool.and_eq_true_iff.mp hunit
    refine .identity (Matrix.isIdentity_iff.mpr ⟨rfl, fun i (hi : i < 2) j (hj : j < 2) => ?_⟩)
    rw [hentry i j hi hj]
    interval_cases i <;> interval_cases j
    · exact hscale
    · exact hoffset
    · exact UnitsApart.zero_beq_zero
    · exact UnitsApart.one_beq_one
  | false =>
    rw [ofScale, hunit, if_neg Bool.false_ne_true]
    refine .scaleOffset (Bool.eq_false_iff.mpr fun hid => ?_) hends rfl
    obtain ⟨_, hall⟩ := Matrix.isIdentity_iff.mp hid
    have hscale := hall 0 Nat.zero_lt_two 0 Nat.zero_lt_two
    have hoffset := hall 0 Nat.zero_lt_two 1 Nat.one_lt_two
    rw [hentry 0 0 (by decide) (by decide)] at hscale
    rw [hentry 0 1 (by decide) (by decide)] at hoffset
    have hboth : (scale == 1 && offset == 0) = true := Bool.and_eq_true_iff.mpr ⟨hscale, hoffset⟩
    rw [hboth] at hunit
    exact nomatch hunit

/-- `ofMatrix` makes the identity of an identity matrix. -/
theorem ofMatrix_eye {dimension : Nat} (h : 1 ≤ dimension) :
    ofMatrix (.eye (dimension + 1) (dimension + 1)) = .ok (identity dimension : LinearTransform α) := by
  have hsize : 2 ≤ dimension + 1 := by omega
  refine ofMatrix_eq_ok_iff.mpr ⟨hsize, hsize, .identity (Matrix.isIdentity_iff.mpr ⟨rfl, ?_⟩)⟩
  intro i (hi : i < dimension + 1) j (hj : j < dimension + 1)
  rw [Matrix.entry_eye hi hj]
  by_cases hdiagonal : i = j
  · rw [if_pos hdiagonal]
    exact UnitsApart.one_beq_one
  · rw [if_neg hdiagonal]
    exact UnitsApart.zero_beq_zero

/-- However a transform was `Made`, it is normal. -/
theorem Made.isNormal {t : LinearTransform α} (h : t.Made) : t.IsNormal := by
  cases h with
  | ofMatrix h => exact isNormal_of_ofMatrix h
  | ofScale scale offset => exact isNormal_of_ofMatrix (ofMatrix_scaleOffset scale offset)
  | ofDimension h =>
    unfold LinearTransform.ofDimension at h
    split at h
    · exact nomatch h
    · obtain rfl := Except.ok.inj h
      exact ofMatrix_eye (by omega)

/-- What a normal selection has to know of its ordinates: `selection?` has counted them from the
    front. -/
theorem IsNormal.selection_places {source : Nat} {indices : List Int}
    (h : (selection source indices : LinearTransform α).IsNormal) :
    ∃ places : List Nat, indices = places.map (fun (j : Nat) => (j : Int)) ∧
      (∀ i (h : i < places.length), places[i] < source) ∧
      Unplaced (selectionMatrix source indices : Matrix α) := by
  obtain ⟨-, -, hkept⟩ := ofMatrix_eq_ok_iff.mp h
  cases hkept with
  | selection hunplaced hselection =>
    obtain ⟨places, hselects, heq⟩ := selection?_eq_some_iff.mp hselection
    obtain ⟨-, rfl⟩ := LinearTransform.selection.inj heq
    exact ⟨places, rfl, hselects.lt, hunplaced⟩

/-- `inversePermutation` of a normal selection is normal. -/
private theorem isNormal_inversePermutation {source : Nat} {indices : List Int}
    (h : (selection source indices : LinearTransform α).IsNormal)
    (hpermutation : isPermutation source indices = true) :
    (selection source (inversePermutation source indices) : LinearTransform α).IsNormal := by
  obtain ⟨places, rfl, hlt, hunplaced⟩ := h.selection_places
  have hperm := isPermutation_iff.mp hpermutation
  have hlength := length_of_perm_range hperm
  -- A permutation has a square matrix, so it acts on at least three ordinates.
  have hlarge : 4 ≤ source + 1 := hunplaced.large_of_affine (Matrix.isAffine_iff.mpr
    ⟨by simp [hlength], endsAffine_selectionMatrix source _⟩)
  have hlt' := getElem_lt_of_perm_range (perm_inversePlaces hperm)
  rw [inversePermutation_natCast]
  refine ofMatrix_eq_ok_iff.mpr ⟨?_, ?_, .selection ⟨?_, fun _ => hlarge, ?_⟩
    (selection?_eq_some_iff.mpr ⟨_, selects_selectionMatrix hlt', rfl⟩)⟩
  · simp only [matrix, rows_selectionMatrix, List.length_map, length_inversePlaces]
    omega
  · simp only [matrix, cols_selectionMatrix]
    omega
  · refine Bool.eq_false_iff.mpr fun hid => ?_
    -- If the inverse left all ordinates in place, so would the permutation.
    have hrange := (isIdentity_selectionMatrix_iff hlt').mp hid
    have hplaces : places = List.range source := by
      rw [← inversePlaces_inversePlaces hperm, hrange, inversePlaces_range]
    have hfalse := hunplaced.not_identity
    rw [(isIdentity_selectionMatrix_iff hlt).mpr hplaces] at hfalse
    exact nomatch hfalse
  · simp only [matrix, cols_selectionMatrix]
    omega

/-! ## Inverses -/

variable [Mul α] [Sub α] [Div α] [Neg α] [Solver α]

/-- The ways in which `inverse` makes one. -/
inductive InvertsTo : LinearTransform α → LinearTransform α → Prop where
  | identity (dimension : Nat) : InvertsTo (.identity dimension) (.identity dimension)
  | scaleOffset {scale : α} (offset : α) : (scale == 0) = false →
      InvertsTo (.scaleOffset scale offset) (ofScale (1 / scale) (-offset / scale))
  | selection {source : Nat} {indices : List Int} : isPermutation source indices = true →
      InvertsTo (.selection source indices) (.selection source (inversePermutation source indices))
  | solved {t u : LinearTransform α} {x : Matrix α} :
      t.matrix.inverse = .ok x → ofMatrix x = .ok u → InvertsTo t u

omit [UnitsApart α] in
/-- What `inverse` returns was made in one of these ways. -/
theorem invertsTo_of_inverse {t u : LinearTransform α} (h : t.inverse = .ok u) : InvertsTo t u := by
  -- Two of the forms share the way by the inverse of the matrix.
  have hsolved (h : (do ofMatrix (← t.matrix.inverse)) = Except.ok u) : InvertsTo t u := by
    cases hinverse : t.matrix.inverse with
    | error e => rw [hinverse] at h; cases h
    | ok x =>
      rw [hinverse] at h
      exact .solved hinverse h
  cases t with
  | identity dimension =>
    obtain rfl := Except.ok.inj h
    exact .identity dimension
  | scaleOffset scale offset =>
    rw [LinearTransform.inverse] at h
    split at h
    · cases h
    · rename_i hscale
      obtain rfl := Except.ok.inj h
      exact .scaleOffset offset (Bool.not_eq_true _ ▸ hscale)
  | affine m00 m10 m01 m11 m02 m12 => exact hsolved h
  | selection source indices =>
    rw [LinearTransform.inverse] at h
    split at h
    · rename_i hpermutation
      obtain rfl := Except.ok.inj h
      exact .selection hpermutation
    · cases h
  | projective planar m => exact hsolved h

/-- The `inverse` of a normal transform is normal. -/
theorem IsNormal.inverse {t u : LinearTransform α} (ht : t.IsNormal) (h : t.inverse = .ok u) :
    u.IsNormal := by
  cases invertsTo_of_inverse h with
  | identity dimension => exact ht
  | scaleOffset offset _ => exact isNormal_of_ofMatrix (ofMatrix_scaleOffset _ _)
  | selection hpermutation => exact isNormal_inversePermutation ht hpermutation
  | solved _ hmatrix => exact isNormal_of_ofMatrix hmatrix

/-! ## Doubles -/

/-- A transform of doubles is `sameAs` itself, also if its matrix holds a NaN. -/
theorem sameAs_refl (t : LinearTransform Double) : t.sameAs t = true := by
  simp [sameAs, (Matrix.EqUpToUnits.refl t.matrix).sameAs]

/-- Making a transform of a matrix of doubles loses nothing that comparison sees, whatever zeros,
    infinities and NaNs the matrix holds, and no other form would be chosen for the result, for its
    inverse, or for a scale and an offset. A selection is chosen exactly for the matrices that select. -/
theorem ofMatrix_lossless {m : Matrix Double} (hrows : 2 ≤ m.rows) (hcols : 2 ≤ m.cols) :
    ∃ t, ofMatrix m = .ok t ∧ t.matrix.sameAs m = true ∧
      (∃ again, ofMatrix t.matrix = .ok again ∧ again.sameAs t = true) ∧
      (∀ u, t.inverse = .ok u → ∃ again, ofMatrix u.matrix = .ok again ∧ again.sameAs u = true) ∧
      (∀ scale offset, ∃ r, ofMatrix (.ofRows 2 2 [[scale, offset], [0, 1]]) = .ok r ∧
        (ofScale scale offset).sameAs r = true) ∧
      ((selection? m).isSome = true ↔
        ((m.entry (m.rows - 1) (m.cols - 1) == 1) = true ∧
          ∀ j, j < m.cols - 1 → (m.entry (m.rows - 1) j == 0) = true) ∧
        ∀ i, i < m.rows - 1 → (m.entry i (m.cols - 1) == 0) = true ∧
          ∃ j, j < m.cols - 1 ∧ (m.entry i j == 1) = true ∧
            ∀ k, k < m.cols - 1 → k ≠ j → (m.entry i k == 0) = true) := by
  obtain ⟨t, ht⟩ := exists_ofMatrix hrows hcols
  have hnormal := isNormal_of_ofMatrix ht
  refine ⟨t, ht, (eqUpToUnits_matrix ht).sameAs, ⟨t, hnormal, sameAs_refl t⟩, ?_, ?_,
    isSome_selection?_iff⟩
  · intro u hu
    exact ⟨u, hnormal.inverse hu, sameAs_refl u⟩
  · intro scale offset
    exact ⟨_, ofMatrix_scaleOffset scale offset, sameAs_refl _⟩

/-- The zeros of a selection come back without their signs, and still compare equal. -/
theorem ofMatrix_lossless_signed_zeros :
    ∃ t, ofMatrix (.ofRows 3 4 [[0, 0, 1, -0], [-0, 1, 0, 0], [0, -0, 0, (1 : Double)]]) = .ok t ∧
      t.matrix.sameAs (.ofRows 3 4 [[0, 0, 1, -0], [-0, 1, 0, 0], [0, -0, 0, 1]]) = true ∧
      ∃ again, ofMatrix t.matrix = .ok again ∧ again.sameAs t = true := by
  obtain ⟨t, ht, hsame, hagain, -⟩ := ofMatrix_lossless
    (m := .ofRows 3 4 [[0, 0, 1, -0], [-0, 1, 0, 0], [0, -0, 0, 1]])
    (show 2 ≤ 3 by decide) (show 2 ≤ 4 by decide)
  exact ⟨t, ht, hsame, hagain⟩

end LinearTransform

end Georef

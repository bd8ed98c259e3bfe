import Georef.Proofs.Matrix.TranslationThreshold
import Georef.Proofs.Transform.NormalForm

/-!
# Inverses of translations

On the line a translation is a scale of one and an offset, which are inverted by a division and a sign. In more
dimensions its matrix is inverted, and the condition number of the matrix decides whether it is. So every
translation of the line has an inverse, and in more dimensions those by clearly less than 2^26 have one, while those by
clearly more have none. How close to 2^26 a translation must be to be in doubt depends on the solver.

Translations by zeros are kept as identities, and the other ones are never selections of ordinates.

## Key results

- `sameAs_of_sameNumbers`: matrices that differ in the signs of zeros give equal transforms
- `ofMatrix_translation`: the forms that translations are kept in
- `inverse_of_translation`: which translations have an inverse, and which one
-/

namespace Georef

open Double (SameNumber)

/-! ## Equal transforms -/

/-- The same numbers are the same zeros and ones, so `SameUnits` holds. -/
theorem Matrix.SameNumbers.sameUnits {a b : Matrix Double} (h : SameNumbers a b) : SameUnits a b where
  rows_eq := h.rows_eq
  cols_eq := h.cols_eq
  beq_zero i j hi hj := (h.entry i j hi hj).beq_eq 0
  beq_one i j hi hj := (h.entry i j hi hj).beq_eq 1

/-- `SameNumbers` is symmetric. -/
theorem Matrix.SameNumbers.symm {a b : Matrix Double} (h : SameNumbers a b) : SameNumbers b a where
  rows_eq := h.rows_eq.symm
  cols_eq := h.cols_eq.symm
  entry i j hi hj := (h.entry i j (h.rows_eq ▸ hi) (h.cols_eq ▸ hj)).symm

/-- `SameNumbers` is transitive. -/
theorem Matrix.SameNumbers.trans {a b c : Matrix Double} (h : SameNumbers a b) (h' : SameNumbers b c) :
    SameNumbers a c where
  rows_eq := h.rows_eq.trans h'.rows_eq
  cols_eq := h.cols_eq.trans h'.cols_eq
  entry i j hi hj := (h.entry i j hi hj).trans (h'.entry i j (h.rows_eq ▸ hi) (h.cols_eq ▸ hj))

/-- `Matrix.sameAs` does not see the signs of zeros. -/
theorem Matrix.SameNumbers.sameAs {a b : Matrix Double} (h : SameNumbers a b) : a.sameAs b = true := by
  simp only [Matrix.sameAs, Matrix.equals, Bool.and_eq_true, beq_iff_eq, List.all_eq_true, List.mem_range]
  exact ⟨⟨h.rows_eq, h.cols_eq⟩, fun i hi j hj => Double.agrees_zero_iff.mpr (.inl (h.entry i j hi hj))⟩

namespace LinearTransform

variable {a b : Matrix Double} {t u : LinearTransform Double}

/-- A matrix is `KeptAs` the same form whatever the signs of its zeros. -/
theorem KeptAs.exists_className (h : Matrix.SameNumbers a b) (hrows : 2 ≤ a.rows) (hcols : 2 ≤ a.cols)
    (ht : KeptAs a t) : ∃ u, KeptAs b u ∧ t.className = u.className := by
  have hunits := h.symm.sameUnits
  have hrows' : 2 ≤ b.rows := h.rows_eq ▸ hrows
  have hcols' : 2 ≤ b.cols := h.cols_eq ▸ hcols
  have hid := Matrix.isIdentity_congr hunits
  have haffine := Matrix.isAffine_congr hunits (by omega) (by omega)
  have hunplaced (ha : Unplaced a) : Unplaced b :=
    ⟨hid.trans ha.not_identity, fun hends => h.cols_eq ▸ ha.large_of_affine (haffine ▸ hends),
      fun hthree => ha.not_planar ⟨h.rows_eq.trans hthree.1, h.cols_eq.trans hthree.2⟩⟩
  cases ht with
  | identity ha => exact ⟨_, .identity (hid.trans ha), by rw [h.cols_eq]⟩
  | scaleOffset ha hends htwo => exact ⟨_, .scaleOffset (hid.trans ha) (haffine.trans hends) (h.cols_eq ▸ htwo), rfl⟩
  | affine ha hends hthree => exact ⟨_, .affine (hid.trans ha) (haffine.trans hends) (h.cols_eq ▸ hthree), rfl⟩
  | planar hends hthree hthree' =>
    exact ⟨_, .planar (haffine.trans hends) (h.rows_eq ▸ hthree) (h.cols_eq ▸ hthree'), rfl⟩
  | selection ha hselection =>
    obtain ⟨places, hselects, rfl⟩ := selection?_eq_some_iff.mp hselection
    have hselects' := hselects.congr hunits (by omega) (by omega)
    exact ⟨_, .selection (hunplaced ha) (selection?_eq_some_iff.mpr ⟨places, hselects', rfl⟩), rfl⟩
  | projective ha hselection =>
    refine ⟨_, .projective (hunplaced ha) ?_, rfl⟩
    -- Were the other one a selection, so would this one be.
    cases hselection' : selection? b with
    | none => rfl
    | some u =>
      obtain ⟨places, hselects, -⟩ := selection?_eq_some_iff.mp hselection'
      have hselects' := hselects.congr h.sameUnits (by omega) (by omega)
      rw [selection?_eq_some_iff.mpr ⟨places, hselects', rfl⟩] at hselection
      cases hselection

/-- Matrices that differ in the signs of zeros give transforms that are `sameAs` each other. -/
theorem sameAs_of_sameNumbers (h : Matrix.SameNumbers a b) (ht : ofMatrix a = .ok t) (hu : ofMatrix b = .ok u) :
    t.sameAs u = true := by
  have hmatrix : Matrix.SameNumbers t.matrix u.matrix :=
    ((eqUpToUnits_matrix ht).sameNumbers.trans h).trans (eqUpToUnits_matrix hu).sameNumbers.symm
  obtain ⟨hrows, hcols, hkept⟩ := ofMatrix_eq_ok_iff.mp ht
  obtain ⟨u', hkept', hname⟩ := hkept.exists_className h hrows hcols
  have hu' : ofMatrix b = .ok u' := ofMatrix_eq_ok_iff.mpr ⟨h.rows_eq ▸ hrows, h.cols_eq ▸ hcols, hkept'⟩
  obtain rfl : u' = u := Except.ok.inj (hu'.symm.trans hu)
  rw [LinearTransform.sameAs, Bool.and_eq_true, beq_iff_eq]
  exact ⟨hname, hmatrix.sameAs⟩

/-! ## The forms of translations -/

variable {offsets : List Double}

/-- `translationMatrix` has ones in its diagonal, the offsets in its last column and zeros
    elsewhere. -/
theorem entry_translationMatrix {i j : Nat} (hi : i < offsets.length + 1) (hj : j < offsets.length + 1) :
    (translationMatrix offsets).entry i j =
      if i = j then 1 else if j = offsets.length then offsets.getD i 0 else 0 :=
  Matrix.entry_ofFn hi hj

/-- `translationMatrix` ends with zeros and a one. -/
theorem isAffine_translationMatrix (offsets : List Double) : (translationMatrix offsets).isAffine = true := by
  refine Matrix.isAffine_iff.mpr ⟨rfl, Matrix.endsAffine_iff.mpr ⟨?_, fun j (hj : j < offsets.length) => ?_⟩⟩
  · show ((translationMatrix offsets).entry offsets.length offsets.length == 1) = true
    rw [entry_translationMatrix (Nat.lt_succ_self _) (Nat.lt_succ_self _), if_pos rfl]
    decide
  · show ((translationMatrix offsets).entry offsets.length j == 0) = true
    rw [entry_translationMatrix (Nat.lt_succ_self _) (by omega), if_neg hj.ne', if_neg hj.ne]
    decide

/-- `translationMatrix` is an identity for translations by zeros only. -/
theorem isIdentity_translationMatrix_iff (offsets : List Double) :
    (translationMatrix offsets).isIdentity = true ↔ ∀ i, i < offsets.length → (offsets.getD i 0 == 0) = true := by
  rw [Matrix.isIdentity_iff]
  constructor
  · rintro ⟨-, hentry⟩ i hi
    have hoffset := hentry i (Nat.lt_succ_of_lt hi) offsets.length (Nat.lt_succ_self _)
    rwa [entry_translationMatrix (by omega) (by omega), if_neg hi.ne, if_pos rfl, if_neg hi.ne] at hoffset
  · refine fun hzero => ⟨rfl, fun i (hi : i < offsets.length + 1) j (hj : j < offsets.length + 1) => ?_⟩
    rw [entry_translationMatrix hi hj]
    split_ifs with hij hlast
    · decide
    · exact hzero i (by omega)
    · decide

/-- What `ofMatrix` makes of a translation is an identity, a scale and an offset, or its matrix is
    inverted. -/
theorem ofMatrix_translation [Solver Double] (ht : ofMatrix (translationMatrix offsets) = .ok t) :
    ((∀ i, i < offsets.length → (offsets.getD i 0 == 0) = true) ∧ t = identity offsets.length) ∨
      (∃ x, offsets = [x] ∧ t = scaleOffset 1 x) ∨
      2 ≤ offsets.length ∧ t.inverse = (do ofMatrix (← t.matrix.inverse)) := by
  have haffine := isAffine_translationMatrix offsets
  obtain ⟨-, hcols, hkept⟩ := ofMatrix_eq_ok_iff.mp ht
  have hcols : 2 ≤ offsets.length + 1 := hcols
  cases hkept with
  | identity hid => exact .inl ⟨(isIdentity_translationMatrix_iff offsets).mp hid, rfl⟩
  | scaleOffset _ _ htwo =>
    obtain ⟨x, rfl⟩ := List.length_eq_one_iff.mp (Nat.succ.inj htwo)
    refine .inr (.inl ⟨x, rfl, ?_⟩)
    rw [entry_translationMatrix Nat.two_pos Nat.two_pos, entry_translationMatrix Nat.two_pos Nat.one_lt_two]
    rfl
  | affine _ _ hthree => exact .inr (.inr ⟨(Nat.succ.inj hthree).ge, rfl⟩)
  | planar hends => rw [haffine] at hends; cases hends
  | selection hunplaced hselection =>
    -- A selection has no offsets, so the translation would be an identity.
    obtain ⟨places, hselects, -⟩ := selection?_eq_some_iff.mp hselection
    have hid : (translationMatrix offsets).isIdentity = true := by
      refine (isIdentity_translationMatrix_iff offsets).mpr fun i hi => ?_
      have hoffset := hselects.offset i hi
      rwa [show (translationMatrix offsets).cols - 1 = offsets.length from rfl,
        entry_translationMatrix (by omega) (by omega), if_neg hi.ne, if_pos rfl] at hoffset
    rw [hunplaced.not_identity] at hid
    cases hid
  | projective hunplaced =>
    have hfour : 4 ≤ offsets.length + 1 := hunplaced.large_of_affine haffine
    exact .inr (.inr ⟨by omega, rfl⟩)

/-! ## Translations back -/

/-- Zeros of both signs have the `squaredLength` zero. -/
theorem squaredLength_of_zeros (hzero : ∀ i, i < offsets.length → (offsets.getD i 0 == 0) = true) :
    Matrix.squaredLength (offsets.map Double.value) = 0 := by
  unfold Matrix.squaredLength Matrix.sumSquares
  refine Finset.sum_eq_zero fun i hi => ?_
  have hi : i < offsets.length := by simpa using hi
  have hunits : (offsets.getD i 0).units = 0 := (SameNumber.of_beq_zero (hzero i hi)).units_eq.symm
  have hvalue : (offsets.map Double.value).getD i 0 = 0 := by
    have hmap : (offsets.map Double.value).getD i 0 = (offsets.getD i 0).value := by simp [hi]
    rw [hmap, Double.value, hunits, Int.cast_zero, zero_div]
  simp only [hvalue, mul_zero]

/-- A translation by zeros and the one back differ in the signs of zeros. -/
theorem sameNumbers_translationMatrix_of_zeros
    (hzero : ∀ i, i < offsets.length → (offsets.getD i 0 == 0) = true) :
    Matrix.SameNumbers (translationMatrix offsets) (translationMatrix (offsets.map (-·))) := by
  have hlength : (offsets.map (-·)).length = offsets.length := List.length_map _
  refine ⟨congrArg (· + 1) hlength.symm, congrArg (· + 1) hlength.symm,
    fun i j (hi : i < offsets.length + 1) (hj : j < offsets.length + 1) => ?_⟩
  rw [entry_translationMatrix hi hj, entry_translationMatrix (by omega) (by omega), hlength]
  split_ifs with hij hlast
  · exact .refl 1
  · have hi : i < offsets.length := by omega
    have hback : (offsets.map (-·)).getD i 0 = -offsets.getD i 0 := by simp [hi]
    rw [hback]
    have hsame := SameNumber.of_beq_zero (hzero i hi)
    exact hsame.symm.trans ((SameNumber.zeros false true).trans hsame.neg)
  · exact .refl 0

/-- The inverse on the line, as a matrix, has the `SameNumbers` as the translation back. -/
theorem sameNumbers_line {x : Double} (hx : x.Finite) :
    Matrix.SameNumbers (.ofRows 2 2 [[1 / 1, -x / 1], [0, 1]]) (translationMatrix [-x]) := by
  refine ⟨rfl, rfl, fun i j (hi : i < 2) (hj : j < 2) => ?_⟩
  rw [Matrix.entry_ofRows hi hj, entry_translationMatrix hi hj]
  interval_cases i <;> interval_cases j
  · exact Double.Finite.div_one rfl
  · exact hx.neg.div_one
  · exact .refl 0
  · exact .refl 1

/-- Whatever solver for doubles is used that judges the matrices of translations with some margin: every translation
of the line has an inverse, and in more dimensions one by `v` has an inverse if `(|v|² + 2) * margin` is not above 2^52,
and none if `|v|² + 1` is above `2^52 * margin`. An inverse is always the translation back, but for signs of zeros. -/
theorem inverse_of_translation [Solver Double] [Solver.DoublePivots] {margin : ℚ} (hmargin : 1 ≤ margin)
    (hne : offsets ≠ []) (hfinite : ∀ x ∈ offsets, x.Finite)
    (hgauge : ∀ m : Matrix Double, m.SameNumbers (translationMatrix offsets) → Solver.Gauges margin m) :
    ∃ t back : LinearTransform Double,
      ofMatrix (translationMatrix offsets) = .ok t ∧ ofMatrix (translationMatrix (offsets.map (-·))) = .ok back ∧
      (∀ u, t.inverse = .ok u → u.sameAs back = true) ∧
      (offsets.length = 1 ∨ (Matrix.squaredLength (offsets.map Double.value) + 2) * margin ≤ 2 ^ 52 →
        ∃ u, t.inverse = .ok u) ∧
      (2 ≤ offsets.length → 2 ^ 52 * margin < Matrix.squaredLength (offsets.map Double.value) + 1 →
        t.inverse = .error (.illConditioned (offsets.length + 1) (offsets.length + 1))) := by
  have hpos : 0 < offsets.length := List.length_pos_iff.mpr hne
  have hlength : (offsets.map (-·)).length = offsets.length := List.length_map _
  have hsize : 2 ≤ offsets.length + 1 := by omega
  have hsize' : 2 ≤ (offsets.map (-·)).length + 1 := by omega
  obtain ⟨t, ht⟩ := exists_ofMatrix (m := translationMatrix offsets) hsize hsize
  obtain ⟨back, hback⟩ := exists_ofMatrix (m := translationMatrix (offsets.map (-·))) hsize' hsize'
  refine ⟨t, back, ht, hback, ?_⟩
  -- The form decides which of the two ways to an inverse is taken.
  obtain ⟨hzero, rfl⟩ | ⟨x, rfl, rfl⟩ | ⟨hmany, hinverse⟩ := ofMatrix_translation ht
  · have hsame := sameAs_of_sameNumbers (sameNumbers_translationMatrix_of_zeros hzero) ht hback
    refine ⟨fun u hu => ?_, fun _ => ⟨_, rfl⟩, fun _ hlong => ?_⟩
    · obtain rfl : identity offsets.length = u := Except.ok.inj hu
      exact hsame
    · rw [squaredLength_of_zeros hzero] at hlong
      linarith
  · have hx : x.Finite := hfinite x List.mem_cons_self
    have hinverse : (scaleOffset 1 x : LinearTransform Double).inverse = .ok (ofScale (1 / 1) (-x / 1)) := rfl
    refine ⟨fun u hu => ?_, fun _ => ⟨_, hinverse⟩, fun htwo => absurd htwo (Nat.not_succ_le_self 1)⟩
    obtain rfl := Except.ok.inj (hinverse.symm.trans hu)
    exact sameAs_of_sameNumbers (sameNumbers_line hx) (ofMatrix_scaleOffset _ _) hback
  · have hmatrix := (eqUpToUnits_matrix ht).sameNumbers
    obtain ⟨haccepted, hrefused⟩ := Matrix.inverse_translation hfinite hmatrix
    obtain ⟨hshort, hlong⟩ := (hgauge _ hmatrix).wellConditioned_translation (by linarith) hmatrix
    -- A matrix that the solver lets through has the inverse that is expected.
    have hsome (hcondition : Solver.wellConditioned t.matrix = true) :
        ∃ u, t.inverse = .ok u ∧ u.sameAs back = true := by
      obtain ⟨x, hx, hsame⟩ := haccepted hcondition
      obtain ⟨u, hu⟩ := exists_ofMatrix (m := x) (hsame.rows_eq ▸ hsize') (hsame.cols_eq ▸ hsize')
      refine ⟨u, ?_, sameAs_of_sameNumbers hsame hu hback⟩
      rw [hinverse, hx]
      exact hu
    have hnone (hcondition : Solver.wellConditioned t.matrix = false) :
        t.inverse = .error (.illConditioned (offsets.length + 1) (offsets.length + 1)) := by
      rw [hinverse, hrefused hcondition, hmatrix.rows_eq, hmatrix.cols_eq]
      rfl
    refine ⟨fun u hu => ?_, ?_, fun _ h => hnone (hlong h)⟩
    · cases hcondition : Solver.wellConditioned t.matrix with
      | true =>
        obtain ⟨u', hu', hsame⟩ := hsome hcondition
        obtain rfl := Except.ok.inj (hu'.symm.trans hu)
        exact hsame
      | false => cases hu.symm.trans (hnone hcondition)
    · rintro (hone | h)
      · omega
      · obtain ⟨u, hu, -⟩ := hsome (hshort h)
        exact ⟨u, hu⟩

/-- In the plane a translation by five has an inverse, and one by a thousand million has none, also if the solver is
allowed to be wrong about condition numbers between 2^51 and 2^53. -/
theorem inverse_of_translation_plane :
    (∃ t back u : LinearTransform Double, ofMatrix (translationMatrix [3.0, 4.0]) = .ok t ∧
      ofMatrix (translationMatrix ([3.0, 4.0].map (-·))) = .ok back ∧ t.inverse = .ok u ∧ u.sameAs back = true) ∧
    ∃ t : LinearTransform Double, ofMatrix (translationMatrix [1e9, 0]) = .ok t ∧
      t.inverse = .error (.illConditioned 3 3) := by
  have hnear : (Matrix.squaredLength ([(3.0 : Double), 4.0].map Double.value) + 2) * 2 ≤ 2 ^ 52 := by decide +kernel
  have hfar : 2 ^ 52 * 2 < Matrix.squaredLength ([(1e9 : Double), 0].map Double.value) + 1 := by decide +kernel
  have hfinite : (∀ x ∈ [(3.0 : Double), 4.0], x.Finite) ∧ ∀ x ∈ [(1e9 : Double), 0], x.Finite := by decide +kernel
  have hmargin : (1 + 1 / 2 ^ 51 : ℚ) ≤ 2 := by norm_num
  obtain ⟨t, back, ht, hback, hsame, hforth, -⟩ := inverse_of_translation one_le_two (by decide) hfinite.1
    fun _ => Solver.gauges_translation hmargin
  obtain ⟨t', -, ht', -, -, -, hnot⟩ := inverse_of_translation one_le_two (by decide) hfinite.2
    fun _ => Solver.gauges_translation hmargin
  obtain ⟨u, hu⟩ := hforth (.inr hnear)
  exact ⟨⟨t, back, u, ht, hback, hu, hsame u hu⟩, t', ht', hnot (by decide) hfar⟩

/-- Not every translation has an inverse: one of the plane by a thousand million along an axis has none. -/
theorem translation_without_inverse :
    (∀ x ∈ [(1e9 : Double), 0], x.Finite) ∧
      ofMatrix (translationMatrix [1e9, 0]) = .ok (.affine 1 0 0 1 1e9 0) ∧
      (.affine 1 0 0 1 1e9 0 : LinearTransform Double).inverse = .error (.illConditioned 3 3) := by
  decide +kernel

end LinearTransform

end Georef

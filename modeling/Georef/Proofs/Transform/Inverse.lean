import Georef.Proofs.Matrix.ExactSolver
import Georef.Proofs.Transform.ProductMatrix

/-!
# Inverse transforms

The inverse of a linear transform is made in four ways, and each makes a left inverse of the matrix. A left
inverse takes the homogeneous coordinates of an image back to a multiple of those of the point, so it takes
the image back to the point. The inverse of a chain undoes its steps in reverse order.

## Key results

- `project_of_leftInverse`: a left inverse of a matrix takes images back to points
- `leftInverse_of_inverse`: the matrix of an inverse is a left inverse
- `IsNormal.inverse_inverse`: a transform with as many dimensions on both sides is the inverse of its inverse
- `inverse_roundTrip`: the inverse of a chain takes images back to points
-/

namespace Georef

namespace LinearTransform

/-! ## Points -/

section Points

variable {K : Type} [Field K] {a x : Matrix K} {p : List K}

/-- `project` of a left inverse takes the image of a point back to the point. -/
theorem project_of_leftInverse (hp : p.length + 1 = a.cols) (hrows : 1 ≤ a.rows)
    (hx : x.rows = a.cols) (hx' : x.cols = a.rows) (h : x.product a = .eye a.cols a.cols)
    (hw : denominator a p ≠ 0) :
    denominator x (project a p) ≠ 0 ∧ project x (project a p) = p := by
  have hq : (project a p).length + 1 = x.cols := by rw [length_project]; omega
  have hback : x.mulVec (lift (project a p)) = fun i => (denominator a p)⁻¹ * lift p i := by
    -- The matrix takes `lift p` to a multiple of the lifted image, and the left inverse takes that back.
    have hmultiple : (fun i => denominator a p * x.mulVec (lift (project a p)) i) = lift p := by
      rw [← Matrix.mulVec_mul, ← mulVec_lift hp hrows hw, ← Matrix.mulVec_product, h, ← hp,
        mulVec_eye_lift]
    funext i
    rw [← hmultiple, inv_mul_cancel_left₀ hw]
  obtain ⟨hdenominator, hproject⟩ :=
    project_eq_of_mulVec hq (by omega) (inv_ne_zero hw) hback
  exact ⟨hdenominator ▸ inv_ne_zero hw, hproject⟩

end Points

/-! ## The matrix of an inverse -/

section Products

variable {K : Type} [Field K]

/-- `inversePlaces` has the inverse matrix of a permutation. -/
private theorem product_inversePermutation {n : Nat} {places : List Nat}
    (hperm : places.Perm (List.range n)) :
    (selectionMatrix n ((inversePlaces n places).map fun (j : Nat) => (j : Int))).product
      (selectionMatrix n (places.map fun (j : Nat) => (j : Int))) =
        (.eye (n + 1) (n + 1) : Matrix K) := by
  have hlength := length_of_perm_range hperm
  refine Matrix.ext_entry (by simp) rfl fun i j hi (hj : j < n + 1) => ?_
  have hi' : i < n + 1 := by simpa using hi
  rw [Matrix.entry_product_eq_mulVec, Matrix.entry_eye hi' hj]
  -- A row picks the place that the permutation put its ordinate at, and the last row stays.
  obtain hi' | rfl : i < n ∨ i = n := by omega
  · have hidx := idxOf_lt_of_perm_range hperm hi'
    have hrow : i < (inversePlaces n places).length := by simpa using hi'
    have hplace : (inversePlaces n places)[i] < n := by simpa [hlength] using hidx
    rw [mulVec_selectionMatrix_natCast hrow hplace, getElem_inversePlaces,
      entry_selectionMatrix_natCast hidx (getElem_lt_of_perm_range hperm _ hidx) hj,
      List.getElem_idxOf hidx]
    simp only [eq_comm]
  · rw [mulVec_selectionMatrix_last (by simp),
      entry_selectionMatrix_last (by rw [List.length_map, hlength]) hj]
    simp only [eq_comm]

/-- The reciprocal of a scale, with the offset taken back, is a left inverse on the line. -/
private theorem product_scaleOffset {scale : K} (offset : K) (h : scale ≠ 0) :
    (Matrix.ofRows 2 2 [[1 / scale, -offset / scale], [0, 1]]).product
      (.ofRows 2 2 [[scale, offset], [0, 1]]) = .eye 2 2 := by
  refine Matrix.ext_entry rfl rfl fun i j (hi : i < 2) (hj : j < 2) => ?_
  rw [Matrix.entry_product, Matrix.cols_ofRows, Matrix.entry_eye hi hj]
  interval_cases i <;> interval_cases j <;>
    simp [Finset.sum_range_succ, Matrix.entry_ofRows]
  · exact inv_mul_cancel₀ h
  · rw [neg_div, inv_mul_eq_div, add_neg_cancel]

end Products

section LeftInverse

variable {K : Type} [Field K] [LinearOrder K] [IsStrictOrderedRing K] [Solver K] [Solver.Exact K]
  {t u : LinearTransform K}

/-- An `inverse` has a matrix of the transposed size, which is a left inverse of the matrix. -/
theorem leftInverse_of_inverse (h : t.inverse = .ok u) :
    u.matrix.rows = t.matrix.cols ∧ u.matrix.cols = t.matrix.rows ∧
      u.matrix.product t.matrix = .eye t.matrix.cols t.matrix.cols := by
  -- One case for each way to invert; the last one solves a linear system.
  cases invertsTo_of_inverse h with
  | identity dimension => exact ⟨rfl, rfl, Matrix.eye_product rfl⟩
  | @scaleOffset scale offset hscale =>
    rw [matrix_of_ofMatrix (ofMatrix_scaleOffset (1 / scale) (-offset / scale))]
    exact ⟨rfl, rfl, product_scaleOffset offset (beq_eq_false_iff_ne.mp hscale)⟩
  | selection hpermutation =>
    obtain ⟨places, rfl, hperm⟩ := exists_places_of_isPermutation hpermutation
    have hlength := length_of_perm_range hperm
    rw [inversePermutation_natCast]
    exact ⟨by simp [matrix], by simp [matrix, hlength], product_inversePermutation hperm⟩
  | solved hinverse hmatrix =>
    obtain ⟨hrows, hcols, hproduct, -⟩ := Matrix.inverse_sound hinverse
    rw [matrix_of_ofMatrix hmatrix]
    exact ⟨hrows, hcols, hproduct⟩

/-! ## The inverse of an inverse -/

omit [LinearOrder K] [IsStrictOrderedRing K] [Solver K] [Solver.Exact K] in
/-- A matrix of the line with a right inverse has a scale other than zero. -/
private theorem scale_ne_zero_of_product {scale offset : K} {y : Matrix K}
    (h : (Matrix.ofRows 2 2 [[scale, offset], [0, 1]]).product y = .eye 2 2) : scale ≠ 0 := by
  rintro rfl
  have hfirst := congrArg (Matrix.entry · 0 0) h
  have hlast := congrArg (Matrix.entry · 1 0) h
  simp only [Matrix.entry_product] at hfirst hlast
  simp [Finset.sum_range_succ, Matrix.entry_ofRows, Matrix.entry_eye] at hfirst hlast
  rw [hlast, mul_zero] at hfirst
  exact zero_ne_one hfirst

omit [IsStrictOrderedRing K] [Solver K] [Solver.Exact K] in
/-- The ordinates of a selection with a right inverse are all different, so `isPermutation` holds. -/
private theorem isPermutation_of_product {n : Nat} {indices : List Int} {y : Matrix K}
    (hnormal : (selection n indices : LinearTransform K).IsNormal) (hlength : indices.length = n)
    (h : (selectionMatrix n indices).product y = .eye (n + 1) (n + 1)) :
    isPermutation n indices = true := by
  obtain ⟨places, rfl, hlt, -⟩ := hnormal.selection_places
  rw [List.length_map] at hlength
  -- Row `places[i]` of the right inverse is row `i` of the identity.
  have hrow (i c : Nat) (hi : i < places.length) (hc : c < n + 1) :
      y.entry places[i] c = if i = c then 1 else 0 := by
    have hentry := congrArg (Matrix.entry · i c) h
    simp only [Matrix.entry_product_eq_mulVec] at hentry
    rw [mulVec_selectionMatrix_natCast hi (hlt i hi), Matrix.entry_eye (by omega) hc] at hentry
    exact hentry
  -- Two equal picks would make two rows of the identity equal.
  have hnodup : places.Nodup := by
    refine List.pairwise_iff_getElem.mpr fun i j hi hj hij heq => ?_
    have hone := hrow i i hi (by omega)
    rw [heq, hrow j i hj (by omega), if_neg (by omega), if_pos rfl] at hone
    exact zero_ne_one hone
  have hsub : places ⊆ List.range n := fun k hk => by
    obtain ⟨i, hi, rfl⟩ := List.getElem_of_mem hk
    exact List.mem_range.mpr (hlt i hi)
  refine isPermutation_iff.mpr ((hnodup.subperm hsub).perm_of_length_le ?_)
  rw [List.length_range, hlength]

/-- A normal transform with a right inverse has an `inverse`, if its condition number is not above
    the threshold. -/
theorem IsNormal.exists_inverse {n : Nat} {y : Matrix K} (hu : u.IsNormal)
    (hrows : u.matrix.rows = n) (hcols : u.matrix.cols = n)
    (hcondition : u.matrix.ConditionAtMost (2 ^ 52)) (hy : u.matrix.product y = .eye n n) :
    ∃ v, u.inverse = .ok v := by
  -- Forms without an inverse of their own solve a linear system, which succeeds.
  have hsolved (hform : u.inverse = (do ofMatrix (← u.matrix.inverse))) :
      ∃ v, u.inverse = .ok v := by
    obtain ⟨htwo, htwo', -⟩ := ofMatrix_eq_ok_iff.mp hu
    obtain ⟨x, hx⟩ := Matrix.exists_inverse (hrows.trans hcols.symm) (by omega) hcondition
    obtain ⟨hxrows, hxcols, -⟩ := Matrix.inverse_sound hx
    obtain ⟨v, hv⟩ := exists_ofMatrix (m := x) (by omega) (by omega)
    exact ⟨v, by rw [hform, hx]; exact hv⟩
  cases u with
  | identity dimension => exact ⟨_, rfl⟩
  | scaleOffset scale offset =>
    obtain rfl : 2 = n := hrows
    have hscale := scale_ne_zero_of_product hy
    exact ⟨_, if_neg fun hzero => hscale (beq_iff_eq.mp hzero)⟩
  | affine m00 m10 m01 m11 m02 m12 => exact hsolved rfl
  | selection source indices =>
    have hlength : indices.length = source := by
      simp only [matrix, rows_selectionMatrix, cols_selectionMatrix] at hrows hcols
      omega
    have hpermutation := isPermutation_of_product hu hlength (y := y) (by
      rw [← show source + 1 = n from hcols] at hy
      exact hy)
    exact ⟨_, if_pos hpermutation⟩
  | projective planar m => exact hsolved rfl

/-- With as many dimensions on both sides, `inverse` is undone by itself. -/
theorem IsNormal.inverse_inverse (ht : t.IsNormal) (hsquare : t.source = t.target)
    (h : t.inverse = .ok u) : u.inverse = .ok t := by
  have hu := ht.inverse h
  obtain ⟨hrows, hcols, hproduct⟩ := leftInverse_of_inverse h
  have hdimensions : t.matrix.rows = t.matrix.cols := by
    have := rows_matrix t
    have := cols_matrix t
    omega
  -- The inverse may have got a smaller form than the transform, but none that cannot be inverted.
  have hreturns : ∃ v, u.inverse = .ok v := by
    cases invertsTo_of_inverse h with
    | identity dimension => exact ⟨_, rfl⟩
    | scaleOffset offset hscale =>
      -- The reciprocal of a number other than zero is not zero.
      rw [beq_eq_false_iff_ne] at hscale
      unfold ofScale
      split
      · exact ⟨_, rfl⟩
      · exact ⟨_, if_neg fun hzero => hscale (by simpa using hzero)⟩
    | selection hpermutation =>
      obtain ⟨places, rfl, -⟩ := ht.selection_places
      have hperm := perm_inversePlaces (isPermutation_iff.mp hpermutation)
      refine ⟨_, if_pos ?_⟩
      rw [inversePermutation_natCast]
      exact isPermutation_iff.mpr hperm
    | solved hinverse hmatrix =>
      obtain rfl := matrix_of_ofMatrix hmatrix
      obtain ⟨-, -, -, hsolution⟩ := Matrix.inverse_sound hinverse
      exact hu.exists_inverse hrows (hcols.trans hdimensions) (hsolution hdimensions).2 hproduct
  obtain ⟨v, hv⟩ := hreturns
  obtain ⟨-, hcols', hproduct'⟩ := leftInverse_of_inverse hv
  have hsize : t.matrix.cols = u.matrix.cols := by omega
  -- A matrix has only one inverse, and a normal transform is told by its matrix.
  have hmatrix : v.matrix = t.matrix :=
    Matrix.eq_of_inverses (by omega) (by omega) hproduct' (hsize ▸ hproduct)
  have hsame : ofMatrix t.matrix = .ok v := hmatrix ▸ hu.inverse hv
  rw [hv, ← hsame]
  exact ht

/-! ## Undoing a step -/

/-- `apply` of the inverse takes the image of a point back to the point. -/
theorem IsNormal.apply_inverse (ht : t.IsNormal) (h : t.inverse = .ok u) {p : List K}
    (hp : (p.length : Int) = t.source) (hw : denominator t.matrix p ≠ 0) :
    u.apply (t.apply p) = p := by
  obtain ⟨hrows, hcols, hproduct⟩ := leftInverse_of_inverse h
  obtain ⟨hsource, -⟩ := source_inverse h
  have himage := length_apply ht.wellFormed hp
  obtain ⟨hlarge, -⟩ := ofMatrix_eq_ok_iff.mp ht
  have hsize : p.length + 1 = t.matrix.cols := by
    have := cols_matrix t
    omega
  rw [apply_eq_project (ht.inverse h).wellFormed (by omega), apply_eq_project ht.wellFormed hp]
  exact (project_of_leftInverse hsize (by omega) hrows hcols hproduct hw).2

end LeftInverse

end LinearTransform

open LinearTransform

namespace Transform

/-! ## Undoing a chain -/

variable {K : Type} [Field K] [LinearOrder K] {d e : Int} {steps undos : List (Step K)}
  {t u : Transform K}

/-- All steps are linear, and each is what its own matrix is kept as, `IsNormal`. -/
def AllNormal (steps : List (Step K)) : Prop := ∀ s ∈ steps, ∃ l, s = .linear l ∧ l.IsNormal

/-- What is normal makes sense, so steps that are `AllNormal` are `AllLinear`. -/
theorem AllNormal.allLinear (h : AllNormal steps) : AllLinear steps := fun s hs => by
  obtain ⟨l, rfl, hl⟩ := h s hs
  exact ⟨l, rfl, hl.wellFormed⟩

section Inverse

variable [Solver K]

/-- The inverse of a linear step is that of its transform. -/
theorem inverse_linear_eq_ok_iff {l : LinearTransform K} {s : Step K} :
    (Step.linear l).inverse = .ok s ↔ ∃ l', l.inverse = .ok l' ∧ .linear l' = s :=
  return_eq_ok_iff

/-- If every step is the inverse of its `inverse`, so is the transform. -/
theorem inverse_inverse_of_steps (h : t.inverse = .ok u)
    (hsteps : ∀ s ∈ t.steps, ∀ s', s.inverse = .ok s' → s'.inverse = .ok s) :
    u.inverse = .ok t := by
  cases t with
  | step s =>
    obtain ⟨s', hs, rfl⟩ := return_eq_ok_iff.mp h
    exact return_eq_ok_iff.mpr ⟨s, hsteps s List.mem_cons_self s' hs, rfl⟩
  | chain steps =>
    obtain ⟨undos, hundos, rfl⟩ := return_eq_ok_iff.mp h
    have hback := (List.mapM_eq_ok_iff.mp hundos).flip_of_mem
      fun s hs => hsteps s (List.mem_reverse.mp hs)
    -- Twice reversed, the steps are in their order again.
    rw [← undos.reverse_reverse] at hback
    exact return_eq_ok_iff.mpr
      ⟨steps, List.mapM_eq_ok_iff.mpr (List.forall₂_reverse_iff.mp hback), rfl⟩

end Inverse

variable [IsStrictOrderedRing K] [Solver K] [Solver.Exact K]

/-- The inverse steps in reverse order undo the steps. They are `AllNormal`, so this can be said of
    them again. -/
theorem walk_back (hleads : Leads d steps e) (hnormal : AllNormal steps)
    (hundos : List.Forall₂ (fun s s' => s.inverse = .ok s') steps undos) :
    AllNormal undos.reverse ∧
      ∀ p : List K, (p.length : Int) = d → DefinedAt steps p →
        undos.reverse.foldl (fun x s => s.apply x) (steps.foldl (fun x s => s.apply x) p) = p := by
  -- The last undo belongs to the first step: the steps in between are undone before it.
  induction hundos generalizing d with
  | nil => exact ⟨hnormal, fun p _ _ => rfl⟩
  | @cons s s' steps undos hs _ ih =>
    obtain ⟨l, rfl, hl⟩ := hnormal s List.mem_cons_self
    obtain ⟨l', hl', rfl⟩ := inverse_linear_eq_ok_iff.mp hs
    cases hleads with
    | cons hd hrest =>
      obtain ⟨hnormal', hpoints⟩ := ih hrest fun s hs => hnormal s (List.mem_cons_of_mem _ hs)
      rw [List.reverse_cons]
      refine ⟨?_, fun p hp hdefined => ?_⟩
      · intro s hs
        obtain hs | hs := List.mem_append.mp hs
        · exact hnormal' s hs
        · exact ⟨l', List.mem_singleton.mp hs, hl.inverse hl'⟩
      · have hp' : (p.length : Int) = l.source := hp.trans hd.symm
        have hrest := hpoints (l.apply p) (length_apply hl.wellFormed hp') hdefined.2
        rw [List.foldl_append]
        show l'.apply (undos.reverse.foldl _ (steps.foldl _ (l.apply p))) = p
        rw [hrest]
        exact hl.apply_inverse hl' hp' (hdefined.1 _ rfl)

/-- The `inverse` leads back and takes images to where they come from. -/
theorem apply_inverse (hleads : Leads d t.steps e) (hnormal : AllNormal t.steps)
    (h : t.inverse = .ok u) :
    Leads e u.steps d ∧ AllNormal u.steps ∧
      ∀ p : List K, (p.length : Int) = d → DefinedAt t.steps p → u.apply (t.apply p) = p := by
  obtain ⟨undos, hundos, hsteps⟩ := steps_of_inverse h
  have hback := walk_back hleads hnormal hundos
  rw [← hsteps] at hback
  exact ⟨hsteps ▸ hleads.of_inverses hundos, hback⟩

/-- `transform` of a point there and back. -/
private theorem transform_inverse (hleads : Leads t.source t.steps t.target)
    (hnormal : AllNormal t.steps) (h : t.inverse = .ok u) (hsource : u.source = t.target)
    (htarget : u.target = t.source) {p : List K} (hp : (p.length : Int) = t.source)
    (hdefined : DefinedAt t.steps p) :
    ∃ q : List K, t.transform (.ofList p) .fresh = .ok ⟨.ofList q, .ofList p⟩ ∧
      u.transform (.ofList q) .fresh = .ok ⟨.ofList p, .ofList q⟩ := by
  obtain ⟨hback', hnormal', hback⟩ := apply_inverse hleads hnormal h
  have himage := length_apply_of_allLinear hleads hnormal.allLinear hp
  have hpoint := hback p hp hdefined
  refine ⟨t.apply p, transform_ofList hleads hnormal.allLinear.wellFormed hp, ?_⟩
  have hu := transform_ofList (hsource.symm ▸ htarget.symm ▸ hback') hnormal'.allLinear.wellFormed
    (p := t.apply p) (by omega)
  rw [hpoint] at hu
  exact hu

/-- The inverse of a linear transform or a chain of such, if there is one, leads from its target to its
    source and takes the image of a point back to the point wherever no step meets a denominator of zero.
    If each step has as many dimensions on both sides, the transform also takes points back that the inverse
    has taken away, and the inverse has an inverse, whose matrix is that of the transform. -/
theorem inverse_roundTrip (ht : Joined (fun s => ∃ l, s = .linear l ∧ l.Made) t)
    (hu : t.inverse = .ok u) :
    u.source = t.target ∧ u.target = t.source ∧
    (∀ p : List K, (p.length : Int) = t.source → DefinedAt t.steps p →
      ∃ q : List K, t.transform (.ofList p) .fresh = .ok ⟨.ofList q, .ofList p⟩ ∧
        u.transform (.ofList q) .fresh = .ok ⟨.ofList p, .ofList q⟩) ∧
    ((∀ s ∈ t.steps, s.source = s.target) →
      (∀ q : List K, (q.length : Int) = u.source → DefinedAt u.steps q →
        ∃ p : List K, u.transform (.ofList q) .fresh = .ok ⟨.ofList p, .ofList q⟩ ∧
          t.transform (.ofList p) .fresh = .ok ⟨.ofList q, .ofList p⟩) ∧
      ∃ v m, u.inverse = .ok v ∧ v.matrix? = .ok (some m) ∧ t.matrix? = .ok (some m)) := by
  have hnormal : AllNormal t.steps := fun s hs => by
    obtain ⟨l, rfl, hl⟩ := ht.of_mem_steps s hs
    exact ⟨l, rfl, hl.isNormal⟩
  obtain ⟨hleads', hnormal', -⟩ := apply_inverse ht.leads hnormal hu
  have hne : u.steps ≠ [] := by
    obtain ⟨undos, hundos, hsteps⟩ := steps_of_inverse hu
    have hlength := hundos.length_eq
    rw [hsteps, Ne, List.reverse_eq_nil_iff]
    rintro rfl
    exact ht.steps_ne_nil (List.length_eq_zero_iff.mp hlength)
  have hsource := hleads'.source_eq hne
  have htarget := hleads'.target_eq hne
  refine ⟨hsource, htarget, fun p hp hdefined =>
    transform_inverse ht.leads hnormal hu hsource htarget hp hdefined, fun hsquare => ?_⟩
  -- Undoing is symmetric as soon as every step is the inverse of its inverse.
  have hback : u.inverse = .ok t := inverse_inverse_of_steps hu fun s hs s' hs' => by
    obtain ⟨l, rfl, hl⟩ := hnormal s hs
    obtain ⟨l', hl', rfl⟩ := inverse_linear_eq_ok_iff.mp hs'
    exact inverse_linear_eq_ok_iff.mpr ⟨l, hl.inverse_inverse (hsquare _ hs) hl', rfl⟩
  refine ⟨fun q hq hdefined => ?_, ?_⟩
  · have hleads := hleads'
    rw [← hsource, ← htarget] at hleads
    exact transform_inverse hleads hnormal' hback htarget.symm hsource.symm hq hdefined
  · obtain ⟨m, hm, -⟩ := exists_matrix? ht.leads ht.steps_ne_nil hnormal.allLinear
    exact ⟨t, m, hback, hm, hm⟩

/-- A scaling of the line followed by the projection of `x` to `1 / x`, there and back. -/
theorem inverse_roundTrip_reciprocal :
    ∃ (reciprocal : LinearTransform ℚ) (t u v : Transform ℚ) (q : List ℚ) (m : Matrix ℚ),
      ofMatrix (.ofRows 2 2 [[0, 1], [1, 0]]) = .ok reciprocal ∧
      (step (.linear (ofScale 2 1))).concatenate (step (.linear reciprocal)) = .ok t ∧
      t.inverse = .ok u ∧
      t.transform (.ofList [1 / 2]) .fresh = .ok ⟨.ofList q, .ofList [1 / 2]⟩ ∧
      u.transform (.ofList q) .fresh = .ok ⟨.ofList [1 / 2], .ofList q⟩ ∧
      u.inverse = .ok v ∧ v.matrix? = .ok (some m) ∧ t.matrix? = .ok (some m) := by
  let a : Matrix ℚ := .ofRows 2 2 [[0, 1], [1, 0]]
  have hswap (v : Nat → ℚ) : a.mulVec v 0 = v 1 ∧ a.mulVec v 1 = v 0 := by
    simp [a, Matrix.mulVec, Finset.sum_range_succ, Matrix.entry_ofRows]
  have hproduct : a.product a = .eye 2 2 := by
    refine Matrix.ext_entry rfl rfl fun i j (hi : i < 2) (hj : j < 2) => ?_
    rw [Matrix.entry_product_eq_mulVec, Matrix.entry_eye hi hj]
    interval_cases i <;> interval_cases j <;> simp [hswap, a, Matrix.entry_ofRows]
  -- The matrix only exchanges the coordinates, so it stretches nothing.
  have hcondition : a.ConditionAtMost (2 ^ 52) := by
    have hsame (v : Nat → ℚ) : Matrix.sumSquares 2 (a.mulVec v) = Matrix.sumSquares 2 v := by
      simp [Matrix.sumSquares, Finset.sum_range_succ, hswap, add_comm]
    refine ⟨.of_leftInverse hproduct rfl, fun u v => ?_⟩
    show Matrix.sumSquares 2 (a.mulVec u) * Matrix.sumSquares 2 v ≤
      (2 ^ 52) ^ 2 * (Matrix.sumSquares 2 (a.mulVec v) * Matrix.sumSquares 2 u)
    rw [hsame, hsame, mul_comm (Matrix.sumSquares 2 u)]
    exact le_mul_of_one_le_left (mul_nonneg (Matrix.sumSquares_nonneg 2 v) (Matrix.sumSquares_nonneg 2 u))
      (by norm_num)
  obtain ⟨reciprocal, hreciprocal⟩ := exists_ofMatrix (m := a) (Nat.le_refl 2) (Nat.le_refl 2)
  have hmatrix := matrix_of_ofMatrix hreciprocal
  have hnormal := isNormal_of_ofMatrix hreciprocal
  obtain ⟨back, hback⟩ := hnormal.exists_inverse (n := 2) (y := a) (by rw [hmatrix]; rfl)
    (by rw [hmatrix]; rfl) (hmatrix ▸ hcondition) (hmatrix ▸ hproduct)
  have hscale : (ofScale 2 1 : LinearTransform ℚ) = .scaleOffset 2 1 := by norm_num [ofScale]
  have hhalf : (ofScale 2 1 : LinearTransform ℚ).inverse = .ok (ofScale (1 / 2) (-1 / 2)) := by
    rw [hscale, LinearTransform.inverse, if_neg (by simp)]
  have hdimensions : reciprocal.source = 1 ∧ reciprocal.target = 1 := by
    have hrows := rows_matrix reciprocal
    have hcols := cols_matrix reciprocal
    rw [hmatrix] at hrows hcols
    simp only [a, Matrix.rows_ofRows, Matrix.cols_ofRows] at hrows hcols
    omega
  have hfit : (step (.linear (ofScale 2 1)) : Transform ℚ).target =
      (step (.linear reciprocal)).source := by
    rw [hscale]
    exact hdimensions.1.symm
  have ht := concatenate_eq_ok_iff.mpr ⟨hfit, rfl⟩
  have hjoined := Joined.concatenate (P := fun s => ∃ l, s = .linear l ∧ l.Made)
    (.step ⟨_, rfl, .ofScale 2 1⟩) (.step ⟨_, rfl, .ofMatrix hreciprocal⟩) ht
  have hundos : [Step.linear reciprocal, .linear (ofScale 2 1)].mapM Step.inverse =
      .ok [.linear back, .linear (ofScale (1 / 2) (-1 / 2))] :=
    List.mapM_eq_ok_iff.mpr (.cons (inverse_linear_eq_ok_iff.mpr ⟨back, hback, rfl⟩)
      (.cons (inverse_linear_eq_ok_iff.mpr ⟨_, hhalf, rfl⟩) .nil))
  have hu : (chain [.linear (ofScale 2 1), .linear reciprocal] : Transform ℚ).inverse =
      .ok (chain [.linear back, .linear (ofScale (1 / 2) (-1 / 2))]) :=
    return_eq_ok_iff.mpr ⟨_, hundos, rfl⟩
  obtain ⟨-, -, hforth, hsquare⟩ := inverse_roundTrip hjoined hu
  obtain ⟨q, hq, hq'⟩ := hforth [1 / 2] (by rw [hscale]; rfl) (by
    rw [hscale]
    refine (definedAt_cons_of_isAffine (t := .scaleOffset 2 1) trivial trivial rfl).mpr
      ⟨fun m hm => ?_, trivial⟩
    obtain rfl := Option.some.inj hm
    have hreached : (.scaleOffset 2 1 : LinearTransform ℚ).apply [1 / 2] = [2] := by
      norm_num [LinearTransform.apply]
    rw [hmatrix, hreached, denominator_eq_mulVec rfl]
    norm_num [a, Matrix.mulVec, Finset.sum_range_succ, Matrix.entry_ofRows, lift])
  obtain ⟨-, v, m, hv, hm, hm'⟩ := hsquare (List.forall_mem_cons.mpr
    ⟨by rw [hscale]; rfl, List.forall_mem_singleton.mpr (hdimensions.1.trans hdimensions.2.symm)⟩)
  exact ⟨reciprocal, _, _, v, q, m, hreciprocal, ht, hu, hq, hq', hv, hm, hm'⟩

end Transform

end Georef

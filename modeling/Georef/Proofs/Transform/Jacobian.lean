import Georef.Proofs.Transform.Inverse

/-!
# Derivatives of inverse transforms

The derivative of the inverse of a transform, taken at the image of a point, is a left inverse of the derivative
of the transform at the point. For a matrix that is the chain rule: the product of a left inverse and the matrix
is an identity, whose derivative is an identity as well. Along a chain the derivatives of the inverse steps come
in the opposite order, so the innermost pair cancels first, as it does for points.

## Key results

- `product_projectJacobian`: the derivatives of a matrix and of a left inverse
- `walk_there_and_back`: a walk along a chain and back ends with the point and the product it has started with
- `derivative_inverse`: the derivatives of a chain and of its inverse, as the operations on points give them
-/

namespace Georef

namespace LinearTransform

variable {K : Type} [Field K]

/-! ## Derivatives of left inverses -/

section Project

variable {a x : Matrix K} {p : List K}

/-- `projectJacobian` of an identity matrix is an identity matrix. -/
theorem projectJacobian_eye (p : List K) :
    projectJacobian (.eye (p.length + 1) (p.length + 1)) p = .eye p.length p.length := by
  have hdenominator : denominator (.eye (p.length + 1) (p.length + 1)) p = 1 := by
    rw [denominator_eq_mulVec (by simp), mulVec_eye_lift, Matrix.rows_eye, Nat.add_sub_cancel, lift_length]
  have hlast (j : Nat) (hj : j < p.length) :
      (Matrix.eye (p.length + 1) (p.length + 1) : Matrix K).entry p.length j = 0 := by
    rw [Matrix.entry_eye (by omega) (by omega), if_neg (by omega)]
  rw [projectJacobian_of_affine hdenominator hlast]
  refine Matrix.ext_entry rfl rfl fun i j (hi : i < p.length) (hj : j < p.length) => ?_
  have hentry : (Matrix.eye (p.length + 1) (p.length + 1) : Matrix K).entry i j =
      (Matrix.eye p.length p.length).entry i j := by
    rw [Matrix.entry_eye (by omega) (by omega), Matrix.entry_eye hi hj]
  exact (Matrix.entry_ofFn hi hj).trans hentry

/-- `projectJacobian` of a left inverse, at the image of a point, is a left inverse of that of the
    matrix. -/
theorem product_projectJacobian (hp : p.length + 1 = a.cols) (hrows : 1 ≤ a.rows)
    (hx : x.rows = a.cols) (hx' : x.cols = a.rows) (h : x.product a = .eye a.cols a.cols)
    (hw : denominator a p ≠ 0) :
    (projectJacobian x (project a p)).product (projectJacobian a p) = .eye p.length p.length := by
  obtain ⟨hback, -⟩ := project_of_leftInverse hp hrows hx hx' h hw
  rw [← projectJacobian_product hp hrows hx'.symm (by omega) hw hback, h, ← hp, projectJacobian_eye]

end Project

/-! ## Inverses of linear transforms -/

/-- A selection that is a permutation makes sense. -/
private theorem wellFormed_of_perm {α : Type} {n : Nat} {places : List Nat}
    (h : places.Perm (List.range n)) :
    (selection n (places.map fun (j : Nat) => (j : Int)) : LinearTransform α).WellFormed := by
  intro i hi
  obtain ⟨j, hj, rfl⟩ := List.mem_map.mp hi
  have := List.mem_range.mp (h.mem_iff.mp hj)
  omega

section Inverse

variable [LinearOrder K] [IsStrictOrderedRing K] [Solver K] [Solver.Exact K] {t u : LinearTransform K}

/-- Only a transform that is `WellFormed` has an inverse, which is as well. -/
theorem wellFormed_of_inverse (h : t.inverse = .ok u) : t.WellFormed ∧ u.WellFormed := by
  cases t with
  | identity dimension =>
    obtain rfl := Except.ok.inj h
    exact ⟨trivial, trivial⟩
  | scaleOffset scale offset =>
    refine ⟨trivial, ?_⟩
    cases invertsTo_of_inverse h with
    | scaleOffset _ _ => exact (isNormal_of_ofMatrix (ofMatrix_scaleOffset _ _)).wellFormed
    | solved _ hmatrix => exact (isNormal_of_ofMatrix hmatrix).wellFormed
  | affine m00 m10 m01 m11 m02 m12 =>
    refine ⟨trivial, ?_⟩
    cases invertsTo_of_inverse h with
    | solved _ hmatrix => exact (isNormal_of_ofMatrix hmatrix).wellFormed
  | selection source indices =>
    rw [LinearTransform.inverse] at h
    split at h
    · rename_i hpermutation
      obtain rfl := Except.ok.inj h
      -- A permutation counts no ordinate from the end, and neither does its inverse.
      obtain ⟨places, rfl, hperm⟩ := exists_places_of_isPermutation hpermutation
      rw [inversePermutation_natCast]
      exact ⟨wellFormed_of_perm hperm, wellFormed_of_perm (perm_inversePlaces hperm)⟩
    · cases h
  | projective planar m =>
    cases invertsTo_of_inverse h with
    | solved hinverse hmatrix =>
      -- The sizes of the matrix are those of its inverse, which a transform was made of.
      obtain ⟨hrows, hcols, -⟩ := Matrix.inverse_sound hinverse
      obtain ⟨hrows', hcols', -⟩ := ofMatrix_eq_ok_iff.mp hmatrix
      have hsize : m.rows = _ := hcols.symm
      have hsize' : m.cols = _ := hrows.symm
      exact ⟨⟨by omega, by omega⟩, (isNormal_of_ofMatrix hmatrix).wellFormed⟩

/-- The inverse takes an image back to its point, and its `jacobian` there is a left inverse of the
    one at the point. -/
theorem jacobian_inverse (h : t.inverse = .ok u) {p : List K} (hp : (p.length : Int) = t.source)
    (hw : denominator t.matrix p ≠ 0) :
    u.apply (t.apply p) = p ∧
      (u.jacobian (t.apply p)).product (t.jacobian p) = .eye p.length p.length := by
  obtain ⟨ht, hu⟩ := wellFormed_of_inverse h
  obtain ⟨hrows, hcols, hproduct⟩ := leftInverse_of_inverse h
  obtain ⟨hsource, -⟩ := source_inverse h
  have himage := length_apply ht hp
  have hq : ((t.apply p).length : Int) = u.source := by omega
  have hsize : p.length + 1 = t.matrix.cols := by
    have := cols_matrix t
    omega
  have hpositive : 1 ≤ t.matrix.rows := by
    have := rows_matrix t
    omega
  -- Whatever the two forms are, they do what their matrices do.
  rw [apply_eq_project hu hq, jacobian_eq_projectJacobian hu hq, jacobian_eq_projectJacobian ht hp,
    apply_eq_project ht hp]
  exact ⟨(project_of_leftInverse hsize hpositive hrows hcols hproduct hw).2,
    product_projectJacobian hsize hpositive hrows hcols hproduct hw⟩

end Inverse

end LinearTransform

open LinearTransform

namespace Transform

variable {K : Type} [Field K] [LinearOrder K] [IsStrictOrderedRing K] [Solver K] [Solver.Exact K]
  {d e : Int} {steps undos : List (Step K)} {t u : Transform K} {p : List K}

/-! ## Walking along a chain and back -/

/-- A walk along invertible steps, and back along their inverses in reverse order, ends with the point and
    the product that it has started with. -/
theorem walk_there_and_back (hleads : Leads d steps e) (hlinear : ∀ s ∈ steps, ∃ l, s = .linear l)
    (hundos : List.Forall₂ (fun s s' => s.inverse = .ok s') steps undos)
    (hp : (p.length : Int) = d) (hdefined : DefinedAt steps p) {m : Matrix K} (hm : m.rows = p.length) :
    undos.reverse.foldl advance (steps.foldl advance (p, m)) = (p, m) := by
  -- The steps after the first one are undone before it, whatever product it has left them.
  induction hundos generalizing d p m with
  | nil => rfl
  | @cons s s' steps undos hs _ ih =>
    obtain ⟨l, rfl⟩ := hlinear s List.mem_cons_self
    obtain ⟨l', hl', rfl⟩ := inverse_linear_eq_ok_iff.mp hs
    cases hleads with
    | cons hd hrest =>
      have hl := (wellFormed_of_inverse hl').1
      have hp' : (p.length : Int) = l.source := hp.trans hd.symm
      have himage : ((l.apply p).length : Int) = l.target := length_apply hl hp'
      have hrows : ((l.jacobian p).product m).rows = (l.apply p).length := by
        have := rows_jacobian hl p
        rw [Matrix.rows_product]
        omega
      obtain ⟨hpoint, hproduct⟩ := jacobian_inverse hl' hp' (hdefined.1 _ rfl)
      have hback := ih hrest (fun s hs => hlinear s (List.mem_cons_of_mem _ hs)) himage hdefined.2 hrows
      calc (Step.linear l' :: undos).reverse.foldl advance
            ((Step.linear l :: steps).foldl advance (p, m))
          = advance (undos.reverse.foldl advance
              (steps.foldl advance (l.apply p, (l.jacobian p).product m))) (.linear l') := by
            rw [List.reverse_cons, List.foldl_append]
            rfl
        _ = (l'.apply (l.apply p), (l'.jacobian (l.apply p)).product ((l.jacobian p).product m)) := by
            rw [hback]
            rfl
        _ = (p, m) := by rw [hpoint, ← Matrix.product_assoc, hproduct, Matrix.eye_product hm]

/-- If every step has an inverse, all of them make sense, and so do the inverse steps. -/
theorem wellFormed_of_inverses
    (hlinear : ∀ s ∈ steps, ∃ l, s = .linear l)
    (hundos : List.Forall₂ (fun s s' => s.inverse = .ok s') steps undos) :
    (∀ s ∈ steps, s.WellFormed) ∧ ∀ s' ∈ undos, s'.WellFormed := by
  induction hundos with
  | nil => exact ⟨List.forall_mem_nil _, List.forall_mem_nil _⟩
  | @cons s s' steps undos hs _ ih =>
    obtain ⟨l, rfl⟩ := hlinear s List.mem_cons_self
    obtain ⟨l', hl', rfl⟩ := inverse_linear_eq_ok_iff.mp hs
    obtain ⟨hl, hundo⟩ := wellFormed_of_inverse hl'
    obtain ⟨hsteps, hundos⟩ := ih fun s hs => hlinear s (List.mem_cons_of_mem _ hs)
    exact ⟨List.forall_mem_cons.mpr ⟨hl, hsteps⟩, List.forall_mem_cons.mpr ⟨hundo, hundos⟩⟩

/-- A transform that has an `inverse` makes sense, and the inverse can be put behind it. -/
theorem concatenate_inverse (ht : Joined (fun s => ∃ l, s = .linear l) t) (hu : t.inverse = .ok u) :
    t.WellFormed ∧ u.WellFormed ∧ t.concatenate u = .ok (chain (t.steps ++ u.steps)) := by
  obtain ⟨undos, hundos, hsteps⟩ := steps_of_inverse hu
  obtain ⟨hforth, hback⟩ := wellFormed_of_inverses ht.of_mem_steps hundos
  have hne : u.steps ≠ [] := by
    have hlength := hundos.length_eq
    rw [hsteps, Ne, List.reverse_eq_nil_iff]
    rintro rfl
    exact ht.steps_ne_nil (List.length_eq_zero_iff.mp hlength)
  have hleads : Leads t.target u.steps t.source := hsteps ▸ ht.leads.of_inverses hundos
  obtain ⟨hwell, hsource, -⟩ := WellFormed.of_leads hleads hne fun s hs =>
    hback s (List.mem_reverse.mp (hsteps ▸ hs))
  exact ⟨⟨ht.steps_ne_nil, ht.leads, hforth⟩, hwell, concatenate_eq_ok_iff.mpr ⟨hsource.symm, rfl⟩⟩

/-- `jacobian` of the inverse at the image of a point is a left inverse of the one at the point. -/
theorem product_jacobian_inverse (ht : Joined (fun s => ∃ l, s = .linear l) t)
    (hu : t.inverse = .ok u) (hp : (p.length : Int) = t.source) (hdefined : DefinedAt t.steps p) :
    (u.jacobian (t.apply p)).product (t.jacobian p) = .eye p.length p.length := by
  obtain ⟨hforth, hback, hc⟩ := concatenate_inverse ht hu
  obtain ⟨hwell, hsource, -⟩ := hforth.concatenate hback hc
  obtain ⟨undos, hundos, hsteps⟩ := steps_of_inverse hu
  -- The walk along both transforms starts with the identity matrix, and so it ends with it.
  have hwalk := walk_there_and_back ht.leads ht.of_mem_steps hundos hp hdefined
    (m := .eye p.length p.length) rfl
  rw [← hforth.jacobian_of_concatenate hback hc hp, jacobian,
    hwell.applyWithJacobian_eq_walk (hp.trans hsource.symm), steps_chain, List.foldl_append, hsteps, hwalk]

/-- The derivative of the inverse of a linear transform or of a chain of such, taken where the transform takes a
    point, times the derivative of the transform at the point is the identity matrix, wherever no step meets a
    denominator of zero. With as many dimensions on both sides, it is the inverse of that derivative. -/
theorem derivative_inverse (ht : Joined (fun s => ∃ l, s = .linear l) t) (hu : t.inverse = .ok u)
    (hp : (p.length : Int) = t.source) (hdefined : DefinedAt t.steps p) :
    ∃ (q : List K) (first second : Matrix K),
      t.transform (.ofList p) .fresh = .ok ⟨.ofList q, .ofList p⟩ ∧
      t.derivative (.ofList p) = .ok first ∧ u.derivative (.ofList q) = .ok second ∧
      second.multiply first = .ok (.eye p.length p.length) := by
  obtain ⟨hforth, hback, hc⟩ := concatenate_inverse ht hu
  obtain ⟨hfit, -⟩ := concatenate_eq_ok_iff.mp hc
  have himage : ((t.apply p).length : Int) = u.source := (hforth.length_apply hp).trans hfit
  have hsizes : (u.jacobian (t.apply p)).cols = (t.jacobian p).rows := by
    have := (hforth.size_jacobian hp).1
    have := (hback.size_jacobian himage).2
    omega
  refine ⟨t.apply p, t.jacobian p, u.jacobian (t.apply p), hforth.transform_ofList hp,
    hforth.derivative_ofList hp, hback.derivative_ofList himage, ?_⟩
  rw [Matrix.multiply, if_pos hsizes, product_jacobian_inverse ht hu hp hdefined]

/-- The axes of the plane exchanged, and then `(x, y)` taken to `(1 / x, y / x)`. -/
theorem derivative_inverse_perspective :
    ∃ (perspective : LinearTransform ℚ) (t u : Transform ℚ) (q : List ℚ) (first second : Matrix ℚ),
      ofMatrix (.ofRows 3 3 [[0, 0, 1], [0, 1, 0], [1, 0, 0]]) = .ok perspective ∧
      (step (.linear (.selection 2 [1, 0]))).concatenate (step (.linear perspective)) = .ok t ∧
      t.inverse = .ok u ∧ t.transform (.ofList [3, 2]) .fresh = .ok ⟨.ofList q, .ofList [3, 2]⟩ ∧
      t.derivative (.ofList [3, 2]) = .ok first ∧ u.derivative (.ofList q) = .ok second ∧
      second.multiply first = .ok (.eye 2 2) := by
  let a : Matrix ℚ := .ofRows 3 3 [[0, 0, 1], [0, 1, 0], [1, 0, 0]]
  have hrow (v : Nat → ℚ) : a.mulVec v 0 = v 2 ∧ a.mulVec v 1 = v 1 ∧ a.mulVec v 2 = v 0 := by
    simp [a, Matrix.mulVec, Finset.sum_range_succ, Matrix.entry_ofRows]
  -- The matrix exchanges the homogeneous coordinates and stretches nothing.
  have hcondition : a.ConditionAtMost (2 ^ 52) := by
    refine .of_isometry (by norm_num) fun v => ?_
    show Matrix.sumSquares 3 (a.mulVec v) = Matrix.sumSquares 3 v
    simp only [Matrix.sumSquares, Finset.sum_range_succ, Finset.sum_range_zero, hrow]
    ring
  have hperspective : ofMatrix a = .ok (.projective true a) := rfl
  obtain ⟨x, hx⟩ := Matrix.exists_inverse (a := a) rfl (by decide) hcondition
  obtain ⟨hxrows, hxcols, -⟩ := Matrix.inverse_sound hx
  obtain ⟨back, hback⟩ := exists_ofMatrix (m := x) (hxrows ▸ by decide) (hxcols ▸ by decide)
  have hundo : (LinearTransform.projective true a).inverse = .ok back := by
    show (do ofMatrix (← a.inverse)) = _
    rw [hx]
    exact hback
  have hswap : (.selection 2 [1, 0] : LinearTransform ℚ).inverse = .ok (.selection 2 [1, 0]) := rfl
  have ht := concatenate_eq_ok_iff (a := step (.linear (.selection 2 [1, 0])))
    (b := step (.linear (.projective true a))).mpr ⟨rfl, rfl⟩
  have hundos : [Step.linear (.projective true a), .linear (.selection 2 [1, 0])].mapM Step.inverse =
      .ok [.linear back, .linear (.selection 2 [1, 0])] :=
    List.mapM_eq_ok_iff.mpr (.cons (inverse_linear_eq_ok_iff.mpr ⟨back, hundo, rfl⟩)
      (.cons (inverse_linear_eq_ok_iff.mpr ⟨_, hswap, rfl⟩) .nil))
  have hu : (chain [.linear (.selection 2 [1, 0]), .linear (.projective true a)]).inverse =
      .ok (chain [.linear back, .linear (.selection 2 [1, 0])]) :=
    return_eq_ok_iff.mpr ⟨_, hundos, rfl⟩
  have hjoined := Joined.concatenate (P := fun s => ∃ l, s = .linear l)
    (.step ⟨_, rfl⟩) (.step ⟨_, rfl⟩) ht
  have hdefined : DefinedAt [.linear (.selection 2 [1, 0]), .linear (.projective true a)] [3, 2] := by
    refine (definedAt_cons_of_isAffine (t := .selection 2 [1, 0]) trivial
      (wellFormed_of_inverse hswap).1 rfl).mpr ⟨fun m hm => ?_, trivial⟩
    obtain rfl := Option.some.inj hm
    have hreached : (.selection 2 [1, 0] : LinearTransform ℚ).apply [3, 2] = [2, 3] := rfl
    rw [hreached, matrix, denominator_eq_mulVec rfl]
    exact (hrow _).2.2.trans_ne (by norm_num [lift])
  obtain ⟨q, first, second, h⟩ := derivative_inverse hjoined hu (p := [3, 2]) rfl hdefined
  exact ⟨_, _, _, q, first, second, hperspective, ht, hu, h⟩

end Transform

end Georef

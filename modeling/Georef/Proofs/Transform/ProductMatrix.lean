import Georef.Proofs.Transform.Composition
import Georef.Proofs.Transform.Homogeneous
import Mathlib.Algebra.BigOperators.Field
import Mathlib.Tactic.Ring

/-!
# The matrix of a chain

The matrix of a chain is formed step by step, and every product is checked for the sizes of its factors. A
chain of linear steps divides once at every step, and the product of its matrices divides once at the
end. Both give the same image, since a factor common to all homogeneous coordinates drops out of the
division, and the same derivative, since the derivatives of two projections multiply like their matrices.

## Key results

- `Leads.matrix?_eq_product?`: where steps fit together, no product of their matrices is refused
- `project_product` and `projectJacobian_product`: a product of two matrices projects like its factors one
  after the other
- `Reaches.walk`: a walk along a chain is at every step where the product of the matrices so far leads
- `productMatrix_represents`: the transform made of the product matrix and the chain itself give the same
-/

namespace Georef

open LinearTransform

/-! ## The checked product -/

namespace Transform

section Checked

variable {α : Type} [Zero α] [One α] [Add α] [Mul α] {d e : Int} {steps : List (Step α)} {m : Matrix α}
  {t : Transform α}

omit [Add α] [Mul α] in
/-- A linear step adds its own matrix to those of the steps after it. -/
theorem mapM_matrix?_cons (t : LinearTransform α) (rest : List (Step α)) :
    (Step.linear t :: rest).mapM Step.matrix? = (rest.mapM Step.matrix?).map (t.matrix :: ·) := by
  rw [List.mapM_cons]
  cases rest.mapM Step.matrix? <;> rfl

/-- Along steps that fit together `Matrix.multiply` never finds a mismatch, so `multiplyAlong` gives the product
of all matrices, or nothing if one of the steps has none. -/
theorem Leads.multiplyAlong_some (h : Leads d steps e) (hrows : (m.rows : Int) = d + 1) :
    multiplyAlong (some m) steps =
      .ok ((steps.mapM Step.matrix?).map (·.foldl (fun product m => m.product product) m)) := by
  -- The product so far has a row for each dimension of the point where the next step starts, and one more.
  induction h generalizing m with
  | nil d => rfl
  | @cons d e s rest hs _ ih =>
    cases s with
    | managed f => rfl
    | foreign f => rfl
    | linear t =>
      have hcols := cols_matrix t
      have hsource : t.source = d := hs
      have hfit : t.matrix.cols = m.rows := by omega
      have hrest := ih (m := t.matrix.product m) (rows_matrix t)
      have hstep : multiplyAlong (some m) (.linear t :: rest) =
          (do multiplyAlong (some (← t.matrix.multiply m)) rest) := rfl
      rw [hstep, Matrix.multiply, if_pos hfit, mapM_matrix?_cons, Option.map_map]
      exact hrest

/-- Where the steps fit together, `matrix?` never fails, and `product?` says what the answer is. -/
theorem Leads.matrix?_eq_product? (h : Leads d t.steps e) : t.matrix? = .ok t.product? := by
  rw [matrix?, product?]
  generalize t.steps = steps at h
  cases h with
  | nil d => rfl
  | @cons d e s rest _ hrest =>
    cases s with
    | managed f => rfl
    | foreign f => rfl
    | linear t =>
      have hfirst : multiplyAlong none (.linear t :: rest) = multiplyAlong (some t.matrix) rest := rfl
      rw [hfirst, hrest.multiplyAlong_some (rows_matrix t), mapM_matrix?_cons]
      cases rest.mapM Step.matrix? <;> rfl

end Checked

end Transform

variable {K : Type} [Field K]

namespace LinearTransform

/-! ## The product of two matrices -/

section Product

variable {a b : Matrix K} {p : List K}

/-- The homogeneous coordinates of an image under a product: both denominators are in front of the
    `lift`. -/
private theorem mulVec_product_lift (hp : p.length + 1 = a.cols) (hrows : 1 ≤ a.rows)
    (hfit : a.rows = b.cols) (hb : 1 ≤ b.rows) (hw : denominator a p ≠ 0)
    (hw' : denominator b (project a p) ≠ 0) :
    (b.product a).mulVec (lift p) = fun i =>
      denominator a p * denominator b (project a p) * lift (project b (project a p)) i := by
  have hq : (project a p).length + 1 = b.cols := by rw [length_project]; omega
  rw [Matrix.mulVec_product, mulVec_lift hp hrows hw, Matrix.mulVec_mul, mulVec_lift hq hb hw']
  simp only [mul_assoc]

/-- A product of two matrices projects as its factors do one after the other: `project` and
    `denominator` are both multiplicative. -/
theorem project_product (hp : p.length + 1 = a.cols) (hrows : 1 ≤ a.rows) (hfit : a.rows = b.cols)
    (hb : 1 ≤ b.rows) (hw : denominator a p ≠ 0) (hw' : denominator b (project a p) ≠ 0) :
    denominator (b.product a) p = denominator a p * denominator b (project a p) ∧
      project (b.product a) p = project b (project a p) := by
  refine project_eq_of_mulVec hp ?_ (mul_ne_zero hw hw')
    (mulVec_product_lift hp hrows hfit hb hw hw')
  rw [length_project, Matrix.rows_product]
  omega

/-- A row that is orthogonal to a lifted point takes the last coordinate off every other one. -/
private theorem sum_mul_sub_lift {q : List K} {g x : Nat → K}
    (hg : ∑ k ∈ Finset.range (q.length + 1), g k * lift q k = 0) :
    ∑ k ∈ Finset.range q.length, g k * (x k - lift q k * x q.length) =
      ∑ k ∈ Finset.range (q.length + 1), g k * x k := by
  have hlast : ∑ k ∈ Finset.range q.length, g k * lift q k = -g q.length := by
    rw [Finset.sum_range_succ, lift_length, mul_one] at hg
    exact eq_neg_of_add_eq_zero_left hg
  calc ∑ k ∈ Finset.range q.length, g k * (x k - lift q k * x q.length)
      = ∑ k ∈ Finset.range q.length, g k * x k -
          (∑ k ∈ Finset.range q.length, g k * lift q k) * x q.length := by
        rw [Finset.sum_mul, ← Finset.sum_sub_distrib]
        exact Finset.sum_congr rfl fun k _ => by ring
    _ = ∑ k ∈ Finset.range (q.length + 1), g k * x k := by
        rw [hlast, Finset.sum_range_succ]
        ring

/-- `projectJacobian` of a product of two matrices is the product of theirs, that of the left factor
    taken at the image under the right one. -/
theorem projectJacobian_product (hp : p.length + 1 = a.cols) (hrows : 1 ≤ a.rows)
    (hfit : a.rows = b.cols) (hb : 1 ≤ b.rows) (hw : denominator a p ≠ 0)
    (hw' : denominator b (project a p) ≠ 0) :
    projectJacobian (b.product a) p =
      (projectJacobian b (project a p)).product (projectJacobian a p) := by
  have hq : (project a p).length + 1 = b.cols := by rw [length_project]; omega
  have hlength : (project a p).length = a.rows - 1 := length_project a p
  have hz : (project b (project a p)).length = b.rows - 1 := length_project b _
  obtain ⟨hdenominator, hproject⟩ := project_product hp hrows hfit hb hw hw'
  refine Matrix.ext_entry rfl rfl fun i j (hi : i < b.rows - 1) (hj : j < a.cols - 1) => ?_
  -- Row `i` of the left factor, made orthogonal to the image between the factors.
  let g (k : Nat) : K :=
    b.entry i k - lift (project b (project a p)) i * b.entry (b.rows - 1) k
  have hg : ∑ k ∈ Finset.range ((project a p).length + 1), g k * lift (project a p) k = 0 := by
    have hrow := congrFun (mulVec_lift hq hb hw') i
    have hlast := congrFun (mulVec_lift hq hb hw') (b.rows - 1)
    rw [← hz, lift_length, mul_one, hz] at hlast
    rw [Matrix.mulVec, ← hq] at hrow hlast
    simp only [g, sub_mul, Finset.sum_sub_distrib, mul_assoc, ← Finset.mul_sum]
    rw [hrow, hlast]
    ring
  -- On both sides the entry is a sum over `g`: on the left over all places, on the right without the last
  -- one, whose share is taken off the others.
  have hleft : (projectJacobian (b.product a) p).entry i j =
      (∑ k ∈ Finset.range ((project a p).length + 1), g k * a.entry k j) /
        (denominator a p * denominator b (project a p)) := by
    rw [entry_projectJacobian (m := b.product a) hi hj, hdenominator, hproject,
      Matrix.rows_product, Matrix.entry_product, Matrix.entry_product, hq]
    simp only [g, sub_mul, Finset.sum_sub_distrib, Finset.mul_sum, mul_assoc]
  have hright : ((projectJacobian b (project a p)).product (projectJacobian a p)).entry i j =
      (∑ k ∈ Finset.range (project a p).length,
        g k * (a.entry k j - lift (project a p) k * a.entry (project a p).length j)) /
          (denominator a p * denominator b (project a p)) := by
    have hinner : (projectJacobian b (project a p)).cols = (project a p).length := by
      rw [cols_projectJacobian, ← hq, Nat.add_sub_cancel]
    rw [Matrix.entry_product, hinner, Finset.sum_div]
    refine Finset.sum_congr rfl fun k hk => ?_
    have hk' := Finset.mem_range.mp hk
    rw [entry_projectJacobian hi (by omega), entry_projectJacobian (by omega) hj, ← hlength,
      div_mul_div_comm, mul_comm (denominator b _)]
  rw [hleft, hright, sum_mul_sub_lift hg]

end Product

end LinearTransform

namespace Transform

variable {p : List K} {d e : Int} {steps : List (Step K)}

/-! ## Walking along a chain -/

/-- No linear step of a walk that starts at the point meets a denominator of zero. -/
def DefinedAt : List (Step K) → List K → Prop
  | [], _ => True
  | s :: rest, p => (∀ m, s.matrix? = some m → denominator m p ≠ 0) ∧ DefinedAt rest (s.apply p)

/-- A step that `IsAffine` stops no walk. -/
theorem definedAt_cons_of_isAffine {t : LinearTransform K} (haffine : t.IsAffine)
    (ht : t.WellFormed) (hp : (p.length : Int) = t.source) :
    DefinedAt (.linear t :: steps) p ↔ DefinedAt steps (t.apply p) := by
  refine ⟨And.right, fun h => ⟨fun m hm => ?_, h⟩⟩
  obtain rfl : t.matrix = m := Option.some.inj hm
  rw [(denominator_of_isAffine haffine ht hp).1]
  exact one_ne_zero

/-- All steps are linear, and their parts make sense. -/
def AllLinear (steps : List (Step K)) : Prop := ∀ s ∈ steps, ∃ t, s = .linear t ∧ t.WellFormed

omit [Field K] in
/-- `AllLinear` steps are well-formed as steps. -/
theorem AllLinear.wellFormed (h : AllLinear steps) : ∀ s ∈ steps, s.WellFormed := fun s hs => by
  obtain ⟨t, rfl, ht⟩ := h s hs
  exact ht

/-- Linear steps that lead from one dimension to another, and their matrices. -/
inductive LinearChain : Int → List (Step K) → List (Matrix K) → Int → Prop where
  | nil (d : Int) : LinearChain d [] [] d
  | cons {d e : Int} {t : LinearTransform K} {rest : List (Step K)} {matrices : List (Matrix K)} :
      t.WellFormed → t.source = d → LinearChain t.target rest matrices e →
      LinearChain d (.linear t :: rest) (t.matrix :: matrices) e

/-- Linear steps that fit together are a `LinearChain` with their matrices. -/
theorem exists_linearChain (hleads : Leads d steps e) (hlinear : AllLinear steps) :
    ∃ matrices, LinearChain d steps matrices e := by
  induction hleads with
  | nil d => exact ⟨[], .nil d⟩
  | @cons d e s rest hs _ ih =>
    obtain ⟨t, rfl, ht⟩ := hlinear s List.mem_cons_self
    obtain ⟨matrices, hrest⟩ := ih fun s hs => hlinear s (List.mem_cons_of_mem _ hs)
    exact ⟨t.matrix :: matrices, .cons ht hs hrest⟩

namespace LinearChain

variable {matrices : List (Matrix K)} {m : Matrix K}

/-- The matrices of a `LinearChain` are those that its steps give. -/
theorem mapM_matrix? (h : LinearChain d steps matrices e) :
    steps.mapM Step.matrix? = some matrices := by
  induction h with
  | nil d => rfl
  | cons _ _ _ ih =>
    rw [List.mapM_cons, ih]
    rfl

/-- A product along a chain has one row more than the chain's target has dimensions: that of the
    last matrix decides. -/
theorem rows_foldl_product (h : LinearChain d steps matrices e) (hrows : (m.rows : Int) = d + 1) :
    ((matrices.foldl (fun product m => m.product product) m).rows : Int) = e + 1 := by
  induction h generalizing m with
  | nil d => exact hrows
  | @cons d e t rest matrices _ _ _ ih => exact ih (m := t.matrix.product m) (rows_matrix t)

/-- A product keeps its columns while matrices are put in front. -/
theorem cols_foldl_product (h : LinearChain d steps matrices e) :
    (matrices.foldl (fun product m => m.product product) m).cols = m.cols := by
  induction h generalizing m with
  | nil d => rfl
  | @cons d e t rest matrices _ _ _ ih => exact ih (m := t.matrix.product m)

end LinearChain

/-- The matrix takes the point, with the derivative there, to where a walk from the point has led. -/
structure Reaches (m : Matrix K) (p : List K) (reached : List K × Matrix K) : Prop where
  cols_eq : m.cols = p.length + 1
  rows_eq : m.rows = reached.1.length + 1
  denominator_ne_zero : denominator m p ≠ 0
  image : project m p = reached.1
  jacobian : projectJacobian m p = reached.2

namespace Reaches

variable {m : Matrix K} {reached : List K × Matrix K}

/-- Every walk starts at the identity, and so does the product. -/
theorem start (p : List K) :
    Reaches (.eye (p.length + 1) (p.length + 1)) p (p, .eye p.length p.length) := by
  let stay : LinearTransform K := .identity p.length
  have hstay := denominator_of_isAffine (t := stay) (p := p) trivial trivial rfl
  exact ⟨rfl, rfl, hstay.1 ▸ one_ne_zero, hstay.2,
    (jacobian_eq_projectJacobian (t := stay) trivial rfl).symm⟩

/-- One step of `Transform.advance` further, its matrix comes in front of the product. -/
theorem advance {t : LinearTransform K} (h : Reaches m p reached) (ht : t.WellFormed)
    (hsource : (reached.1.length : Int) = t.source) (hw : denominator t.matrix reached.1 ≠ 0) :
    Reaches (t.matrix.product m) p (advance reached (.linear t)) := by
  obtain ⟨hcols, hrows, hm, himage, hjacobian⟩ := h
  have hcols' := cols_matrix t
  have hrows' := rows_matrix t
  have htarget := length_apply ht hsource
  have hfit : m.rows = t.matrix.cols := by omega
  have hw' : denominator t.matrix (project m p) ≠ 0 := himage ▸ hw
  obtain ⟨hdenominator, hproject⟩ :=
    project_product hcols.symm (by omega) hfit (by omega) hm hw'
  -- The product is undone factor by factor: the point first, then the derivative.
  refine ⟨hcols, ?_, hdenominator ▸ mul_ne_zero hm hw', ?_, ?_⟩
  · show t.matrix.rows = (t.apply reached.1).length + 1
    omega
  · rw [hproject, himage, ← apply_eq_project ht hsource]
    rfl
  · rw [projectJacobian_product hcols.symm (by omega) hfit (by omega) hm hw', himage, hjacobian,
      ← jacobian_eq_projectJacobian ht hsource]
    rfl

/-- A walk along a chain is where the product of the matrices leads, from `Reaches` to `Reaches`. -/
theorem walk {matrices : List (Matrix K)} (hchain : LinearChain d steps matrices e)
    (h : Reaches m p reached) (hsource : (reached.1.length : Int) = d)
    (hdefined : DefinedAt steps reached.1) :
    Reaches (matrices.foldl (fun product m => m.product product) m) p
      (steps.foldl Transform.advance reached) := by
  -- Both folds take the same steps, from a product and a place that belong together.
  induction hchain generalizing m reached with
  | nil d => exact h
  | @cons d e t rest matrices ht hd _ ih =>
    have hsource' : (reached.1.length : Int) = t.source := hsource.trans hd.symm
    obtain ⟨hfirst, hrest⟩ := hdefined
    exact ih (h.advance ht hsource' (hfirst _ rfl)) (length_apply ht hsource') hrest

end Reaches

/-! ## The matrix and the walk of a transform -/

variable {c : Transform K}

/-- The images along a chain of linear steps have the dimension that it leads to. -/
theorem length_apply_of_allLinear (hleads : Leads d c.steps e) (hlinear : AllLinear c.steps)
    (hp : (p.length : Int) = d) : ((c.apply p).length : Int) = e :=
  hleads.length_foldl_apply hlinear.wellFormed hp

/-- `product?` is the product along the steps, started from the identity. -/
theorem product?_eq_some {matrices : List (Matrix K)} (hchain : LinearChain d c.steps matrices e)
    (hne : c.steps ≠ []) :
    ∃ n : Nat, (n : Int) = d + 1 ∧
      c.product? = some (matrices.foldl (fun product m => m.product product) (.eye n n)) := by
  rw [product?, hchain.mapM_matrix?]
  generalize c.steps = steps at hchain hne
  cases hchain with
  | nil d => exact absurd rfl hne
  | @cons d e t rest matrices _ hd _ =>
    refine ⟨t.matrix.cols, hd ▸ cols_matrix t, ?_⟩
    -- The product starts from the first matrix, which is the same as from an identity.
    rw [List.foldl_cons, Matrix.product_eye rfl]
    rfl

/-- A transform of linear steps has a matrix, and `matrix?` finds the one that takes every point to
    where a walk along the steps ends. -/
theorem exists_matrix? (hleads : Leads d c.steps e) (hne : c.steps ≠ [])
    (hlinear : AllLinear c.steps) :
    ∃ m, c.matrix? = .ok (some m) ∧ (m.rows : Int) = e + 1 ∧ (m.cols : Int) = d + 1 ∧
      ∀ p : List K, (p.length : Int) = d → DefinedAt c.steps p →
        Reaches m p (c.applyWithJacobian p) := by
  obtain ⟨matrices, hchain⟩ := exists_linearChain hleads hlinear
  obtain ⟨n, hn, hproduct⟩ := product?_eq_some hchain hne
  refine ⟨_, hleads.matrix?_eq_product?.trans (congrArg _ hproduct), hchain.rows_foldl_product hn, ?_, fun p hp hdefined => ?_⟩
  · rw [hchain.cols_foldl_product]
    exact hn
  · obtain rfl : n = p.length + 1 := by omega
    obtain ⟨hwellFormed, hsource, -⟩ := WellFormed.of_leads hleads hne hlinear.wellFormed
    rw [hwellFormed.applyWithJacobian_eq_walk (hp.trans hsource.symm)]
    exact (Reaches.start p).walk hchain hp hdefined

/-- `product?` finds nothing as soon as one step has no matrix. -/
theorem product?_eq_none (h : ∃ s ∈ c.steps, ∀ t, s ≠ .linear t) : c.product? = none := by
  obtain ⟨s, hs, hnone⟩ := h
  cases hmatrices : c.steps.mapM Step.matrix? with
  | none => rw [product?, hmatrices]; rfl
  | some matrices =>
    obtain ⟨m, -, hm⟩ := (List.mapM_eq_some_iff.mp hmatrices).exists_of_mem_left hs
    cases s with
    | linear t => exact absurd rfl (hnone t)
    | managed f => exact nomatch hm
    | foreign f => exact nomatch hm

/-! ## The chain and its matrix -/

variable [DecidableEq K]

/-- A linear step that was made in one of the usual ways has points on both sides. -/
private theorem one_le_of_made {t : LinearTransform K} (h : t.Made) : 1 ≤ t.source ∧ 1 ≤ t.target := by
  obtain ⟨hrows, hcols, -⟩ := ofMatrix_eq_ok_iff.mp h.isNormal
  have := cols_matrix t
  have := rows_matrix t
  omega

/-- A chain of linear steps, however it was concatenated, has a matrix, and the transform made of the
    matrix has the images and derivatives of the chain wherever no step meets a denominator of zero. A
    chain with a step of another kind has none. -/
theorem productMatrix_represents {c : Transform K}
    (hc : Joined (fun s => ∀ t, s = .linear t → t.Made) c) :
    ((∀ s ∈ c.steps, ∃ t, s = .linear t) →
      ∃ m, c.matrix? = .ok (some m) ∧ (m.rows : Int) = c.target + 1 ∧ (m.cols : Int) = c.source + 1 ∧
        ∃ t, ofMatrix m = .ok t ∧
          ∀ p : List K, (p.length : Int) = c.source → DefinedAt c.steps p →
            ∃ q jacobian,
              (step (.linear t)).transform (.ofList p) .fresh = .ok ⟨.ofList q, .ofList p⟩ ∧
              c.transform (.ofList p) .fresh = .ok ⟨.ofList q, .ofList p⟩ ∧
              (step (.linear t)).derivative (.ofList p) = .ok jacobian ∧
              c.derivative (.ofList p) = .ok jacobian) ∧
    ((∃ s ∈ c.steps, ∀ t, s ≠ .linear t) → c.matrix? = .ok none) := by
  refine ⟨fun hall => ?_, fun hother =>
    hc.leads.matrix?_eq_product?.trans (congrArg _ (product?_eq_none hother))⟩
  have hmade : ∀ s ∈ c.steps, ∃ t, s = .linear t ∧ t.Made := fun s hs => by
    obtain ⟨t, rfl⟩ := hall s hs
    exact ⟨t, rfl, hc.of_mem_steps _ hs t rfl⟩
  have hlinear : AllLinear c.steps := fun s hs => by
    obtain ⟨t, rfl, ht⟩ := hmade s hs
    exact ⟨t, rfl, ht.isNormal.wellFormed⟩
  obtain ⟨hsource, htarget⟩ := hc.leads.one_le hc.steps_ne_nil fun s hs => by
    obtain ⟨t, rfl, ht⟩ := hmade s hs
    exact one_le_of_made ht
  obtain ⟨m, hm, hrows, hcols, hreaches⟩ := exists_matrix? hc.leads hc.steps_ne_nil hlinear
  obtain ⟨t, ht⟩ := exists_ofMatrix (m := m) (by omega) (by omega)
  -- Over exact numbers the new transform has the product itself for its matrix.
  obtain rfl : t.matrix = m := matrix_of_ofMatrix ht
  refine ⟨t.matrix, hm, hrows, hcols, t, ht, fun p hp hdefined => ?_⟩
  have hwalk := hreaches p hp hdefined
  have hsource' : (p.length : Int) = t.source := by
    have := cols_matrix t
    omega
  have hlength := length_apply_of_allLinear hc.leads hlinear hp
  have hwellFormed := (isNormal_of_ofMatrix ht).wellFormed
  refine ⟨c.apply p, c.jacobian p, ?_, ?_, ?_, derivative_ofList hc.leads hlinear.wellFormed hp⟩
  · rw [transform_linear hwellFormed hsource', hwalk.image, fst_applyWithJacobian]
  · exact transform_ofList hc.leads hlinear.wellFormed hp
  · rw [derivative_linear hwellFormed hsource', hwalk.jacobian]
    rfl

/-- A scaling of the line followed by a perspective view of the line in the plane. -/
theorem productMatrix_represents_perspective :
    ∃ (view : LinearTransform ℚ) (c : Transform ℚ) (m : Matrix ℚ) (t : LinearTransform ℚ),
      ofMatrix (.ofRows 3 2 [[2, 1], [0, 3], [1, 1]]) = .ok view ∧
      (step (.linear (ofScale 2 1))).concatenate (step (.linear view)) = .ok c ∧
      c.matrix? = .ok (some m) ∧ ofMatrix m = .ok t ∧
      ∃ q jacobian,
        (step (.linear t)).transform (.ofList [1 / 2]) .fresh = .ok ⟨.ofList q, .ofList [1 / 2]⟩ ∧
        c.transform (.ofList [1 / 2]) .fresh = .ok ⟨.ofList q, .ofList [1 / 2]⟩ ∧
        (step (.linear t)).derivative (.ofList [1 / 2]) = .ok jacobian ∧
        c.derivative (.ofList [1 / 2]) = .ok jacobian := by
  obtain ⟨view, hview⟩ := exists_ofMatrix (m := .ofRows 3 2 [[2, 1], [0, 3], [1, 1]] (α := ℚ))
    (show 2 ≤ 3 by decide) (show 2 ≤ 2 by decide)
  have hmatrix := matrix_of_ofMatrix hview
  have hscale : (ofScale 2 1 : LinearTransform ℚ) = .scaleOffset 2 1 := by norm_num [ofScale]
  have hsource : view.source = 1 := by
    have hcols := cols_matrix view
    rw [hmatrix, Matrix.cols_ofRows] at hcols
    omega
  have hfit : (step (.linear (ofScale 2 1)) : Transform ℚ).target = (step (.linear view)).source := by
    rw [hscale]
    exact hsource.symm
  have hc := concatenate_eq_ok_iff.mpr ⟨hfit, rfl⟩
  -- The chain that is built is one of steps with matrices.
  have hjoined := Joined.concatenate (P := fun s => ∀ t, s = .linear t → t.Made)
    (.step fun t ht => Step.linear.inj ht ▸ .ofScale 2 1)
    (.step fun t ht => Step.linear.inj ht ▸ .ofMatrix hview) hc
  obtain ⟨hlinear, -⟩ := productMatrix_represents hjoined
  obtain ⟨m, hm, -, -, t, ht, hpoint⟩ := hlinear (by simp [steps])
  refine ⟨view, _, m, t, hview, hc, hm, ht, hpoint [1 / 2] ?_ ?_⟩
  · rw [hscale]
    rfl
  · rw [hscale]
    refine (definedAt_cons_of_isAffine (t := .scaleOffset 2 1) trivial trivial rfl).mpr
      ⟨fun m hm => ?_, trivial⟩
    obtain rfl := Option.some.inj hm
    have hreached : (.scaleOffset 2 1 : LinearTransform ℚ).apply [1 / 2] = [2] := by
      norm_num [LinearTransform.apply]
    rw [hmatrix, hreached, denominator_eq_mulVec rfl]
    norm_num [Matrix.mulVec, Finset.sum_range_succ, Matrix.entry_ofRows, lift]

end Transform

end Georef

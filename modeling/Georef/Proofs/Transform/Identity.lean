import Georef.Proofs.Matrix.ExactUnits
import Georef.Proofs.Transform.Jacobian

/-!
# Transforms that leave every point where it is

Most linear transforms answer whether they are an identity by their matrix. A selection looks at its indices instead,
and these tell less: an ordinate that is counted from the end is not found in its place, so a selection of all
ordinates in their order may count as something else. The other way round nothing goes wrong, neither for a single
step nor for a chain of steps, each of which has to be an identity.

## Key results

- `isIdentity_selectionMatrix`: which selections have an identity matrix
- `isIdentity_iff`: a linear transform is an identity just if its matrix is, unless it counts from the end
- `exists_matrix?_of_isIdentity`: the matrix of a chain of identities
- `isIdentity_spec`: all of this, and what an identity does to points
-/

namespace Georef

namespace LinearTransform

/-! ## Linear transforms -/

/-- Some ordinate of a selection is counted from the end. -/
def CountsBack {α : Type} : LinearTransform α → Prop
  | selection _ indices => ∃ i ∈ indices, i < 0
  | _ => False

section Linear

variable {α : Type} [Zero α] [One α] [BEq α] [UnitsApart α] {source : Nat} {indices : List Int}

omit [BEq α] [UnitsApart α] in
/-- `selectionMatrix` depends on the places that its indices mean, not on how they are counted. -/
theorem selectionMatrix_ordinatePlace (source : Nat) (indices : List Int) :
    (selectionMatrix source ((indices.map (ordinatePlace source)).map fun (j : Nat) => (j : Int)) : Matrix α) =
      selectionMatrix source indices := by
  unfold selectionMatrix
  simp only [List.length_map, List.getElem?_map]
  congr 1
  funext i j
  cases indices[i]? <;> simp

/-- A `selectionMatrix` is an identity if its indices mean all places in their order. -/
theorem isIdentity_selectionMatrix (h : ∀ i ∈ indices, -(source : Int) ≤ i ∧ i < source) :
    (selectionMatrix source indices : Matrix α).isIdentity = true ↔
      indices.map (ordinatePlace source) = List.range source := by
  rw [← selectionMatrix_ordinatePlace]
  refine isIdentity_selectionMatrix_iff fun i hi => ?_
  rw [List.getElem_map]
  exact ordinatePlace_lt (h _ (List.getElem_mem _))

omit [UnitsApart α] in
/-- `isIdentity` finds a selection to be one if the indices themselves are these places. -/
theorem isIdentity_selection_iff :
    (selection source indices : LinearTransform α).isIdentity = true ↔
      (∀ i ∈ indices, 0 ≤ i) ∧ indices.map (ordinatePlace source) = List.range source := by
  rw [isIdentity, beq_iff_eq]
  constructor
  · intro h
    subst h
    simp [Function.comp_def]
  · rintro ⟨hnonneg, hplaces⟩
    -- An index that is not negative is its own place.
    have hcount : ∀ i ∈ indices, ((ordinatePlace source i : Nat) : Int) = i := by
      intro i hi
      have := hnonneg i hi
      unfold ordinatePlace
      split <;> omega
    calc indices = indices.map fun i => ((ordinatePlace source i : Nat) : Int) := by
          rw [List.map_congr_left hcount, List.map_id']
      _ = (List.range source).map fun (i : Nat) => (i : Int) := by
          rw [← hplaces, List.map_map]
          rfl

/-- `isIdentity` finds a linear transform to be one just if its matrix is one, unless it
    `CountsBack`. -/
theorem isIdentity_iff {t : LinearTransform α} (ht : t.WellFormed) :
    t.isIdentity = true ↔ t.matrix.isIdentity = true ∧ ¬t.CountsBack := by
  cases t with
  | identity dimension => exact iff_of_true rfl ⟨Matrix.isIdentity_eye (dimension + 1), not_false⟩
  | selection source indices =>
    rw [isIdentity_selection_iff, matrix, isIdentity_selectionMatrix ht, and_comm]
    simp [CountsBack]
  | scaleOffset scale offset => exact (and_iff_left not_false).symm
  | affine m00 m10 m01 m11 m02 m12 => exact (and_iff_left not_false).symm
  | projective planar m => exact (and_iff_left not_false).symm

end Linear

/-- Over exact numbers a transform that is found to be an identity leaves every point where it is,
    and its `jacobian` is the identity matrix. -/
theorem apply_of_isIdentity {K : Type} [Field K] [DecidableEq K] {t : LinearTransform K} (ht : t.WellFormed)
    (h : t.isIdentity = true) {p : List K} (hp : (p.length : Int) = t.source) :
    t.apply p = p ∧ t.jacobian p = .eye p.length p.length := by
  have hcols := cols_matrix t
  have hmatrix : t.matrix = .eye (p.length + 1) (p.length + 1) := by
    obtain ⟨hsquare, hentry⟩ := Matrix.isIdentity_iff.mp ((isIdentity_iff ht).mp h).1
    refine Matrix.ext_entry (by simp only [Matrix.rows_eye]; omega) (by simp only [Matrix.cols_eye]; omega) ?_
    intro i j hi hj
    rw [Matrix.entry_eye (by omega) (by omega)]
    exact beq_iff_eq.mp (hentry i hi j hj)
  have hlast :=
    project_eq_of_mulVec (m := .eye (p.length + 1) (p.length + 1)) (q := p) (w := (1 : K)) rfl rfl one_ne_zero
  rw [apply_eq_project ht hp, jacobian_eq_projectJacobian ht hp, hmatrix]
  refine ⟨(hlast ?_).2, projectJacobian_eye p⟩
  simp only [mulVec_eye_lift, one_mul]

end LinearTransform

/-! ## Chains -/

/-- Only linear steps are ever found to be identities. -/
theorem Step.isIdentity_iff {α : Type} [Zero α] [One α] [BEq α] {s : Step α} :
    s.isIdentity = true ↔ ∃ t, s = .linear t ∧ t.isIdentity = true := by
  cases s with
  | linear t => simp [Step.isIdentity]
  | managed m => simp [Step.isIdentity]
  | foreign m => simp [Step.isIdentity]

namespace Transform

open LinearTransform

section Chain

variable {α : Type} [Zero α] [One α] [BEq α] {d e : Int} {steps : List (Step α)}

/-- All steps of a chain of identities have identity matrices, of one size. -/
theorem Leads.exists_matrices [UnitsApart α] (hleads : Leads d steps e) (hsteps : ∀ s ∈ steps, s.WellFormed)
    (h : ∀ s ∈ steps, s.isIdentity = true) :
    ∃ matrices, steps.mapM Step.matrix? = some matrices ∧ matrices.length = steps.length ∧
      ∀ m ∈ matrices, m.isIdentity = true ∧ (m.rows : Int) = d + 1 := by
  induction hleads with
  | nil d => exact ⟨[], rfl, rfl, List.forall_mem_nil _⟩
  | @cons d e s rest hd _ ih =>
    obtain ⟨hs, hrest⟩ := List.forall_mem_cons.mp h
    obtain ⟨t, rfl, ht⟩ := Step.isIdentity_iff.mp hs
    have hwell : t.WellFormed := hsteps _ List.mem_cons_self
    obtain ⟨hidentity, -⟩ := (LinearTransform.isIdentity_iff hwell).mp ht
    -- An identity matrix is square, so the next step starts where this one does.
    have hsquare := (Matrix.isIdentity_iff.mp hidentity).1
    have hrows := rows_matrix t
    have hcols := cols_matrix t
    have htarget : t.target = d := by
      have hsource : t.source = d := hd
      omega
    obtain ⟨matrices, hmatrices, hlength, hall⟩ := ih (fun s hs => hsteps s (List.mem_cons_of_mem _ hs)) hrest
    refine ⟨t.matrix :: matrices, ?_, congrArg (· + 1) hlength, List.forall_mem_cons.mpr ⟨⟨hidentity, by omega⟩, ?_⟩⟩
    · rw [List.mapM_cons, hmatrices]
      rfl
    · rw [← htarget]
      exact hall

end Chain

section Product

variable {α : Type} [Zero α] [One α] [Add α] [Sub α] [Mul α] [Div α] [BEq α] [Solver α] [ExactUnits α]

/-- A product along a chain of identities of one size is an identity, also if numbers are as inexact
    as `ExactUnits` allows. -/
theorem isIdentity_foldl_product {matrices : List (Matrix α)} {m : Matrix α} (hm : m.isIdentity = true)
    (h : ∀ a ∈ matrices, a.isIdentity = true ∧ a.rows = m.rows) :
    (matrices.foldl (fun product m => m.product product) m).isIdentity = true := by
  induction matrices generalizing m with
  | nil => exact hm
  | cons a matrices ih =>
    obtain ⟨⟨ha, hrows⟩, hrest⟩ := List.forall_mem_cons.mp h
    have hcols : a.cols = m.rows := by rw [← (Matrix.isIdentity_iff.mp ha).1, hrows]
    refine ih (Matrix.isIdentity_product hcols ha hm) fun b hb => ⟨(hrest b hb).1, ?_⟩
    show b.rows = a.rows
    rw [(hrest b hb).2, hrows]

/-- A transform that is found to be an identity has an identity matrix. -/
theorem exists_matrix?_of_isIdentity {c : Transform α} (hc : c.WellFormed) (h : c.isIdentity = true) :
    ∃ m, c.matrix? = .ok (some m) ∧ m.isIdentity = true := by
  have hsteps := List.all_eq_true.mp h
  obtain ⟨matrices, hmatrices, hlength, hall⟩ := hc.leads.exists_matrices hc.wellFormed_of_mem hsteps
  cases matrices with
  | nil => exact absurd (List.length_eq_zero_iff.mp hlength.symm) hc.steps_ne_nil
  | cons first rest =>
    obtain ⟨⟨hfirst, hrows⟩, hrest⟩ := List.forall_mem_cons.mp hall
    refine ⟨_, ?_, isIdentity_foldl_product hfirst fun a ha => ⟨(hrest a ha).1, ?_⟩⟩
    · rw [hc.leads.matrix?_eq_product?, product?, hmatrices]
      rfl
    · have := (hrest a ha).2
      omega

end Product

section Exact

variable {K : Type} [Field K] [DecidableEq K] {d e : Int} {steps : List (Step K)} {c : Transform K} {p : List K}

/-- A walk along identities ends where it has started, whatever product it has started with. -/
theorem Leads.walk_of_isIdentity (hleads : Leads d steps e) (hsteps : ∀ s ∈ steps, s.WellFormed)
    (h : ∀ s ∈ steps, s.isIdentity = true) (hp : (p.length : Int) = d) {m : Matrix K} (hm : m.rows = p.length) :
    steps.foldl advance (p, m) = (p, m) := by
  induction hleads with
  | nil d => rfl
  | @cons d e s rest hd _ ih =>
    obtain ⟨hs, hrest⟩ := List.forall_mem_cons.mp h
    obtain ⟨t, rfl, ht⟩ := Step.isIdentity_iff.mp hs
    have hwell : t.WellFormed := hsteps _ List.mem_cons_self
    have hp' : (p.length : Int) = t.source := hp.trans hd.symm
    obtain ⟨himage, hjacobian⟩ := apply_of_isIdentity hwell ht hp'
    have htarget : (p.length : Int) = t.target := himage ▸ length_apply hwell hp'
    calc (Step.linear t :: rest).foldl advance (p, m)
        = rest.foldl advance (t.apply p, (t.jacobian p).product m) := rfl
      _ = rest.foldl advance (p, m) := by rw [himage, hjacobian, Matrix.eye_product hm]
      _ = (p, m) := ih (fun s hs => hsteps s (List.mem_cons_of_mem _ hs)) hrest htarget

/-- Over exact numbers `transform` gives back every point if `isIdentity` says so, and the
    derivative is the identity matrix. -/
theorem transform_of_isIdentity (hc : c.WellFormed) (h : c.isIdentity = true) (hp : (p.length : Int) = c.source) :
    c.transform (.ofList p) .fresh = .ok ⟨.ofList p, .ofList p⟩ ∧
      c.derivative (.ofList p) = .ok (.eye p.length p.length) := by
  have hwalk : c.applyWithJacobian p = (p, .eye p.length p.length) := by
    rw [hc.applyWithJacobian_eq_walk hp]
    exact hc.leads.walk_of_isIdentity hc.wellFormed_of_mem (List.all_eq_true.mp h) hp rfl
  have happly : c.apply p = p := by rw [← fst_applyWithJacobian, hwalk]
  have hjacobian : c.jacobian p = .eye p.length p.length := by rw [jacobian, hwalk]
  rw [hc.transform_ofList hp, hc.derivative_ofList hp, happly, hjacobian]
  exact ⟨rfl, rfl⟩

end Exact

/-- A linear transform is found to be an identity just if its matrix is one, unless it counts ordinates from the end.
A transform of any number of steps that is found to be an identity has an identity matrix; over exact numbers it
leaves every point where it is, and its derivative is the identity matrix. -/
theorem isIdentity_spec {α K : Type} [Zero α] [One α] [Add α] [Sub α] [Mul α] [Div α] [BEq α] [Solver α]
    [ExactUnits α] [Field K] [DecidableEq K] :
    (∀ t : LinearTransform α, t.WellFormed →
      (t.isIdentity = true ↔ t.matrix.isIdentity = true ∧ ¬t.CountsBack)) ∧
    (∀ c : Transform α, c.WellFormed → c.isIdentity = true → ∃ m, c.matrix? = .ok (some m) ∧ m.isIdentity = true) ∧
    (∀ c : Transform K, c.WellFormed → c.isIdentity = true → ∀ p : List K, (p.length : Int) = c.source →
      c.transform (.ofList p) .fresh = .ok ⟨.ofList p, .ofList p⟩ ∧
        c.derivative (.ofList p) = .ok (.eye p.length p.length)) :=
  ⟨fun _ => LinearTransform.isIdentity_iff, fun _ => exists_matrix?_of_isIdentity,
    fun _ hc h _ => transform_of_isIdentity hc h⟩

/-- The ordinates of the plane selected in their order, and then left as they are. -/
theorem isIdentity_spec_plane :
    ((.selection 2 [0, 1] : LinearTransform Double).WellFormed ∧
      (LinearTransform.selection 2 [0, 1] : LinearTransform Double).matrix.isIdentity = true) ∧
    (∃ (c : Transform Double) (m : Matrix Double),
      (step (.linear (.selection 2 [0, 1]))).concatenate (step (.linear (.identity 2))) = .ok c ∧
      c.matrix? = .ok (some m) ∧ m.isIdentity = true) ∧
    (∃ c : Transform ℚ, (step (.linear (.selection 2 [0, 1]))).concatenate (step (.linear (.identity 2))) = .ok c ∧
      c.transform (.ofList [3, 5]) .fresh = .ok ⟨.ofList [3, 5], .ofList [3, 5]⟩ ∧
      c.derivative (.ofList [3, 5]) = .ok (.eye 2 2)) := by
  have hselection (α : Type) : (.selection 2 [0, 1] : LinearTransform α).WellFormed := by
    simp [LinearTransform.WellFormed]
  have hjoined {α : Type} {c : Transform α}
      (hc : (step (.linear (.selection 2 [0, 1]))).concatenate (step (.linear (.identity 2))) = .ok c) :
      c.WellFormed := by
    have hfirst : (Step.linear (.selection 2 [0, 1] : LinearTransform α)).WellFormed := hselection α
    have hsecond : (Step.linear (.identity 2 : LinearTransform α)).WellFormed := trivial
    exact Joined.wellFormed (.concatenate (.step hfirst) (.step hsecond) hc)
  obtain ⟨hlinear, hmatrix, hpoints⟩ := isIdentity_spec (α := Double) (K := ℚ)
  obtain ⟨m, hm, hidentity⟩ := hmatrix _ (hjoined rfl) rfl
  exact ⟨⟨hselection Double, ((hlinear _ (hselection Double)).mp rfl).1⟩, ⟨_, m, rfl, hm, hidentity⟩,
    ⟨_, rfl, hpoints _ (hjoined rfl) rfl [3, 5] rfl⟩⟩

/-- Not every transform with an identity matrix is found to be an identity: the selection of the only ordinate, counted
from the end, is not. -/
theorem identity_counted_from_end :
    (¬∀ t : LinearTransform Double, t.WellFormed → (t.isIdentity = true ↔ t.matrix.isIdentity = true)) ∧
      (LinearTransform.selection 1 [-1] : LinearTransform Double).isIdentity = false ∧
      (LinearTransform.selection 1 [-1] : LinearTransform Double).matrix.isIdentity = true := by
  have hmatrix : (LinearTransform.selection 1 [-1] : LinearTransform Double).matrix.isIdentity = true := by
    decide +kernel
  have hwell : (LinearTransform.selection 1 [-1] : LinearTransform Double).WellFormed := by
    simp [LinearTransform.WellFormed]
  refine ⟨fun h => ?_, rfl, hmatrix⟩
  exact absurd ((h _ hwell).mpr hmatrix) (by decide)

end Transform

end Georef

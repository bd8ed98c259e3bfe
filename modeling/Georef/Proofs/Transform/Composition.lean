import Georef.Proofs.Matrix.Algebra
import Georef.Proofs.Transform.Chain
import Georef.Proofs.Transform.Dimensions
import Georef.Proofs.Transform.Points
import Georef.Transform.Squaring
import Mathlib.Algebra.Field.Rat

/-!
# Concatenation as composition

A concatenation does what its first part does and then what its second part does, also if one of them is a
chain whose steps were taken over. Images need no law of arithmetic for that: the same steps are carried out
on the same numbers. Derivatives do, because a walk along a chain keeps one product for all its steps,
while the derivatives of two parts are two products. So images are those of doubles as well, and derivatives
are over exact numbers.

## Key results

- `WellFormed.concatenate`: what fits together is a transform from the source of the first to the target of
  the second
- `Leads.of_inverses`: inverse steps in reverse order lead back
- `foldl_advance_product`: a walk that starts with a product keeps the right factor to the end
- `concatenate_composes`: the image under a concatenation, and the chain rule
-/

namespace Georef

namespace Transform

/-! ## Well-formed transforms -/

section WellFormed

variable {α : Type} {a b c t : Transform α} {d e : Int} {steps : List (Step α)} {p : List α}

/-- The steps of a transform lead from its source to its target, there is at least one, and each of
    them is `Step.WellFormed`. -/
structure WellFormed (t : Transform α) : Prop where
  steps_ne_nil : t.steps ≠ []
  leads : Leads t.source t.steps t.target
  wellFormed_of_mem : ∀ s ∈ t.steps, s.WellFormed

/-- Whatever is `Joined` from well-formed steps is well-formed. -/
theorem Joined.wellFormed (h : Joined Step.WellFormed t) : t.WellFormed :=
  ⟨h.steps_ne_nil, h.leads, h.of_mem_steps⟩

namespace WellFormed

/-- A chain of well-formed steps is one from where they start to where they end. -/
theorem of_leads (hleads : Leads d t.steps e) (hne : t.steps ≠ [])
    (hsteps : ∀ s ∈ t.steps, s.WellFormed) : t.WellFormed ∧ t.source = d ∧ t.target = e := by
  have hsource := hleads.source_eq hne
  have htarget := hleads.target_eq hne
  exact ⟨⟨hne, hsource ▸ htarget ▸ hleads, hsteps⟩, hsource, htarget⟩

/-- `concatenate` leads from the source of the first part to the target of the second. -/
theorem concatenate (ha : a.WellFormed) (hb : b.WellFormed) (h : a.concatenate b = .ok c) :
    c.WellFormed ∧ c.source = a.source ∧ c.target = b.target := by
  obtain ⟨hfit, rfl⟩ := concatenate_eq_ok_iff.mp h
  refine of_leads (ha.leads.append (hfit ▸ hb.leads))
    (List.append_ne_nil_of_left_ne_nil ha.steps_ne_nil _) fun s hs => ?_
  exact (List.mem_append.mp hs).elim (ha.wellFormed_of_mem s) (hb.wellFormed_of_mem s)

end WellFormed

/-! ## Inverse steps -/

/-- Inverse steps in reverse order lead back. -/
theorem Leads.of_inverses [Zero α] [One α] [Add α] [Mul α] [Sub α] [Div α] [Neg α] [BEq α]
    [UnitsApart α] [Solver α] [Solver.Sized α] (h : Leads d steps e)
    (hundos : List.Forall₂ (fun s s' => s.inverse = .ok s') steps undos) :
    Leads e undos.reverse d := by
  -- The undo of the first step comes last.
  induction hundos generalizing d with
  | nil =>
    cases h
    exact .nil _
  | @cons s s' steps undos hs _ ih =>
    cases h with
    | cons hd hrest =>
      obtain ⟨hsource, htarget⟩ := Step.source_inverse hs
      rw [List.reverse_cons]
      exact (ih hrest).append (.cons hsource (htarget.trans hd ▸ .nil _))

end WellFormed

/-! ## Images -/

section Images

variable {α : Type} [Zero α] [One α] [Add α] [Mul α] [Sub α] [Div α] {a b c t : Transform α}
  {d e : Int} {steps : List (Step α)} {p : List α}

namespace WellFormed

omit [One α] [Sub α] in
/-- Images under `apply` have the dimension of the target. -/
theorem length_apply (ht : t.WellFormed) (hp : (p.length : Int) = t.source) :
    ((t.apply p).length : Int) = t.target :=
  ht.leads.length_foldl_apply ht.wellFormed_of_mem hp

omit [One α] [Sub α] in
/-- `transform` puts the image of a single point into a new array, for a foreign mapping as for any
    other transform. -/
theorem transform_ofList (ht : t.WellFormed) (hp : (p.length : Int) = t.source) :
    t.transform (.ofList p) .fresh = .ok ⟨.ofList (t.apply p), .ofList p⟩ :=
  Transform.transform_ofList ht.leads ht.wellFormed_of_mem hp

/-- `derivative` at a single point. -/
theorem derivative_ofList (ht : t.WellFormed) (hp : (p.length : Int) = t.source) :
    t.derivative (.ofList p) = .ok (t.jacobian p) :=
  Transform.derivative_ofList ht.leads ht.wellFormed_of_mem hp

/-- `transformAndDerivative` gives the image and the derivative in a single pass. -/
theorem transformAndDerivative_ofList (ht : t.WellFormed) (hp : (p.length : Int) = t.source) :
    t.transformAndDerivative (.ofList p) = .ok (.ofList (t.apply p), t.jacobian p) :=
  Transform.transformAndDerivative_ofList ht.leads ht.wellFormed_of_mem hp

end WellFormed

omit [One α] [Sub α] in
/-- `concatenate` applies the steps of its parts one after the other. -/
theorem apply_of_concatenate (h : a.concatenate b = .ok c) (p : List α) :
    c.apply p = b.apply (a.apply p) := by
  obtain ⟨-, rfl⟩ := concatenate_eq_ok_iff.mp h
  exact List.foldl_append

end Images

/-! ## Derivatives -/

section Derivatives

variable {K : Type} [Field K] {a b c t : Transform K} {d e : Int} {steps : List (Step K)}
  {p : List K} {reached : List K × Matrix K}

/-- The product of a walk has a row for each ordinate of the point that was reached. -/
theorem Leads.rows_foldl_advance (h : Leads d steps e) (hsteps : ∀ s ∈ steps, s.WellFormed)
    (hp : (reached.1.length : Int) = d) (hrows : (reached.2.rows : Int) = d) :
    ((steps.foldl advance reached).2.rows : Int) = e := by
  induction h generalizing reached with
  | nil d => exact hrows
  | cons hs _ ih =>
    have hfirst := hsteps _ List.mem_cons_self
    have hp' := hp.trans hs.symm
    exact ih (fun s hs => hsteps s (List.mem_cons_of_mem _ hs)) (Step.length_apply hfirst hp')
      (Step.rows_jacobian hfirst hp')

/-- A walk puts the derivatives of its steps in front of what it has started with, so a right factor
    at the start is the right factor at the end: `advance` commutes with it. -/
theorem foldl_advance_product (steps : List (Step K)) (p : List K) (m j : Matrix K) :
    steps.foldl advance (p, m.product j) =
      ((steps.foldl advance (p, m)).1, (steps.foldl advance (p, m)).2.product j) := by
  induction steps generalizing p m with
  | nil => rfl
  | cons s steps ih =>
    show steps.foldl advance (s.apply p, (s.jacobian p).product (m.product j)) = _
    rw [← Matrix.product_assoc, ih]
    rfl

namespace WellFormed

/-- What `applyWithJacobian` gives is where the walk along the steps ends, also if there is a single
    step. -/
theorem applyWithJacobian_eq_walk (ht : t.WellFormed) (hp : (p.length : Int) = t.source) :
    t.applyWithJacobian p = t.steps.foldl advance (p, .eye p.length p.length) := by
  -- A single step is not walked along, but a walk along it would only multiply by the identity.
  cases t with
  | chain steps =>
    have hlength : (chain steps).source.toNat = p.length := by omega
    rw [applyWithJacobian, hlength]
    rfl
  | step s =>
    have hcols : ((s.jacobian p).cols : Int) = p.length :=
      (Step.cols_jacobian (ht.wellFormed_of_mem s List.mem_cons_self) hp).trans hp.symm
    show (s.apply p, s.jacobian p) = (s.apply p, (s.jacobian p).product (.eye p.length p.length))
    rw [Matrix.product_eye (Int.ofNat_inj.mp hcols)]

/-- `jacobian` has a row for each ordinate of the image and a column for each one of the point. -/
theorem size_jacobian (ht : t.WellFormed) (hp : (p.length : Int) = t.source) :
    ((t.jacobian p).rows : Int) = t.target ∧ ((t.jacobian p).cols : Int) = t.source := by
  rw [jacobian, ht.applyWithJacobian_eq_walk hp, cols_foldl_advance]
  exact ⟨ht.leads.rows_foldl_advance ht.wellFormed_of_mem hp hp, hp⟩

/-- The chain rule: the derivative of a concatenation is the product of the derivatives of its parts, that
    of the second part taken at the image under the first. -/
theorem jacobian_of_concatenate (ha : a.WellFormed) (hb : b.WellFormed)
    (h : a.concatenate b = .ok c) (hp : (p.length : Int) = a.source) :
    c.jacobian p = (b.jacobian (a.apply p)).product (a.jacobian p) := by
  obtain ⟨hc, hsource, -⟩ := ha.concatenate hb h
  obtain ⟨hfit, rfl⟩ := concatenate_eq_ok_iff.mp h
  have himage : ((a.apply p).length : Int) = b.source := (ha.length_apply hp).trans hfit
  -- The walk along the first part ends at its image with its derivative.
  have hfirst : a.steps.foldl advance (p, .eye p.length p.length) = (a.apply p, a.jacobian p) := by
    rw [← ha.applyWithJacobian_eq_walk hp, ← fst_applyWithJacobian]
    rfl
  have hrows : (a.jacobian p).rows = (a.apply p).length := by
    have := (ha.size_jacobian hp).1
    have := ha.length_apply hp
    omega
  calc (chain (a.steps ++ b.steps)).jacobian p
      = (b.steps.foldl advance (a.apply p, a.jacobian p)).2 := by
        rw [jacobian, hc.applyWithJacobian_eq_walk (hp.trans hsource.symm), steps,
          List.foldl_append, hfirst]
    _ = (b.steps.foldl advance (a.apply p, (Matrix.eye (a.apply p).length
          (a.apply p).length).product (a.jacobian p))).2 := by rw [Matrix.eye_product hrows]
    _ = (b.jacobian (a.apply p)).product (a.jacobian p) := by
        rw [foldl_advance_product, ← hb.applyWithJacobian_eq_walk himage]
        rfl

end WellFormed

end Derivatives

/-! ## Composition -/

/-- Transforms that fit together are concatenated, and the concatenation takes every point where the second
    takes its image under the first, by the same operations on the same numbers. Over exact numbers its
    derivative is that of the second at the image times that of the first. -/
theorem concatenate_composes {α K : Type} [Zero α] [One α] [Add α] [Mul α] [Sub α] [Div α] [Field K] :
    (∀ a b : Transform α, a.WellFormed → b.WellFormed → a.target = b.source →
      ∃ c, a.concatenate b = .ok c ∧ ∀ p : List α, (p.length : Int) = a.source →
        ∃ q r, a.transform (.ofList p) .fresh = .ok ⟨.ofList q, .ofList p⟩ ∧
          b.transform (.ofList q) .fresh = .ok ⟨.ofList r, .ofList q⟩ ∧
          c.transform (.ofList p) .fresh = .ok ⟨.ofList r, .ofList p⟩) ∧
    (∀ a b c : Transform K, a.WellFormed → b.WellFormed → a.concatenate b = .ok c →
      ∀ p : List K, (p.length : Int) = a.source →
        ∃ q first second product,
          a.transform (.ofList p) .fresh = .ok ⟨.ofList q, .ofList p⟩ ∧
          a.derivative (.ofList p) = .ok first ∧ b.derivative (.ofList q) = .ok second ∧
          second.multiply first = .ok product ∧ c.derivative (.ofList p) = .ok product) := by
  constructor
  · intro a b ha hb hfit
    have hc := concatenate_eq_ok_iff.mpr ⟨hfit, rfl⟩
    obtain ⟨hwellFormed, hsource, -⟩ := ha.concatenate hb hc
    refine ⟨_, hc, fun p hp => ⟨a.apply p, b.apply (a.apply p), ha.transform_ofList hp,
      hb.transform_ofList ((ha.length_apply hp).trans hfit), ?_⟩⟩
    rw [hwellFormed.transform_ofList (hp.trans hsource.symm), apply_of_concatenate hc]
  · intro a b c ha hb hc p hp
    obtain ⟨hwellFormed, hsource, -⟩ := ha.concatenate hb hc
    obtain ⟨hfit, -⟩ := concatenate_eq_ok_iff.mp hc
    have himage : ((a.apply p).length : Int) = b.source := (ha.length_apply hp).trans hfit
    -- `Matrix.multiply` checks the sizes, and those of the two derivatives fit.
    have hsizes : (b.jacobian (a.apply p)).cols = (a.jacobian p).rows := by
      have := (ha.size_jacobian hp).1
      have := (hb.size_jacobian himage).2
      omega
    refine ⟨a.apply p, a.jacobian p, b.jacobian (a.apply p), _, ha.transform_ofList hp,
      ha.derivative_ofList hp, hb.derivative_ofList himage, if_pos hsizes, ?_⟩
    rw [hwellFormed.derivative_ofList (hp.trans hsource.symm), ha.jacobian_of_concatenate hb hc hp]

/-- `Mapping.squaring` keeps what it promises. -/
theorem wellFormed_squaring (name : String) (mark : Mark) : (Mapping.squaring name mark).WellFormed where
  length_map p hp := by simpa [Mapping.squaring] using hp
  rows_jacobian _ _ := rfl
  cols_jacobian _ _ := rfl

/-- A scaling before squaring: with doubles a foreign mapping, and with exact numbers a scaling that follows
    on both, so that the steps of a chain are taken over. -/
theorem concatenate_composes_squaring :
    (∃ c q r, (step (.linear (.scaleOffset 2.0 1.0))).concatenate (foreignSquaring (.made 0)) = .ok c ∧
      (step (.linear (.scaleOffset (2.0 : Double) 1.0))).transform (.ofList [3.0]) .fresh =
        .ok ⟨.ofList q, .ofList [3.0]⟩ ∧
      (foreignSquaring (.made 0)).transform (.ofList q) .fresh = .ok ⟨.ofList r, .ofList q⟩ ∧
      c.transform (.ofList [3.0]) .fresh = .ok ⟨.ofList r, .ofList [3.0]⟩) ∧
    (∃ (square : Mapping ℚ) (ab abc : Transform ℚ) (q : List ℚ) (first second product : Matrix ℚ),
      (step (.linear (.scaleOffset 2 1))).concatenate (step (.foreign square)) = .ok ab ∧
      ab.concatenate (step (.linear (.scaleOffset 3 0))) = .ok abc ∧
      ab.transform (.ofList [1]) .fresh = .ok ⟨.ofList q, .ofList [1]⟩ ∧
      ab.derivative (.ofList [1]) = .ok first ∧
      (step (.linear (.scaleOffset 3 0))).derivative (.ofList q) = .ok second ∧
      second.multiply first = .ok product ∧ abc.derivative (.ofList [1]) = .ok product) := by
  constructor
  · have hscale : (step (.linear (.scaleOffset 2.0 1.0)) : Transform Double).WellFormed :=
      Joined.wellFormed (.step trivial)
    have hsquare : (foreignSquaring (.made 0)).WellFormed :=
      Joined.wellFormed (.step (wellFormed_squaring _ _))
    obtain ⟨c, hc, hpoint⟩ := (concatenate_composes (K := ℚ)).1 _ _ hscale hsquare rfl
    obtain ⟨q, r, hq, hr, hc'⟩ := hpoint [3.0] rfl
    exact ⟨c, q, r, hc, hq, hr, hc'⟩
  · -- Over the rational numbers the square has a derivative that can be computed.
    let square : Mapping ℚ :=
      ⟨"Square", .made 0, 1, 1, fun p => p.map fun x => x * x, fun p => .ofRows 1 1 [[2 * p.getD 0 0]]⟩
    have hsquare : (Step.foreign square).WellFormed :=
      ⟨fun p hp => by simpa [square] using hp, fun _ _ => rfl, fun _ _ => rfl⟩
    have hscale (scale offset : ℚ) : (step (.linear (.scaleOffset scale offset))).WellFormed :=
      Joined.wellFormed (.step trivial)
    have hab := concatenate_eq_ok_iff (a := step (.linear (.scaleOffset (2 : ℚ) 1)))
      (b := step (.foreign square)).mpr ⟨rfl, rfl⟩
    obtain ⟨hjoined, -⟩ := (hscale 2 1).concatenate (Joined.wellFormed (.step hsquare)) hab
    have habc := concatenate_eq_ok_iff (a := chain [.linear (.scaleOffset (2 : ℚ) 1), .foreign square])
      (b := step (.linear (.scaleOffset 3 0))).mpr ⟨rfl, rfl⟩
    obtain ⟨q, first, second, product, h⟩ :=
      (concatenate_composes (α := ℚ)).2 _ _ _ hjoined (hscale 3 0) habc [1] rfl
    exact ⟨square, _, _, q, first, second, product, hab, habc, h⟩

end Transform

end Georef

import Georef.Proofs.Matrix.Positive
import Georef.Proofs.Tensor.Repeating
import Georef.Proofs.Transform.Chain
import Georef.Proofs.Transform.Writing

/-!
# Transforming points

What `Transform.transform` and `Transform.derivative` answer for points of the right dimension is said here
in terms of `Transform.apply` and `Transform.jacobian`, which know nothing of arrays and shapes; all laws of
transforms are proved about these two. A chain keeps the images under its steps in arrays of its own, and
only the last of them is written to the destination. A walk along a chain checks each point that it reaches
and each product that it forms; where the steps fit together, no check fails.

## Key results

- `Step.transform_fresh`: the images under a single step, foreign or not
- `Leads.call_fillAlong`: a chain writes the images under all its steps
- `writes_of_writer?`: what a transform writes, if it is not foreign
- `transform_ofList`: the image of a single point
- `Leads.foldlM_stepForward`: a checked walk never fails and ends where `advance` leads
- `transformAndDerivative_ofList`, `derivative_ofList`: the derivative at a single point
-/

namespace Georef

namespace Tensor

variable {α : Type} {t : Tensor α}

/-- Seen as a table, an array has the rows it had. -/
@[simp] theorem rowList_asTable (t : Tensor α) : t.asTable.rowList = t.rowList := by
  simp [rowList, rowCount, width, asTable, shapeSize]

/-- A function of the elements can be mapped row by row. -/
theorem row_map {β : Type} (f : α → β) (t : Tensor α) (i : Nat) : (t.map f).row i = (t.row i).map f := by
  simp [row, map, width, List.map_take, List.map_drop]

end Tensor

/-! ## Single steps -/

section Steps

variable {α : Type} [Zero α] {points : Tensor α} {count : Nat}

/-- `Mapping.mapArray` takes an array of points to the array of their images, also if it takes the
    numbers of the array one by one. -/
theorem Mapping.mapArray_eq {m : Mapping α} (hm : m.WellFormed)
    (hpoints : pointCount? m.source points.shape = some count) :
    m.mapArray points =
      .ofRowList (points.shape.dropLast ++ [m.target.toNat]) (points.rowList.map m.map) := by
  unfold mapArray
  by_cases hline : m.isUnivariate = true
  · rw [if_pos hline]
    rw [isUnivariate, Bool.and_eq_true, beq_iff_eq, beq_iff_eq] at hline
    obtain ⟨hsource, htarget⟩ := hline
    -- Points of the line are single numbers, so mapping the numbers is mapping the rows.
    have hwidth : points.width = 1 := by
      have := (size_of_pointCount? hpoints).2
      omega
    have hshape : points.shape.dropLast ++ [m.target.toNat] = points.shape := by
      obtain ⟨d, hd, hshape | ⟨hshape, -⟩⟩ := pointCount?_eq_some_iff.mp hpoints
      all_goals
        have hd : d = 1 := by omega
        simp [hshape, hd, htarget]
    rw [hshape]
    refine Tensor.ext_row rfl fun i (hi : i < points.rowCount) => ?_
    obtain ⟨x, hx⟩ := List.length_eq_one_iff.mp ((Tensor.length_row hi).trans hwidth)
    have himage := hm.length_map [x] (by rw [hsource]; rfl)
    obtain ⟨y, hy⟩ := List.length_eq_one_iff.mp (show (m.map [x]).length = 1 by omega)
    have hget : (points.rowList.map m.map).getD i [] = [y] := by
      simp [hi, Tensor.getElem_rowList, hx, hy]
    have hlast : [y].length = points.shape.getLastD 1 := hwidth.symm
    rw [Tensor.row_map, Tensor.row_ofRowList hi (hget ▸ hlast), hget, hx]
    simp [hy]
  · rw [if_neg hline]

variable [Add α] [Mul α] [Div α] {s : Step α}

/-- Where there are points there are images, so the target has a dimension. -/
theorem Step.target_nonneg (hs : s.WellFormed) (hsource : 0 ≤ s.source) : 0 ≤ s.target := by
  have := Step.length_apply hs (p := List.replicate s.source.toNat 0) (by simp [hsource])
  omega

/-- `Step.transform` puts the images into a new array. -/
theorem Step.transform_fresh (hs : s.WellFormed)
    (hpoints : pointCount? s.source points.shape = some count) :
    s.transform points .fresh = .ok
      ⟨.ofRowList (points.shape.dropLast ++ [s.target.toNat]) (points.rowList.map s.apply), points⟩ := by
  cases s with
  | linear t => exact (LinearTransform.writes hs).transform_fresh hpoints
  | managed m => exact (Mapping.writes hs).transform_fresh hpoints
  | foreign m => exact congrArg (fun t => Except.ok (Images.mk t points)) (Mapping.mapArray_eq hs hpoints)

end Steps

namespace Transform

variable {α : Type} [Zero α] [Add α] [Mul α] [Div α]

/-! ## Chains -/

section Chains

variable {steps : List (Step α)} {d e : Int} {a : Arrays α}

/-- The images along a chain have the dimension that the chain `Leads` to. -/
theorem Leads.length_foldl_apply (h : Leads d steps e) (hsteps : ∀ s ∈ steps, s.WellFormed) {p : List α}
    (hp : (p.length : Int) = d) :
    ((steps.foldl (fun x s => s.apply x) p).length : Int) = e := by
  induction h generalizing p with
  | nil d => exact hp
  | cons hs _ ih =>
    have hfirst := Step.length_apply (hsteps _ List.mem_cons_self) (hp.trans hs.symm)
    exact ih (fun s hs => hsteps s (List.mem_cons_of_mem _ hs)) hfirst

/-- Along a chain the images under each step are the points of the next one. They are all in new
    arrays, so the arrays of the call are what they were. -/
theorem Leads.call_foldlM_transform (h : Leads d steps e) (hsteps : ∀ s ∈ steps, s.WellFormed)
    (points : Tensor α) {count : Nat} (hd : 0 ≤ d) (hshape : points.shape = [count, d.toNat])
    (a : Arrays α) :
    Action.call (steps.foldlM
      (fun current s => return (← s.transform current .fresh).result) points) a =
      (.ok (.ofRowList [count, e.toNat]
        (points.rowList.map fun p => steps.foldl (fun x s => s.apply x) p)), a) := by
  induction h generalizing points with
  | nil d =>
    have hrows : points.rowList.map (fun p => p) = points.rowList := List.map_id _
    simp only [List.foldlM_nil, Action.call_pure, List.foldl_nil, hrows, ← hshape,
      Tensor.ofRowList_rowList]
  | @cons d e s rest hs _ ih =>
    have hwell := hsteps s List.mem_cons_self
    have hpoints : pointCount? s.source points.shape = some count :=
      pointCount?_eq_some_iff.mpr ⟨d.toNat, by omega, .inl hshape⟩
    have hwidth : (points.width : Int) = s.source := (size_of_pointCount? hpoints).2
    have htarget : 0 ≤ s.target := Step.target_nonneg hwell (hs ▸ hd)
    -- The new array has the images as its rows.
    have hrows : (Tensor.ofRowList [count, s.target.toNat] (points.rowList.map s.apply)).rowList =
        points.rowList.map s.apply := by
      refine Tensor.rowList_ofRowList ?_ fun row hrow => ?_
      · simp [(size_of_pointCount? hpoints).1, shapeSize]
      · obtain ⟨p, hp, rfl⟩ := List.mem_map.mp hrow
        have := Step.length_apply hwell (p := p) (by rw [Tensor.length_of_mem_rowList hp, hwidth])
        simp only [List.getLastD_cons, List.getLastD_nil]
        omega
    have hdrop : points.shape.dropLast ++ [s.target.toNat] = [count, s.target.toNat] := by simp [hshape]
    have hrest := ih (fun s hs => hsteps s (List.mem_cons_of_mem _ hs))
      (.ofRowList [count, s.target.toNat] (points.rowList.map s.apply)) htarget rfl
    simp only [List.foldlM_cons, Action.call_bind, Action.call_lift, Action.call_pure,
      Step.transform_fresh hwell hpoints, hdrop, hrest, hrows, List.map_map, List.foldl_cons,
      Function.comp_def]

/-- `fillAlong` writes the images under all steps of a chain. -/
theorem Leads.call_fillAlong (h : Leads d steps e) (hsteps : ∀ s ∈ steps, s.WellFormed)
    (hfit : a.Fit d e) :
    (fillAlong steps).call a =
      (.ok (), a.withImages fun p => steps.foldl (fun x s => s.apply x) p) := by
  have hlength (p : List α) (hp : (p.length : Int) = d) := h.length_foldl_apply hsteps hp
  have hsource := hfit.width_points
  have htarget := hfit.width_target
  -- The table of images has the shape that the destination has as a table, so the copy is not
  -- spread.
  have hshape : a.target.asTable.shape = [a.points.rowCount, e.toNat] := by
    show [a.target.rowCount, a.target.width] = _
    rw [hfit.rowCount_target, ← htarget, Int.toNat_natCast]
  have himages := h.call_foldlM_transform hsteps a.points.asTable (by omega)
    (show _ = [a.points.rowCount, d.toNat] by rw [← hsource, Int.toNat_natCast]; rfl) a
  have hrows : (Tensor.ofRowList [a.points.rowCount, e.toNat] (a.points.rowList.map fun p =>
      steps.foldl (fun x s => s.apply x) p)).rowList =
      a.points.rowList.map fun p => steps.foldl (fun x s => s.apply x) p := by
    refine Tensor.rowList_ofRowList (by simp [shapeSize]) fun row hrow => ?_
    obtain ⟨p, hp, rfl⟩ := List.mem_map.mp hrow
    have := hlength p (hfit.length_of_mem hp)
    simp only [List.getLastD_cons, List.getLastD_nil]
    omega
  have hcopy := Tensor.broadcast_self (.ofRowList [a.points.rowCount, e.toNat]
    (a.points.rowList.map fun p => steps.foldl (fun x s => s.apply x) p))
  rw [Tensor.shape_ofRowList] at hcopy
  simp only [fillAlong, Action.call_bind, Action.call_get, himages, Tensor.rowList_asTable, hshape,
    hcopy, Action.call_lift, hrows, hfit.putRows_eq hlength, Action.call_set]

end Chains

variable {t : Transform α} {w : ImageWriter α} {p : List α}

/-! ## Whole transforms -/

/-- `writer?` finds how to check the arrays and write the images for everything but a foreign
    mapping. -/
theorem exists_writer? (hmanaged : t.isManaged = true) : ∃ w, t.writer? = some w := by
  cases t with
  | chain steps => exact ⟨_, rfl⟩
  | step s =>
    cases s with
    | linear l => exact ⟨_, rfl⟩
    | managed m => exact ⟨_, rfl⟩
    | foreign m => cases hmanaged

/-- What has a `writer?` transforms as the writer does. -/
theorem transform_eq_of_writer? (hw : t.writer? = some w) : t.transform = w.transform := by
  cases t with
  | chain steps =>
    cases hw
    rfl
  | step s =>
    cases s <;> cases hw <;> rfl

/-- What a transform writes are its images, those of `apply`. -/
theorem writes_of_writer? (hw : t.writer? = some w) (hleads : Leads t.source t.steps t.target)
    (hsteps : ∀ s ∈ t.steps, s.WellFormed) :
    w.Writes t.apply ∧ w.source = t.source ∧ w.target = t.target := by
  -- A writer goes along all steps, or over the points of a single one.
  cases t with
  | chain steps =>
    cases hw
    exact ⟨⟨fun p hp => hleads.length_foldl_apply hsteps hp,
      fun a hfit => hleads.call_fillAlong hsteps hfit⟩, rfl, rfl⟩
  | step s =>
    have hs := hsteps s List.mem_cons_self
    cases s with
    | foreign m => cases hw
    | linear l =>
      cases hw
      exact ⟨LinearTransform.writes hs, rfl, rfl⟩
    | managed m =>
      cases hw
      exact ⟨Mapping.writes hs, rfl, rfl⟩

/-- `transform` puts the image of a single point into a new array, for a foreign mapping as for any
    other transform. -/
theorem transform_ofList (hleads : Leads t.source t.steps t.target)
    (hsteps : ∀ s ∈ t.steps, s.WellFormed) (hp : (p.length : Int) = t.source) :
    t.transform (.ofList p) .fresh = .ok ⟨.ofList (t.apply p), .ofList p⟩ := by
  have hpoint : pointCount? t.source (Tensor.ofList p).shape = some 1 :=
    pointCount?_eq_some_iff.mpr ⟨p.length, hp, .inr ⟨rfl, rfl⟩⟩
  have himage : ((t.apply p).length : Int) = t.target := hleads.length_foldl_apply hsteps hp
  have hfresh : t.transform (.ofList p) .fresh =
      .ok ⟨.ofRowList ((Tensor.ofList p).shape.dropLast ++ [t.target.toNat])
        ((Tensor.ofList p).rowList.map t.apply), .ofList p⟩ := by
    -- A transform from elsewhere maps the points by itself and needs no writer.
    cases hmanaged : t.isManaged with
    | true =>
      obtain ⟨w, hw⟩ := exists_writer? hmanaged
      obtain ⟨hwrites, hsource, htarget⟩ := writes_of_writer? hw hleads hsteps
      rw [transform_eq_of_writer? hw, ← htarget]
      exact hwrites.transform_fresh (hsource ▸ hpoint)
    | false =>
      cases t with
      | chain steps => cases hmanaged
      | step s => exact Step.transform_fresh (hsteps s List.mem_cons_self) hpoint
  rw [hfresh, ← himage, Int.toNat_natCast]
  simp

end Transform

/-! ## Derivatives -/

section Derivatives

variable {α : Type} [Zero α] [One α] [Add α] [Mul α] [Sub α] [Div α] {p : List α}

omit [Zero α] [One α] [Add α] [Mul α] [Sub α] [Div α] in
/-- `checkPoint` accepts the points of the right dimension. -/
theorem checkPoint_ofList {dimension : Int} (hp : (p.length : Int) = dimension) :
    checkPoint dimension (.ofList p) = .ok () := by
  simp only [checkPoint, Tensor.shape_ofList, if_pos hp]

omit [One α] [Add α] [Mul α] [Sub α] [Div α] in
/-- `Mapping.slopes` gives the derivative of a foreign mapping as an array, also if the mapping is one of the
line and takes just the first number of the point. -/
theorem Mapping.operand_slopes {m : Mapping α} (hm : m.WellFormed) (hp : (p.length : Int) = m.source) :
    (do Matrix.operand (← m.slopes (.ofList p))) = .ok (m.jacobian p) := by
  unfold slopes
  by_cases hline : m.isUnivariate = true
  · rw [if_pos hline]
    rw [isUnivariate, Bool.and_eq_true, beq_iff_eq, beq_iff_eq] at hline
    obtain ⟨hsource, htarget⟩ := hline
    obtain ⟨x, rfl⟩ := List.length_eq_one_iff.mp (show p.length = 1 by omega)
    have hrows := hm.rows_jacobian [x] hp
    have hcols := hm.cols_jacobian [x] hp
    -- The number taken as an array of one row and one column has that number for its only entry.
    refine congrArg Except.ok (Matrix.ext_entry ?_ ?_ fun i j hi hj => ?_)
    · show 1 = _
      omega
    · show 1 = _
      omega
    · obtain rfl : i = 0 := Nat.lt_one_iff.mp hi
      obtain rfl : j = 0 := Nat.lt_one_iff.mp hj
      rfl
  · rw [if_neg hline]
    show Matrix.operand (m.jacobian (Tensor.ofList p).elements).toTensor = _
    rw [Matrix.operand, Matrix.ofTensor?_toTensor, Tensor.elements_ofList]

namespace Step

variable {s : Step α}

/-- `Step.derivative` at a single point, whether the step checks the point or not. -/
theorem derivative_ofList (hs : s.WellFormed) (hp : (p.length : Int) = s.source) :
    s.derivative (.ofList p) = .ok (s.jacobian p) := by
  have hchecked : (do checkPoint s.source (.ofList p); return s.jacobian (Tensor.ofList p).elements) =
      Except.ok (s.jacobian p) := by
    rw [checkPoint_ofList hp, Tensor.elements_ofList]
    rfl
  cases s with
  | foreign m => exact Mapping.operand_slopes hs hp
  | linear t => exact hchecked
  | managed m => exact hchecked

omit [One α] [Sub α] in
/-- `Step.transform` puts the image of a single point into a new array. -/
theorem transform_ofList (hs : s.WellFormed) (hp : (p.length : Int) = s.source) :
    s.transform (.ofList p) .fresh = .ok ⟨.ofList (s.apply p), .ofList p⟩ :=
  Transform.transform_ofList (t := .step s) (.cons rfl (.nil _))
    (fun _ h => List.mem_singleton.mp h ▸ hs) hp

/-- A step answers a point of its source with the image and the derivative. -/
theorem transformAndDerivative_ofList (hs : s.WellFormed) (hp : (p.length : Int) = s.source) :
    s.transformAndDerivative (.ofList p) = .ok (.ofList (s.apply p), s.jacobian p) := by
  rw [transformAndDerivative, derivative_ofList hs hp, transform_ofList hs hp]
  rfl

end Step

namespace Transform

variable {steps : List (Step α)} {d e : Int} {reached : List α × Matrix α} {t : Transform α}

/-- One checked step of a walk, `stepForward`, is one step of `advance`: the point is one of the
    source, and the derivative fits the product so far. -/
theorem stepForward_ofList {s : Step α} (hs : s.WellFormed) (hp : (reached.1.length : Int) = s.source)
    (hrows : reached.2.rows = reached.1.length) :
    stepForward (.ofList reached.1, reached.2) s =
      .ok (.ofList (advance reached s).1, (advance reached s).2) := by
  have hcols := Step.cols_jacobian hs hp
  have hfit : (s.jacobian reached.1).cols = reached.2.rows := by omega
  rw [stepForward, Step.transformAndDerivative_ofList hs hp]
  show (do return (_, ← (s.jacobian reached.1).arrayProduct reached.2)) = _
  rw [Matrix.arrayProduct, if_pos hfit]
  rfl

/-- The checked walk along steps that fit together never fails, and it ends where `advance` leads. -/
theorem Leads.foldlM_stepForward (h : Leads d steps e) (hsteps : ∀ s ∈ steps, s.WellFormed)
    (reached : List α × Matrix α) (hp : (reached.1.length : Int) = d) (hrows : reached.2.rows = reached.1.length) :
    steps.foldlM stepForward (.ofList reached.1, reached.2) =
      .ok (.ofList (steps.foldl advance reached).1, (steps.foldl advance reached).2) := by
  induction h generalizing reached with
  | nil d => rfl
  | @cons d e s rest hs _ ih =>
    have hfirst := hsteps s List.mem_cons_self
    have hp' := hp.trans hs.symm
    have hlength := Step.length_apply hfirst hp'
    have hrows' := Step.rows_jacobian hfirst hp'
    rw [List.foldlM_cons, stepForward_ofList hfirst hp' hrows]
    refine ih (fun s hs => hsteps s (List.mem_cons_of_mem _ hs)) _ hlength ?_
    show (s.jacobian reached.1).rows = (s.apply reached.1).length
    omega

/-- `transformAndDerivative` answers every point of the source, with the image that `apply` and the derivative
that `jacobian` says. -/
theorem transformAndDerivative_ofList (hleads : Leads t.source t.steps t.target)
    (hsteps : ∀ s ∈ t.steps, s.WellFormed) (hp : (p.length : Int) = t.source) :
    t.transformAndDerivative (.ofList p) = .ok (.ofList (t.apply p), t.jacobian p) := by
  cases t with
  | step s => exact Step.transformAndDerivative_ofList (hsteps s List.mem_cons_self) hp
  | chain steps =>
    have hlength : (chain steps).source.toNat = p.length := by omega
    have hwalk := hleads.foldlM_stepForward hsteps (p, .eye p.length p.length) hp rfl
    rw [transformAndDerivative, checkPoint_ofList hp, hlength]
    refine hwalk.trans ?_
    rw [← fst_applyWithJacobian, jacobian, applyWithJacobian, hlength]
    rfl

/-- `derivative` answers every point of the source with what `jacobian` says. -/
theorem derivative_ofList (hleads : Leads t.source t.steps t.target)
    (hsteps : ∀ s ∈ t.steps, s.WellFormed) (hp : (p.length : Int) = t.source) :
    t.derivative (.ofList p) = .ok (t.jacobian p) := by
  cases t with
  | step s => exact Step.derivative_ofList (hsteps s List.mem_cons_self) hp
  | chain steps =>
    rw [derivative, transformAndDerivative_ofList hleads hsteps hp]
    rfl

end Transform

end Derivatives

end Georef

import Georef.Proofs.Transform.Composition

/-!
# Where images are put

A transform can be asked for its images in four ways: for one point or for many, in a new array, in a given
one or over the points, and for the image of a point together with the derivative there. All of them give
the same numbers. A destination has the shape of the images; a transform rejects any other one before it
writes anything, but together with a derivative an image is written to any destination in which it can be
repeated.

## Key results

- `transform_agrees`: images do not depend on how they are asked for
- `call_writeWithDerivative`: what is written together with a derivative
- `destination_of_other_shape`: what becomes of a destination that has not the shape of the images
-/

namespace Georef

namespace Transform

variable {α : Type} [Zero α] [One α] [Add α] [Mul α] [Sub α] [Div α] {t : Transform α} {p : List α}
  {points d : Tensor α} {count : Nat}

/-- `writeWithDerivative` of everything but a foreign mapping gives the image and the derivative in
    a single pass, before anything is written. -/
theorem writeWithDerivative_eq (hmanaged : t.isManaged = true) :
    t.writeWithDerivative = (do
      let a ← get
      let pass ← t.transformAndDerivative a.points
      let filled ← pass.1.broadcast a.target.shape
      set (a.withTarget filled)
      return pass.2) := by
  cases t with
  | chain steps => rfl
  | step s =>
    cases s with
    | linear l => rfl
    | managed m => rfl
    | foreign m => cases hmanaged

namespace WellFormed

/-- `writeWithDerivative` writes the image wherever it `Stretches` to, and nowhere else. -/
theorem call_writeWithDerivative (ht : t.WellFormed) (hmanaged : t.isManaged = true)
    (hp : (p.length : Int) = t.source) {a : Arrays α} (ha : a.points = .ofList p) :
    t.writeWithDerivative.call a =
      if Tensor.Stretches t.target.toNat a.target.shape then
        (.ok (t.jacobian p), a.withTarget (.everyRow a.target.shape (t.apply p)))
      else (.error .unusable, a) := by
  have hpass := ht.transformAndDerivative_ofList hp
  have hlength : (t.apply p).length = t.target.toNat := by
    have := ht.length_apply hp
    omega
  rw [writeWithDerivative_eq hmanaged]
  simp only [Action.call_bind, Action.call_get, ha, hpass, Action.call_lift,
    Tensor.broadcast_ofList, hlength]
  by_cases hstretches : Tensor.Stretches t.target.toNat a.target.shape
  · simp only [if_pos hstretches, Action.call_set, Action.call_pure]
  · simp only [if_neg hstretches]

/-- A destination for a single image takes it as it is: `everyRow` has just one row to write. -/
theorem call_writeWithDerivative_of_shape (ht : t.WellFormed) (hmanaged : t.isManaged = true)
    (hp : (p.length : Int) = t.source) {a : Arrays α} (ha : a.points = .ofList p)
    (hshape : pointCount? t.target a.target.shape = some 1) :
    t.writeWithDerivative.call a =
      (.ok (t.jacobian p), a.withTarget (.ofRowList a.target.shape [t.apply p])) := by
  obtain ⟨hcount, hwidth⟩ := size_of_pointCount? hshape
  have himage := ht.length_apply hp
  have hstretches : Tensor.Stretches t.target.toNat a.target.shape := by
    refine .inr ?_
    show t.target.toNat = a.target.width
    omega
  -- The destination has a single row, so every row is that one.
  have hrow : Tensor.everyRow a.target.shape (t.apply p) =
      .ofRowList a.target.shape [t.apply p] := by
    have hone : shapeSize a.target.shape.dropLast = 1 := hcount
    have hlength : (t.apply p).length = a.target.shape.getLastD 1 := by
      show _ = a.target.width
      omega
    simp [Tensor.everyRow, Tensor.stretch, hone, hlength]
  rw [ht.call_writeWithDerivative hmanaged hp ha, if_pos hstretches, hrow]

omit [One α] [Sub α] in
/-- Row by row, `transform` takes many points where it takes each of them alone. -/
theorem transform_table (ht : t.WellFormed) (hmanaged : t.isManaged = true) {n m : Nat}
    (hpoints : points.shape = [n, m]) (hm : (m : Int) = t.source) :
    ∃ images, t.transform points .fresh = .ok ⟨images, points⟩ ∧
      images.shape = [n, t.target.toNat] ∧
      ∀ i < n, t.transform (.ofList (points.row i)) .fresh =
        .ok ⟨.ofList (images.row i), .ofList (points.row i)⟩ := by
  obtain ⟨w, hw⟩ := exists_writer? hmanaged
  obtain ⟨hwrites, hsource, htarget⟩ := writes_of_writer? hw ht.leads ht.wellFormed_of_mem
  have hcount : pointCount? w.source points.shape = some n :=
    pointCount?_eq_some_iff.mpr ⟨m, hm.trans hsource.symm, .inl hpoints⟩
  have hshape : points.shape.dropLast ++ [w.target.toNat] = [n, t.target.toNat] := by
    simp [hpoints, htarget]
  have hfresh := hwrites.transform_fresh hcount
  rw [hshape] at hfresh
  refine ⟨_, transform_eq_of_writer? hw ▸ hfresh, rfl, fun i hi => ?_⟩
  have hi' : i < points.rowCount := by rwa [(size_of_pointCount? hcount).1]
  have hp : ((points.row i).length : Int) = t.source := by
    rw [Tensor.length_row hi', (size_of_pointCount? hcount).2, hsource]
  -- Row `i` of the new array is the image of row `i`.
  have hget : (points.rowList.map t.apply).getD i [] = t.apply (points.row i) := by
    simp [hi', Tensor.getElem_rowList]
  have himage : (t.apply (points.row i)).length = [n, t.target.toNat].getLastD 1 := by
    have := ht.length_apply hp
    simp only [List.getLastD_cons, List.getLastD_nil]
    omega
  rw [ht.transform_ofList hp, Tensor.row_ofRowList (by simpa [shapeSize] using hi) (hget ▸ himage), hget]

omit [One α] [Sub α] in
/-- `transform` fills a destination with what a new array would hold, also if it holds the points. -/
theorem transform_destination (ht : t.WellFormed) (hmanaged : t.isManaged = true)
    (hpoints : pointCount? t.source points.shape = some count) :
    ∃ images, t.transform points .fresh = .ok ⟨images, points⟩ ∧
      (∀ d : Tensor α, pointCount? t.target d.shape = some count →
        ∃ filled, t.transform points (.array d) = .ok ⟨filled, points⟩ ∧
          filled.shape = d.shape ∧ filled.elements = images.elements) ∧
      (pointCount? t.target points.shape = some count →
        ∃ filled, t.transform points .inPlace = .ok ⟨filled, filled⟩ ∧
          filled.shape = points.shape ∧ filled.elements = images.elements) := by
  obtain ⟨w, hw⟩ := exists_writer? hmanaged
  obtain ⟨hwrites, hsource, htarget⟩ := writes_of_writer? hw ht.leads ht.wellFormed_of_mem
  rw [transform_eq_of_writer? hw, ← htarget]
  rw [← hsource] at hpoints
  have hnew := pointCount?_dropLast_append (hwrites.target_nonneg hpoints) hpoints
  -- Whatever shape the images are given, their numbers come in one order.
  have hsame {shape : List Nat} (hshape : pointCount? w.target shape = some count) :
      (Tensor.ofRowList shape (points.rowList.map t.apply)).elements =
        (Tensor.ofRowList (points.shape.dropLast ++ [w.target.toNat])
          (points.rowList.map t.apply)).elements := by
    rw [hwrites.elements_images hpoints hshape, hwrites.elements_images hpoints hnew]
  exact ⟨_, hwrites.transform_fresh hpoints,
    fun d hd => ⟨_, hwrites.transform_array hpoints hd, rfl, hsame hd⟩,
    fun hd => ⟨_, hwrites.transform_inPlace hpoints hd, rfl, hsame hd⟩⟩

/-- The derivative of `derivativeAndTransform` is that at the point as it was before its image was
    put anywhere. -/
theorem derivativeAndTransform_ofList (ht : t.WellFormed) (hmanaged : t.isManaged = true)
    (hp : (p.length : Int) = t.source) :
    t.derivativeAndTransform (.ofList p) .fresh =
        .ok ⟨t.jacobian p, .ofList (t.apply p), .ofList p⟩ ∧
      (∀ d : Tensor α, pointCount? t.target d.shape = some 1 →
        ∃ filled, t.derivativeAndTransform (.ofList p) (.array d) =
            .ok ⟨t.jacobian p, filled, .ofList p⟩ ∧
          filled.shape = d.shape ∧ filled.elements = t.apply p) ∧
      (t.target = t.source →
        t.derivativeAndTransform (.ofList p) .inPlace =
          .ok ⟨t.jacobian p, .ofList (t.apply p), .ofList (t.apply p)⟩) := by
  have himage := ht.length_apply hp
  refine ⟨?_, fun d hd => ?_, fun hsquare => ?_⟩
  · -- A new array is filled by the pass over all steps.
    have hpass := ht.transformAndDerivative_ofList hp
    cases t with
    | chain steps =>
      simp only [derivativeAndTransform, hpass]
      rfl
    | step s =>
      cases s with
      | foreign m => cases hmanaged
      | linear l =>
        simp only [derivativeAndTransform, hpass]
        rfl
      | managed m =>
        simp only [derivativeAndTransform, hpass]
        rfl
  · refine ⟨.ofRowList d.shape [t.apply p], ?_, rfl, ?_⟩
    · have hcall := ht.call_writeWithDerivative_of_shape hmanaged hp (a := ⟨.ofList p, some d⟩) rfl hd
      simp only [derivativeAndTransform, hcall]
      rfl
    · obtain ⟨hcount, hwidth⟩ := size_of_pointCount? hd
      have hone : [t.apply p].length = shapeSize d.shape.dropLast := hcount.symm
      rw [Tensor.elements_ofRowList hone fun row hrow => ?_]
      · simp
      · rw [List.mem_singleton.mp hrow]
        show _ = d.width
        omega
  · -- The array that is read has the shape that is written.
    have hshape : pointCount? t.target (Tensor.ofList p).shape = some 1 :=
      pointCount?_eq_some_iff.mpr ⟨p.length, hp.trans hsquare.symm, .inr ⟨rfl, rfl⟩⟩
    have hcall := ht.call_writeWithDerivative_of_shape hmanaged hp (a := ⟨.ofList p, none⟩) rfl hshape
    have hover : Tensor.ofRowList (Tensor.ofList p).shape [t.apply p] = .ofList (t.apply p) := by
      have hlength : (t.apply p).length = p.length := by omega
      rw [Tensor.shape_ofList, ← hlength, Tensor.ofRowList_singleton]
    simp only [derivativeAndTransform, hcall]
    rw [show (Arrays.mk (Tensor.ofList p) none).target = .ofList p from rfl, hover]
    rfl

end WellFormed

/-! ## One result for all calls -/

/-- Row by row, the images of many points are those of each point alone; a point has the same image and the
derivative the same entries if both are asked for at once; a destination is filled with the images that would
be put into a new array, also if it holds the points; and together with the image, the derivative is that at
the point as it was before its image was put in its place. -/
theorem transform_agrees (ht : t.WellFormed) (hmanaged : t.isManaged = true) :
    (∀ (points : Tensor α) (n m : Nat), points.shape = [n, m] → (m : Int) = t.source →
      ∃ images, t.transform points .fresh = .ok ⟨images, points⟩ ∧
        images.shape = [n, t.target.toNat] ∧
        ∀ i < n, t.transform (.ofList (points.row i)) .fresh =
          .ok ⟨.ofList (images.row i), .ofList (points.row i)⟩) ∧
    (∀ p : List α, (p.length : Int) = t.source →
      ∃ image slope, t.transform (.ofList p) .fresh = .ok ⟨image, .ofList p⟩ ∧
        t.derivative (.ofList p) = .ok slope ∧
        t.transformAndDerivative (.ofList p) = .ok (image, slope)) ∧
    (∀ (points : Tensor α) (count : Nat), pointCount? t.source points.shape = some count →
      ∃ images, t.transform points .fresh = .ok ⟨images, points⟩ ∧
        (∀ d : Tensor α, pointCount? t.target d.shape = some count →
          ∃ filled, t.transform points (.array d) = .ok ⟨filled, points⟩ ∧
            filled.shape = d.shape ∧ filled.elements = images.elements) ∧
        (pointCount? t.target points.shape = some count →
          ∃ filled, t.transform points .inPlace = .ok ⟨filled, filled⟩ ∧
            filled.shape = points.shape ∧ filled.elements = images.elements)) ∧
    (∀ p : List α, (p.length : Int) = t.source →
      ∃ image slope, t.transform (.ofList p) .fresh = .ok ⟨image, .ofList p⟩ ∧
        t.derivative (.ofList p) = .ok slope ∧
        t.derivativeAndTransform (.ofList p) .fresh = .ok ⟨slope, image, .ofList p⟩ ∧
        (∀ d : Tensor α, pointCount? t.target d.shape = some 1 →
          ∃ filled, t.derivativeAndTransform (.ofList p) (.array d) = .ok ⟨slope, filled, .ofList p⟩ ∧
            filled.shape = d.shape ∧ filled.elements = image.elements) ∧
        (t.target = t.source →
          t.derivativeAndTransform (.ofList p) .inPlace = .ok ⟨slope, image, image⟩)) := by
  refine ⟨fun points n m hshape hm => ht.transform_table hmanaged hshape hm, fun p hp => ?_,
    fun points count hpoints => ht.transform_destination hmanaged hpoints, fun p hp => ?_⟩
  · exact ⟨_, _, ht.transform_ofList hp, ht.derivative_ofList hp, ht.transformAndDerivative_ofList hp⟩
  · exact ⟨_, _, ht.transform_ofList hp, ht.derivative_ofList hp,
      ht.derivativeAndTransform_ofList hmanaged hp⟩

/-- A scaling before a foreign squaring, for two points over themselves and for one together with its
derivative. -/
theorem transform_agrees_squaring :
    let t := chain [.linear (.scaleOffset 2.0 1.0), .foreign (.squaring "Square" (.made 0))]
    let points : Tensor Double := ⟨[2, 1], [3.0, 4.0], rfl⟩
    (∃ images filled, t.transform points .fresh = .ok ⟨images, points⟩ ∧
      t.transform points .inPlace = .ok ⟨filled, filled⟩ ∧ filled.elements = images.elements) ∧
    ∃ image slope, t.transform (.ofList [3.0]) .fresh = .ok ⟨image, .ofList [3.0]⟩ ∧
      t.derivative (.ofList [3.0]) = .ok slope ∧
      t.derivativeAndTransform (.ofList [3.0]) .inPlace = .ok ⟨slope, image, image⟩ := by
  intro t points
  have ht : t.WellFormed := by
    refine ⟨List.cons_ne_nil _ _, .cons rfl (.cons rfl (.nil _)), fun s hs => ?_⟩
    rcases List.mem_pair.mp hs with rfl | rfl
    · trivial
    · exact wellFormed_squaring _ _
  obtain ⟨-, -, hdestination, htogether⟩ := transform_agrees ht rfl
  constructor
  · obtain ⟨images, hnew, -, hover⟩ := hdestination points 2 rfl
    obtain ⟨filled, hfilled, -, hsame⟩ := hover rfl
    exact ⟨images, filled, hnew, hfilled, hsame⟩
  · obtain ⟨image, slope, himage, hslope, -, -, hover⟩ := htogether [3.0] rfl
    exact ⟨image, slope, himage, hslope, hover rfl⟩

/-! ## Destinations of other shapes -/

/-- What becomes of a destination that has not the shape of the image of a point, be it the point itself. The
transform alone rejects it and leaves it as it is. Together with the derivative the image is written to it
wherever it can be repeated; only a destination that cannot be filled is left as it is. -/
theorem destination_of_other_shape (ht : t.WellFormed) (hmanaged : t.isManaged = true)
    (hp : (p.length : Int) = t.source) {m : Nat} (hm : (m : Int) = t.target) {a : Arrays α}
    (ha : a.points = .ofList p) (hpoint : a.target.shape ≠ [m]) (htable : a.target.shape ≠ [1, m]) :
    (∃ w, t.writer? = some w ∧ t.transform = w.transform ∧
      w.write.call a = (.error (.destinationShape 1 m a.target.shape), a)) ∧
    t.writeWithDerivative.call a =
      if Tensor.Stretches m a.target.shape then
        (.ok (t.jacobian p), a.withTarget (.everyRow a.target.shape (t.apply p)))
      else (.error .unusable, a) := by
  obtain ⟨w, hw⟩ := exists_writer? hmanaged
  obtain ⟨-, hsource, htarget⟩ := writes_of_writer? hw ht.leads ht.wellFormed_of_mem
  have hpoints : pointCount? w.source a.points.shape = some 1 :=
    pointCount?_eq_some_iff.mpr ⟨p.length, hp.trans hsource.symm, .inr ⟨by rw [ha]; rfl, rfl⟩⟩
  -- Of the shapes that one point has, the destination has neither.
  have hshape : pointCount? w.target a.target.shape ≠ some 1 := fun h => by
    obtain ⟨k, hk, hshape⟩ := pointCount?_eq_some_iff.mp h
    obtain rfl : k = m := by omega
    exact hshape.elim htable fun h => hpoint h.1
  constructor
  · refine ⟨w, hw, transform_eq_of_writer? hw, ?_⟩
    rw [ImageWriter.call_write_of_shape_ne hpoints hshape, htarget, ← hm]
    rfl
  · have hcall := ht.call_writeWithDerivative hmanaged hp ha
    rwa [← hm, Int.toNat_natCast] at hcall

/-- Under the identity of the plane, a destination with room for three numbers is left as it is. -/
theorem destination_of_other_shape_longer :
    let t : Transform Double := step (.linear (.identity 2))
    let a : Arrays Double := ⟨.ofList [1.0, 2.0], some (.ofList [0, 0, 0])⟩
    (∃ w, t.writer? = some w ∧ w.write.call a = (.error (.destinationShape 1 2 [3]), a)) ∧
    t.writeWithDerivative.call a = (.error .unusable, a) := by
  intro t a
  have ht : t.WellFormed := Joined.wellFormed (.step trivial)
  obtain ⟨⟨w, hw, -, hcall⟩, htogether⟩ := destination_of_other_shape ht rfl (p := [1.0, 2.0]) rfl
    (m := 2) rfl (a := a) rfl (by decide) (by decide)
  exact ⟨⟨w, hw, hcall⟩, htogether.trans (if_neg (show ¬ Tensor.Stretches 2 [3] by decide))⟩

/-- Under the identity of the plane, a point fills both rows of a destination for two points. -/
theorem fills_square_destination :
    let t : Transform Double := step (.linear (.identity 2))
    t.derivativeAndTransform (.ofList [1.0, 2.0]) (.array ⟨[2, 2], [0, 0, 0, 0], rfl⟩) =
      .ok ⟨.eye 2 2, ⟨[2, 2], [1.0, 2.0, 1.0, 2.0], rfl⟩, .ofList [1.0, 2.0]⟩ := rfl

end Transform

end Georef

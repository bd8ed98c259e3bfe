import Georef.Proofs.Tensor.Rows
import Georef.Proofs.Transform.Dimensions
import Georef.Transform.Points

/-!
# Writing images

However a transform goes through its points, what it leaves in the destination are their images. This holds
if the destination is the array of the points itself, where an ordinate that was overwritten is gone: columns
are copied before the first one is written, a row is read to its end before its image is written over it, and
all other forms work on a copy.

## Key results

- `LinearTransform.fill_eq`: the five forms write images, in place or not
- `ImageWriter.Writes`: what is left to say of anything that writes images
- `ImageWriter.Writes.transform_fresh`, `transform_array` and `transform_inPlace`: the images are the same
  wherever they are put
- `ImageWriter.call_write_of_shape_ne`: a destination of another shape is left as it is
-/

namespace Georef

variable {α : Type}

/-! ## The arrays of a call -/

namespace Arrays

variable {a : Arrays α} {source target : Int} {rows : List (List α)} {f : List α → List α}

/-- The target is what `withTarget` has put there. -/
@[simp] theorem target_withTarget (a : Arrays α) (t : Tensor α) : (a.withTarget t).target = t := by
  cases a with
  | mk points destination => cases destination <;> rfl

/-- Putting the target where it is changes nothing. -/
@[simp] theorem withTarget_target (a : Arrays α) : a.withTarget a.target = a := by
  cases a with
  | mk points destination => cases destination <;> rfl

/-- The array that `withTarget` puts there last is the one that stays. -/
@[simp] theorem withTarget_withTarget (a : Arrays α) (t u : Tensor α) :
    (a.withTarget t).withTarget u = a.withTarget u := by
  cases a with
  | mk points destination => cases destination <;> rfl

/-- The points have the one dimension, the places for their images the other one, and there are as many of
the one as of the other. -/
structure Fit (a : Arrays α) (source target : Int) : Prop where
  width_points : (a.points.width : Int) = source
  width_target : (a.target.width : Int) = target
  rowCount_target : a.target.rowCount = a.points.rowCount

/-- The arrays once every point has its image, in the shape that the target has. -/
def withImages [Zero α] (a : Arrays α) (f : List α → List α) : Arrays α :=
  a.withTarget (.ofRowList a.target.shape (a.points.rowList.map f))

/-- Every point of arrays that `Fit` has the dimension of the source. -/
theorem Fit.length_of_mem (h : a.Fit source target) {p : List α} (hp : p ∈ a.points.rowList) :
    (p.length : Int) = source := by
  rw [Tensor.length_of_mem_rowList hp, h.width_points]

/-- To have the images of all points, `withImages`, is to have that of each point in its row. -/
theorem Fit.eq_withImages [Zero α] (h : a.Fit source target)
    (hf : ∀ p : List α, (p.length : Int) = source → ((f p).length : Int) = target) {t : Tensor α}
    (hshape : t.shape = a.target.shape)
    (hrows : ∀ i < a.points.rowCount, t.row i = f (a.points.row i)) :
    a.withTarget t = a.withImages f := by
  have hcount : t.rowCount = a.points.rowCount := by
    rw [Tensor.rowCount_congr hshape, h.rowCount_target]
  refine congrArg a.withTarget (Tensor.ext_row hshape fun i hi => ?_)
  rw [hcount] at hi
  have hlength : ((a.points.row i).length : Int) = source := by
    rw [Tensor.length_row hi, h.width_points]
  have hget : (a.points.rowList.map f).getD i [] = f (a.points.row i) := by
    simp [hi, Tensor.getElem_rowList]
  have hwidth : (f (a.points.row i)).length = a.target.width := by
    have := hf _ hlength
    have := h.width_target
    omega
  rw [hrows i hi, Tensor.row_ofRowList (hi.trans_eq h.rowCount_target.symm) (hget ▸ hwidth), hget]

/-- `putRows` can write images anywhere if they are ready before the first one is written. -/
theorem Fit.putRows_eq [Zero α] (h : a.Fit source target)
    (hf : ∀ p : List α, (p.length : Int) = source → ((f p).length : Int) = target) :
    a.putRows (a.points.rowList.map f) = a.withImages f := by
  refine congrArg a.withTarget (Tensor.putRows_eq (by simp [h.rowCount_target]) fun row hrow => ?_)
  obtain ⟨p, hp, rfl⟩ := List.mem_map.mp hrow
  have := h.width_target
  have := hf p (h.length_of_mem hp)
  omega

/-- Images that `putRow` writes one after the other. If the points are the destination, an image is
    written over its own point only after the whole point was read, and the points after it are
    still there. -/
theorem Fit.foldl_putRow_eq [Zero α] (h : a.Fit source target)
    (hf : ∀ p : List α, (p.length : Int) = source → ((f p).length : Int) = target) :
    (List.range a.count).foldl (fun b i => b.putRow i (f (b.points.row i))) a = a.withImages f := by
  cases a with
  | mk points destination =>
    have hsource := h.width_points
    have htarget := h.width_target
    cases destination with
    | some d =>
      have hcount : d.rowCount = points.rowCount := h.rowCount_target
      -- The points are in another array, which stays as it is.
      obtain ⟨hshape, hrows⟩ := Tensor.foldl_putRow (t := d) (n := points.rowCount)
        (fun i _ => f (points.row i)) hcount.ge fun i hi _ _ => by
          have := hf (points.row i) (by rw [Tensor.length_row hi, hsource])
          exact Int.ofNat_inj.mp (this.trans htarget.symm)
      refine (List.foldl_hom (fun u => (⟨points, some u⟩ : Arrays α)) fun _ _ => ?_).trans
        (h.eq_withImages hf hshape hrows)
      rfl
    | none =>
      -- Each row is turned into its image in place.
      obtain ⟨hshape, hrows⟩ := Tensor.foldl_putRow (t := points) (n := points.rowCount)
        (fun _ p => f p) le_rfl fun _ _ p hp => by
          have := hf p (by rw [hp, hsource])
          exact Int.ofNat_inj.mp (this.trans htarget.symm)
      refine (List.foldl_hom (fun u => (⟨u, none⟩ : Arrays α)) fun _ _ => ?_).trans
        (h.eq_withImages hf hshape hrows)
      rfl

/-- `column` copies an ordinate of all points. -/
theorem getD_column [Zero α] {i : Nat} (hi : i < a.points.rowCount) (j : Nat) :
    (a.column j).getD i 0 = (a.points.row i).getD j 0 := by
  simp [column, hi, Tensor.getElem_rowList]

/-- `column` has a number for each point. -/
@[simp] theorem length_column [Zero α] (a : Arrays α) (j : Nat) :
    (a.column j).length = a.points.rowCount := by
  simp [column]

end Arrays

/-! ## Forms of linear transforms -/

namespace LinearTransform

variable [Zero α] [Add α] [Mul α] [Div α] {t : LinearTransform α} {a : Arrays α}

/-- Points that are their own images need not be written over themselves, and `fill` does not. -/
theorem fill_identity {dimension : Nat} (h : a.Fit dimension dimension) :
    (identity dimension).fill a = a.withImages fun p => p := by
  have hmap : a.points.rowList.map (fun p => p) = a.points.rowList := List.map_id _
  by_cases hnone : a.destination.isNone
  · have htarget : a.target = a.points := by
      rw [Arrays.target, Option.isNone_iff_eq_none.mp hnone, Option.getD_none]
    rw [fill, if_pos hnone, Arrays.withImages, hmap, ← htarget, Tensor.ofRowList_rowList,
      Arrays.withTarget_target]
  · rw [fill, if_neg hnone, ← h.putRows_eq fun _ hp => hp, hmap]

/-- `fill` writes the only column from a copy of itself. -/
theorem fill_scaleOffset {scale offset : α} (h : a.Fit 1 1) :
    (scaleOffset scale offset).fill a =
      a.withImages fun p => [p.getD 0 0 * scale + offset] := by
  have hwidth : a.target.width = 1 := Int.ofNat_inj.mp h.width_target
  have hcount := h.rowCount_target
  obtain ⟨hshape, hrows⟩ := Tensor.putColumn_spec (t := a.target) (j := 0)
    ((a.column 0).map fun x => x * scale + offset) (by omega) (by simp [hcount])
  refine h.eq_withImages (fun _ _ => rfl) hshape fun i hi => (hrows i (by omega)).trans ?_
  have hlength := (Tensor.length_row (t := a.target) (i := i) (by omega)).trans hwidth
  obtain ⟨y, hy⟩ := List.length_eq_one_iff.mp hlength
  have hx : ((a.column 0).map fun x => x * scale + offset).getD i 0 =
      (a.points.row i).getD 0 0 * scale + offset := by
    rw [← Arrays.getD_column hi]
    simp [hi]
  rw [hy, hx, List.set_cons_zero]

/-- `fill` computes both columns from copies of both. -/
theorem fill_affine {m00 m10 m01 m11 m02 m12 : α} (h : a.Fit 2 2) :
    (affine m00 m10 m01 m11 m02 m12).fill a = a.withImages fun p =>
      [m00 * p.getD 0 0 + m01 * p.getD 1 0 + m02, m10 * p.getD 0 0 + m11 * p.getD 1 0 + m12] := by
  have hwidth : a.target.width = 2 := Int.ofNat_inj.mp h.width_target
  have hcount := h.rowCount_target
  have hentry (f : α → α → α) {i : Nat} (hi : i < a.points.rowCount) :
      (List.zipWith f (a.column 0) (a.column 1)).getD i 0 =
        f ((a.points.row i).getD 0 0) ((a.points.row i).getD 1 0) := by
    rw [← Arrays.getD_column hi, ← Arrays.getD_column hi]
    simp [hi]
  -- One column is written after the other, and none of them disturbs the other one.
  obtain ⟨hshape, hrows⟩ := Tensor.putColumn_spec (t := a.target) (j := 0)
    (List.zipWith (fun x y => m00 * x + m01 * y + m02) (a.column 0) (a.column 1))
    (by omega) (by simp [hcount])
  have hcount' := Tensor.rowCount_congr hshape
  have hwidth' := Tensor.width_congr hshape
  obtain ⟨hshape', hrows'⟩ := Tensor.putColumn_spec (j := 1)
    (t := a.target.putColumn 0
      (List.zipWith (fun x y => m00 * x + m01 * y + m02) (a.column 0) (a.column 1)))
    (List.zipWith (fun x y => m10 * x + m11 * y + m12) (a.column 0) (a.column 1))
    (by omega) (by simp [hcount, hcount'])
  rw [← h.eq_withImages (fun _ _ => rfl) (hshape'.trans hshape) fun i hi => ?_]
  · simp [fill, Arrays.putColumn]
  · have hlength := (Tensor.length_row (t := a.target) (i := i) (by omega)).trans hwidth
    obtain ⟨x, y, hrow⟩ := List.length_eq_two.mp hlength
    rw [hrows' i (by omega), hrows i (by omega), hrow, hentry _ hi, hentry _ hi]
    rfl

/-- `fill` of all five forms writes the images of all points, also over the points themselves. -/
theorem fill_eq (ht : t.WellFormed) (h : a.Fit t.source t.target) : t.fill a = a.withImages t.apply := by
  have himages (p : List α) : (p.length : Int) = t.source → ((t.apply p).length : Int) = t.target :=
    length_apply ht
  cases t with
  | identity dimension => exact fill_identity h
  | scaleOffset scale offset => exact fill_scaleOffset h
  | affine m00 m10 m01 m11 m02 m12 => exact fill_affine h
  | selection source indices => exact h.putRows_eq himages
  | projective planar m => exact h.foldl_putRow_eq himages

end LinearTransform

/-! ## Shapes of points -/

section Shapes

variable {dimension : Int} {shape : List Nat} {count : Nat}

/-- The shapes that hold points of a dimension: `pointCount?` finds a table of them or a single one. -/
theorem pointCount?_eq_some_iff :
    pointCount? dimension shape = some count ↔
      ∃ d : Nat, (d : Int) = dimension ∧ (shape = [count, d] ∨ shape = [d] ∧ count = 1) := by
  constructor
  · intro h
    unfold pointCount? at h
    split at h
    · split at h
      · rename_i d hd
        exact ⟨d, hd, .inr ⟨rfl, (Option.some.inj h).symm⟩⟩
      · cases h
    · split at h
      · rename_i n d hd
        exact ⟨d, hd, .inl (by rw [Option.some.inj h])⟩
      · cases h
    · cases h
  · rintro ⟨d, hd, rfl | ⟨rfl, rfl⟩⟩ <;> simp [pointCount?, hd]

/-- An array that holds points, as `pointCount?` says, has one in each of its rows. -/
theorem size_of_pointCount? {t : Tensor α} (h : pointCount? dimension t.shape = some count) :
    t.rowCount = count ∧ (t.width : Int) = dimension := by
  obtain ⟨d, hd, hshape | ⟨hshape, rfl⟩⟩ := pointCount?_eq_some_iff.mp h
  · simp [Tensor.rowCount, Tensor.width, hshape, shapeSize, hd]
  · simp [Tensor.rowCount, Tensor.width, hshape, shapeSize, hd]

/-- Arrays with as many points as places for images `Fit`. -/
theorem Arrays.fit_of_pointCount? {a : Arrays α} {source target : Int}
    (hpoints : pointCount? source a.points.shape = some count)
    (htarget : pointCount? target a.target.shape = some count) : a.Fit source target := by
  obtain ⟨hcount, hwidth⟩ := size_of_pointCount? hpoints
  obtain ⟨hcount', hwidth'⟩ := size_of_pointCount? htarget
  exact ⟨hwidth, hwidth', hcount'.trans hcount.symm⟩

/-- A new array for the images has their shape, as `pointCount?` sees it. -/
theorem pointCount?_dropLast_append {source target : Int} (htarget : 0 ≤ target)
    (h : pointCount? source shape = some count) :
    pointCount? target (shape.dropLast ++ [target.toNat]) = some count := by
  obtain ⟨d, -, rfl | ⟨rfl, rfl⟩⟩ := pointCount?_eq_some_iff.mp h
  · simp [pointCount?, htarget]
  · simp [pointCount?, htarget]

end Shapes

/-! ## Calls that write images -/

namespace ImageWriter

variable {w : ImageWriter α} {f : List α → List α} {a : Arrays α} {points d : Tensor α} {count : Nat}

/-- `write` leaves a destination as it is that has not the shape of the images. -/
theorem call_write_of_shape_ne (hpoints : pointCount? w.source a.points.shape = some count)
    (htarget : pointCount? w.target a.target.shape ≠ some count) :
    w.write.call a = (.error (.destinationShape count w.target a.target.shape), a) := by
  have hcount : w.countPoints a.points = .ok count := by rw [countPoints, hpoints]
  simp only [write, Action.call_bind, Action.call_get, hcount, Action.call_lift]
  rw [if_neg htarget, Action.call_throw]

variable [Zero α]

/-- What is written are the images under a mapping from points of the source to points of the target. -/
structure Writes (w : ImageWriter α) (f : List α → List α) : Prop where
  length_map (p : List α) : (p.length : Int) = w.source → ((f p).length : Int) = w.target
  call_fill (a : Arrays α) : a.Fit w.source w.target → w.fill.call a = (.ok (), a.withImages f)

namespace Writes

/-- Where there is a point there is an image, so the target has a dimension. -/
theorem target_nonneg (h : w.Writes f) (hpoints : pointCount? w.source points.shape = some count) :
    0 ≤ w.target := by
  obtain ⟨d, hd, -⟩ := pointCount?_eq_some_iff.mp hpoints
  have := h.length_map (List.replicate d 0) (by simp [hd])
  omega

/-- `write` puts the images into a destination that has their shape. -/
theorem call_write (h : w.Writes f) (hpoints : pointCount? w.source a.points.shape = some count)
    (htarget : pointCount? w.target a.target.shape = some count) :
    w.write.call a = (.ok (), a.withImages f) := by
  have hcount : w.countPoints a.points = .ok count := by rw [countPoints, hpoints]
  simp only [write, Action.call_bind, Action.call_get, hcount, Action.call_lift]
  rw [if_pos htarget, h.call_fill a (Arrays.fit_of_pointCount? hpoints htarget)]

/-- `ImageWriter.transform` with a new array for the images. -/
theorem transform_fresh (h : w.Writes f) (hpoints : pointCount? w.source points.shape = some count) :
    w.transform points .fresh =
      .ok ⟨.ofRowList (points.shape.dropLast ++ [w.target.toNat]) (points.rowList.map f), points⟩ := by
  have htarget := h.target_nonneg hpoints
  have hcount : w.countPoints points = .ok count := by rw [countPoints, hpoints]
  have hfit : Arrays.Fit ⟨points, some (.blank (points.shape.dropLast ++ [w.target.toNat]))⟩
      w.source w.target :=
    Arrays.fit_of_pointCount? hpoints (pointCount?_dropLast_append htarget hpoints)
  rw [transform, hcount]
  show (if w.target < 0 then _ else _) = _
  rw [if_neg (by omega), Writing.images, h.call_fill _ hfit]
  rfl

/-- `ImageWriter.transform` with an array that has their shape. -/
theorem transform_array (h : w.Writes f) (hpoints : pointCount? w.source points.shape = some count)
    (hd : pointCount? w.target d.shape = some count) :
    w.transform points (.array d) = .ok ⟨.ofRowList d.shape (points.rowList.map f), points⟩ := by
  rw [transform, Writing.images, h.call_write (a := ⟨points, some d⟩) hpoints hd]
  rfl

/-- `ImageWriter.transform` with the images in the place of the points. -/
theorem transform_inPlace (h : w.Writes f)
    (hpoints : pointCount? w.source points.shape = some count)
    (htarget : pointCount? w.target points.shape = some count) :
    w.transform points .inPlace =
      .ok ⟨.ofRowList points.shape (points.rowList.map f),
        .ofRowList points.shape (points.rowList.map f)⟩ := by
  rw [transform, Writing.images, h.call_write (a := ⟨points, none⟩) hpoints htarget]
  rfl

/-- Wherever the images are put, they are the same numbers in the same order. -/
theorem elements_images (h : w.Writes f) (hpoints : pointCount? w.source points.shape = some count)
    {shape : List Nat} (hshape : pointCount? w.target shape = some count) :
    (Tensor.ofRowList shape (points.rowList.map f)).elements = (points.rowList.map f).flatten := by
  have hsize : shapeSize shape.dropLast = points.rowCount ∧ (shape.getLastD 1 : Int) = w.target := by
    rw [(size_of_pointCount? hpoints).1]
    exact size_of_pointCount? (t := .blank (α := α) shape) hshape
  refine Tensor.elements_ofRowList (by simp [hsize.1]) fun row hrow => ?_
  obtain ⟨p, hp, rfl⟩ := List.mem_map.mp hrow
  have := h.length_map p (by rw [Tensor.length_of_mem_rowList hp, (size_of_pointCount? hpoints).2])
  omega

end Writes

end ImageWriter

/-! ## Transforms of one step -/

section Steps

variable [Zero α]

/-- What a linear transform `Writes` are the images of points. -/
theorem LinearTransform.writes [Add α] [Mul α] [Div α] {t : LinearTransform α} (ht : t.WellFormed) :
    t.writer.Writes t.apply where
  length_map _ := length_apply ht
  call_fill a h := by
    rw [show t.writer.fill = modify t.fill from rfl, Action.call_modify, fill_eq ht h]

/-- What a managed mapping `Writes` are the images of points. -/
theorem Mapping.writes {m : Mapping α} (hm : m.WellFormed) : m.writer.Writes m.map where
  length_map := hm.length_map
  call_fill a h := by
    rw [← h.putRows_eq hm.length_map]
    rfl

end Steps

end Georef

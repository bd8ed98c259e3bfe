import Georef.Tensor

/-!
# Rows of an array

The elements of an array are laid out row after row, so an array is known by its shape and its rows. Writing
an element changes one place of one row; what a loop over a row, a column or all rows has written is said
here for the rows, and no later proof counts elements.

## Key results

- `ext_rowList`: an array is known by its shape and its rows
- `row_put`: what one element changes
- `putRow_spec`, `putRows_eq`, `putColumn_spec`: what a loop leaves behind
-/

namespace Georef

namespace Tensor

variable {α : Type} {t u : Tensor α} {i j k : Nat} {x : α} {xs ys : List α} {rows : List (List α)}

/-! ## Cutting into rows -/

/-- `chunks` are the rows whose elements, one row after the other, are those that were cut. -/
theorem flatten_chunks (width count : Nat) (h : xs.length = count * width) :
    (chunks width count xs).flatten = xs := by
  induction count generalizing xs with
  | zero =>
    rw [Nat.zero_mul] at h
    simp [chunks, List.length_eq_zero_iff.mp h]
  | succ count ih =>
    have hrest : (xs.drop width).length = count * width := by
      rw [List.length_drop, h, Nat.succ_mul]
      omega
    have hchunks : chunks width (count + 1) xs =
        xs.take width :: chunks width count (xs.drop width) := by
      simp [chunks, List.range_succ_eq_map, Function.comp_def, Nat.succ_mul, Nat.add_comm]
    rw [hchunks, List.flatten_cons, ih hrest, List.take_append_drop]

/-- If there are elements for all rows, each row is complete. -/
theorem length_take_drop {width count : Nat} (h : xs.length = count * width) (hi : i < count) :
    ((xs.drop (i * width)).take width).length = width := by
  have hrow : (i + 1) * width ≤ count * width := Nat.mul_le_mul_right _ hi
  rw [Nat.succ_mul] at hrow
  rw [List.length_take, List.length_drop, h]
  omega

/-- All `chunks` are complete rows. -/
theorem length_of_mem_chunks {width count : Nat} {row : List α} (h : xs.length = count * width)
    (hrow : row ∈ chunks width count xs) : row.length = width := by
  obtain ⟨i, hi, rfl⟩ := List.mem_map.mp hrow
  exact length_take_drop h (List.mem_range.mp hi)

/-! ## An array by its rows -/

/-- There are as many elements as the rows have. -/
theorem length_elements (t : Tensor α) : t.elements.length = t.rowCount * t.width := by
  rw [t.length_eq, shapeSize_eq]
  rfl

/-- `rowList` has `rowCount` rows. -/
@[simp] theorem length_rowList (t : Tensor α) : t.rowList.length = t.rowCount := by
  simp [rowList, chunks]

/-- `rowList` has each `row` at its place. -/
theorem getElem_rowList (h : i < t.rowList.length) : t.rowList[i] = t.row i := by
  simp [rowList, chunks, row]

/-- `rowList` goes through the rows in order. -/
theorem rowList_eq_map_row (t : Tensor α) : t.rowList = (List.range t.rowCount).map t.row := rfl

/-- The place of an element lies inside of the array. -/
theorem place_lt (hi : i < t.rowCount) (hj : j < t.width) : i * t.width + j < t.elements.length := by
  have hrow : (i + 1) * t.width ≤ t.rowCount * t.width := Nat.mul_le_mul_right _ hi
  rw [Nat.succ_mul] at hrow
  rw [length_elements]
  omega

/-- Each `row` has the width of the array. -/
@[simp] theorem length_row (hi : i < t.rowCount) : (t.row i).length = t.width :=
  length_take_drop t.length_elements hi

/-- Each member of `rowList` has the width of the array. -/
theorem length_of_mem_rowList (h : xs ∈ t.rowList) : xs.length = t.width :=
  length_of_mem_chunks t.length_elements h

/-- The element of a `row` is found behind the rows before it. -/
theorem getElem?_row (hj : j < t.width) (i : Nat) :
    (t.row i)[j]? = t.elements[i * t.width + j]? := by
  simp [row, List.getElem?_drop, hj]

/-- `rowList` has all elements, row after row. -/
theorem flatten_rowList (t : Tensor α) : t.rowList.flatten = t.elements :=
  flatten_chunks _ _ t.length_elements

/-- An array is known by its shape and its elements. -/
theorem ext_elements (hshape : t.shape = u.shape) (helements : t.elements = u.elements) : t = u := by
  cases t
  cases u
  cases hshape
  cases helements
  rfl

/-- An array is known by its shape and its `rowList`. -/
theorem ext_rowList (hshape : t.shape = u.shape) (hrows : t.rowList = u.rowList) : t = u := by
  refine ext_elements hshape ?_
  rw [← t.flatten_rowList, ← u.flatten_rowList, hrows]

/-- Arrays of the same shape have the same `rowCount`. -/
theorem rowCount_congr (h : t.shape = u.shape) : t.rowCount = u.rowCount := by
  rw [rowCount, rowCount, h]

/-- Arrays of the same shape have the same `width`. -/
theorem width_congr (h : t.shape = u.shape) : t.width = u.width := by
  rw [width, width, h]

/-- An array is known by its shape and each `row`. -/
theorem ext_row (hshape : t.shape = u.shape) (hrows : ∀ i < t.rowCount, t.row i = u.row i) : t = u := by
  refine ext_rowList hshape ?_
  rw [rowList_eq_map_row, rowList_eq_map_row, rowCount_congr hshape.symm]
  exact List.map_congr_left fun i hi => hrows i (List.mem_range.mp hi)

/-! ## Points -/

@[simp] theorem shape_ofList (p : List α) : (ofList p).shape = [p.length] := rfl

@[simp] theorem elements_ofList (p : List α) : (ofList p).elements = p := rfl

/-- A point is its own only row. -/
@[simp] theorem rowList_ofList (p : List α) : (ofList p).rowList = [p] := by
  simp [rowList, chunks, rowCount, width, shapeSize]

/-! ## An array made of rows -/

section OfRowList

variable [Zero α] {shape : List Nat}

/-- `ofRowList` has the given shape. -/
@[simp] theorem shape_ofRowList (shape : List Nat) (rows : List (List α)) :
    (ofRowList shape rows).shape = shape := rfl

/-- The elements of `ofRowList` are taken from the row and the column of their place. -/
theorem getElem?_elements_ofRowList (hk : k < shapeSize shape) :
    (ofRowList shape rows).elements[k]? =
      some ((rows.getD (k / shape.getLastD 1) []).getD (k % shape.getLastD 1) 0) := by
  simp [ofRowList, generate, List.getElem?_range hk]

/-- Each `row` of `ofRowList` is the one that it is made of. -/
theorem row_ofRowList (hi : i < shapeSize shape.dropLast)
    (hrow : (rows.getD i []).length = shape.getLastD 1) :
    (ofRowList shape rows).row i = rows.getD i [] := by
  have hlength : ((ofRowList shape rows).row i).length = shape.getLastD 1 := length_row hi
  refine List.ext_getElem? fun j => ?_
  by_cases hj : j < shape.getLastD 1
  · -- The place of an element in the array is told from its row and its column by division.
    have hplace : i * shape.getLastD 1 + j < shapeSize shape := by
      have := place_lt (t := ofRowList shape rows) hi hj
      rwa [(ofRowList shape rows).length_eq] at this
    rw [getElem?_row (t := ofRowList shape rows) hj]
    refine (getElem?_elements_ofRowList hplace).trans ?_
    rw [Nat.mul_comm, Nat.mul_add_div (by omega), Nat.div_eq_of_lt hj, Nat.add_zero,
      Nat.mul_add_mod, Nat.mod_eq_of_lt hj, List.getD_eq_getElem?_getD, List.getElem?_eq_getElem (by omega),
      Option.getD_some]
  · rw [List.getElem?_eq_none (by omega), List.getElem?_eq_none (by omega)]

/-- The rows of `ofRowList` are those that it is made of. -/
theorem rowList_ofRowList (hcount : rows.length = shapeSize shape.dropLast)
    (hrows : ∀ row ∈ rows, row.length = shape.getLastD 1) :
    (ofRowList shape rows).rowList = rows := by
  refine List.ext_getElem (by rw [length_rowList, hcount]; rfl) fun i hi hi' => ?_
  have hgetD : rows.getD i [] = rows[i] := by simp [hi']
  rw [getElem_rowList, row_ofRowList (hcount ▸ hi') (by rw [hgetD]; exact hrows _ (List.getElem_mem hi')),
    hgetD]

/-- `ofRowList` makes an array of its own rows. -/
@[simp] theorem ofRowList_rowList (t : Tensor α) : ofRowList t.shape t.rowList = t :=
  ext_rowList rfl (rowList_ofRowList t.length_rowList fun _ => length_of_mem_rowList)

/-- The elements of `ofRowList` do not depend on how the rows are laid out along the other axes. -/
theorem elements_ofRowList (hcount : rows.length = shapeSize shape.dropLast)
    (hrows : ∀ row ∈ rows, row.length = shape.getLastD 1) :
    (ofRowList shape rows).elements = rows.flatten := by
  rw [← flatten_rowList, rowList_ofRowList hcount hrows]

/-- `ofRowList` makes an array with one axis of a single row. -/
@[simp] theorem ofRowList_singleton (p : List α) : ofRowList [p.length] [p] = ofList p := by
  have := ofRowList_rowList (ofList p)
  rwa [rowList_ofList] at this

end OfRowList

/-! ## Writing an element -/

@[simp] theorem width_put (t : Tensor α) (place : Nat) (x : α) : (t.put place x).width = t.width := rfl

/-- `put` changes one element of its row; all other rows stay. -/
theorem row_put (hj : j < t.width) (k : Nat) :
    (t.put (i * t.width + j) x).row k = if k = i then (t.row k).set j x else t.row k := by
  -- The place that is written lies behind or in front of every other row.
  have hother (h : k ≠ i) :
      i * t.width + j < k * t.width ∨ k * t.width + t.width ≤ i * t.width + j := by
    obtain h | h := Nat.lt_or_gt_of_ne h
    · have := Nat.mul_le_mul_right t.width (show k + 1 ≤ i from h)
      rw [Nat.succ_mul] at this
      omega
    · have := Nat.mul_le_mul_right t.width (show i + 1 ≤ k from h)
      rw [Nat.succ_mul] at this
      omega
  show ((t.elements.set (i * t.width + j) x).drop (k * t.width)).take t.width = _
  by_cases hk : k = i
  · subst hk
    rw [if_pos rfl, List.drop_set, if_neg (by omega), Nat.add_sub_cancel_left, List.take_set]
    rfl
  · rw [if_neg hk, List.drop_set]
    split
    · rfl
    · rw [List.take_set, List.set_eq_of_length_le]
      · rfl
      · rw [List.length_take]
        have := hother hk
        omega

/-! ## Loops that write -/

/-- What a loop over a row has written so far is followed by what was there before. -/
private theorem foldl_put_row (xs : List α) (hk : k + xs.length ≤ t.width) (hi : i < t.rowCount) :
    let u := (xs.zipIdx k).foldl (fun t (x, j) => t.put (i * t.width + j) x) t
    u.shape = t.shape ∧ ∀ l, u.row l =
      if l = i then (t.row l).take k ++ (xs ++ (t.row l).drop (k + xs.length)) else t.row l := by
  -- For any place to start from, as each step leaves one element more behind.
  induction xs generalizing t k with
  | nil => exact ⟨rfl, fun l => by simp⟩
  | cons x xs ih =>
    rw [List.length_cons] at hk
    obtain ⟨hshape, hrows⟩ := ih (t := t.put (i * t.width + k) x) (k := k + 1)
      (by rw [width_put]; omega) hi
    refine ⟨hshape, fun l => (hrows l).trans ?_⟩
    rw [row_put (by omega)]
    by_cases hl : l = i
    · -- The element just written ends the part that is done.
      subst hl
      have hlt : k < (t.row l).length := by rw [length_row hi]; omega
      simp only [if_pos, List.take_set, List.drop_set]
      rw [if_pos (by omega), List.take_succ_eq_append_getElem hlt,
        List.set_append_right _ _ (List.length_take_le _ _)]
      simp [Nat.min_eq_left (Nat.le_of_lt hlt), Nat.add_comm, Nat.add_left_comm]
    · simp [hl]

/-- `putRow` writes a row from its first element to its last in the place of the old one. -/
theorem putRow_spec (hi : i < t.rowCount) (hxs : xs.length = t.width) :
    (t.putRow i xs).shape = t.shape ∧
    ∀ k, (t.putRow i xs).row k = if k = i then xs else t.row k := by
  obtain ⟨hshape, hrows⟩ := foldl_put_row xs (k := 0) (by omega) hi
  refine ⟨hshape, fun k => (hrows k).trans ?_⟩
  by_cases hk : k = i
  · subst hk
    rw [if_pos rfl, if_pos rfl, List.drop_of_length_le (by rw [length_row hi]; omega)]
    simp
  · rw [if_neg hk, if_neg hk]

/-- A loop whose steps each edit a row of their own edits all these rows as they were before, and no other
one. -/
theorem foldl_edit {β : Type} (step : Tensor α → β → Tensor α) (place : β → Nat)
    (edit : β → List α → List α) {bs : List β} (hnodup : (bs.map place).Nodup)
    (hstep : ∀ b ∈ bs, ∀ u : Tensor α, u.shape = t.shape → (step u b).shape = u.shape ∧
      ∀ k, (step u b).row k = if k = place b then edit b (u.row k) else u.row k) :
    (bs.foldl step t).shape = t.shape ∧
    (∀ k, k ∉ bs.map place → (bs.foldl step t).row k = t.row k) ∧
    ∀ b ∈ bs, (bs.foldl step t).row (place b) = edit b (t.row (place b)) := by
  -- The later steps find all rows but one as they were, by the induction hypothesis on the array
  -- after the first step.
  induction bs generalizing t with
  | nil => exact ⟨rfl, fun _ _ => rfl, fun b hb => absurd hb List.not_mem_nil⟩
  | cons b bs ih =>
    rw [List.map_cons, List.nodup_cons] at hnodup
    obtain ⟨hshape, hrow⟩ := hstep b List.mem_cons_self t rfl
    obtain ⟨hshape', hothers, hedited⟩ := ih (t := step t b) hnodup.2 fun c hc u hu =>
      hstep c (List.mem_cons_of_mem b hc) u (hu.trans hshape)
    refine ⟨hshape'.trans hshape, fun k hk => ?_, fun c hc => ?_⟩
    · rw [List.map_cons, List.mem_cons, not_or] at hk
      rw [List.foldl_cons, hothers k hk.2, hrow, if_neg hk.1]
    · rw [List.foldl_cons]
      rcases List.mem_cons.mp hc with rfl | hc
      · rw [hothers _ hnodup.1, hrow, if_pos rfl]
      · -- A later step finds its row as it was.
        have hne : place c ≠ place b := fun h => hnodup.1 (h ▸ List.mem_map_of_mem hc)
        rw [hedited c hc, hrow, if_neg hne]

/-- A loop over the rows that replaces each one by what its step makes of it. -/
theorem foldl_putRow {n : Nat} (edit : Nat → List α → List α) (hn : n ≤ t.rowCount)
    (hedit : ∀ i < n, ∀ row : List α, row.length = t.width → (edit i row).length = t.width) :
    let u := (List.range n).foldl (fun u i => u.putRow i (edit i (u.row i))) t
    u.shape = t.shape ∧ ∀ i < n, u.row i = edit i (t.row i) := by
  obtain ⟨hshape, -, hedited⟩ := foldl_edit (t := t)
    (fun u i => u.putRow i (edit i (u.row i))) id edit
    (by rw [List.map_id]; exact List.nodup_range (n := n)) fun i hi u hu => by
      have hi := List.mem_range.mp hi
      have hrow : i < u.rowCount := by rw [rowCount_congr hu]; omega
      have hlength := hedit i hi (u.row i) (by rw [length_row hrow, width_congr hu])
      obtain ⟨hshape, hrows⟩ := putRow_spec hrow (hlength.trans (width_congr hu).symm)
      refine ⟨hshape, fun k => (hrows k).trans ?_⟩
      by_cases hk : k = i
      · simp [hk]
      · simp [hk]
  exact ⟨hshape, fun i hi => hedited i (List.mem_range.mpr hi)⟩

/-- The places that `zipIdx` counts are all different. -/
theorem map_snd_zipIdx_nodup {β : Type} (xs : List β) : (xs.zipIdx.map Prod.snd).Nodup := by
  rw [List.zipIdx_map_snd]
  exact List.nodup_range'

/-- `putRows` writes one row after the other, which makes the array with these rows. -/
theorem putRows_eq [Zero α] (hcount : rows.length = t.rowCount)
    (hrows : ∀ row ∈ rows, row.length = t.width) : t.putRows rows = ofRowList t.shape rows := by
  obtain ⟨hshape, -, hedited⟩ := foldl_edit (t := t)
    (fun u b => u.putRow b.2 b.1) Prod.snd (fun b _ => b.1) (map_snd_zipIdx_nodup rows) fun b hb u hu => by
      obtain ⟨hi, hb⟩ := List.mem_zipIdx' hb
      refine putRow_spec (by rw [rowCount_congr hu]; omega) ?_
      rw [width_congr hu, hb]
      exact hrows _ (List.getElem_mem _)
  refine ext_row hshape fun i hi => ?_
  have hi' : i < rows.length := by rwa [hcount, ← rowCount_congr hshape]
  have hgetD : rows.getD i [] = rows[i] := by simp [hi']
  have hrow : (rows.getD i []).length = t.width := hgetD ▸ hrows _ (List.getElem_mem hi')
  rw [row_ofRowList (show i < t.rowCount by omega) hrow, hgetD]
  exact hedited (rows[i], i) (List.mem_zipIdx_iff_getElem?.mpr (List.getElem?_eq_getElem hi'))

/-- `putColumn` writes one element of each row. -/
theorem putColumn_spec [Zero α] (xs : List α) (hj : j < t.width) (hcount : xs.length = t.rowCount) :
    (t.putColumn j xs).shape = t.shape ∧
    ∀ i < t.rowCount, (t.putColumn j xs).row i = (t.row i).set j (xs.getD i 0) := by
  obtain ⟨hshape, -, hedited⟩ := foldl_edit (t := t)
    (fun u b => u.put (b.2 * u.width + j) b.1) Prod.snd (fun b row => row.set j b.1)
    (map_snd_zipIdx_nodup xs) fun b _ u hu =>
      ⟨rfl, fun k => row_put (by rwa [width_congr hu]) k⟩
  refine ⟨hshape, fun i hi => ?_⟩
  have hi' : i < xs.length := by omega
  have hgetD : xs.getD i 0 = xs[i] := by simp [hi']
  rw [hgetD]
  exact hedited (xs[i], i) (List.mem_zipIdx_iff_getElem?.mpr (List.getElem?_eq_getElem hi'))

end Tensor

end Georef

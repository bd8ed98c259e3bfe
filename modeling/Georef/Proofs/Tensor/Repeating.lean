import Georef.Proofs.Tensor.Rows

/-!
# Filling an array with a smaller one

An array is repeated until it fills another one, if their shapes allow for that. An array of the same shape
is copied. A point fills every row of an array whose last axis has the dimension of the point; the single
ordinate of a point on the line fills every element of any array.

## Key results

- `broadcast_self`: what has the same shape is copied
- `broadcast_ofList`: when and how a point fills an array
-/

namespace Georef

namespace Tensor

variable {α : Type} {shape : List Nat} {xs : List α}

/-- The array of the given shape with the given elements. -/
theorem generate_getD [Zero α] (h : xs.length = shapeSize shape) :
    generate shape (fun k => xs.toArray.getD k 0) = ⟨shape, xs, h⟩ := by
  refine ext_elements rfl (List.ext_getElem (by simp [generate, h]) fun k hk hk' => ?_)
  simp [generate, hk']

/-! ## The same shape -/

/-- A shape `fills` itself. -/
theorem fills_self (shape : List Nat) : fills shape shape = true := by
  induction shape with
  | nil => rfl
  | cons n shape ih => simpa [fills] using ih

/-- `repeatElements` to the same shape repeats nothing. -/
theorem repeatElements_self (h : xs.length = shapeSize shape) :
    repeatElements shape shape xs = xs := by
  induction shape generalizing xs with
  | nil => rfl
  | cons n shape ih =>
    have hsize : xs.length = n * shapeSize shape := h
    have hchunks : (chunks (shapeSize shape) n xs).map (repeatElements shape shape) =
        (chunks (shapeSize shape) n xs).map id :=
      List.map_congr_left fun chunk hchunk => ih (length_of_mem_chunks hsize hchunk)
    rw [repeatElements, if_pos rfl, List.flatMap_def, hchunks, List.map_id, flatten_chunks _ _ hsize]

/-- `broadcast?` gives an array that does not have more axes than the one it is to fill axes of size
    one in front. -/
theorem broadcast?_eq [Zero α] {t : Tensor α} {aligned : List Nat} (h : t.shape.length ≤ shape.length)
    (haligned : List.replicate (shape.length - t.shape.length) 1 ++ t.shape = aligned) :
    t.broadcast? shape = if fills aligned shape then
      some (generate shape fun k => (repeatElements aligned shape t.elements).toArray.getD k 0)
    else none := by
  simp [broadcast?, Nat.sub_eq_zero_of_le h, haligned]

/-- `broadcast` copies what has the same shape. -/
theorem broadcast_self [Zero α] (t : Tensor α) : t.broadcast t.shape = .ok t := by
  have haligned : List.replicate (t.shape.length - t.shape.length) 1 ++ t.shape = t.shape := by simp
  rw [broadcast, broadcast?_eq (Nat.le_refl _) haligned, if_pos (fills_self _),
    repeatElements_self t.length_eq, generate_getD t.length_eq]

/-! ## A point -/

/-- A point can fill an array if it has the dimension of the last axis, or a single ordinate. -/
def Stretches (dimension : Nat) (shape : List Nat) : Prop :=
  dimension = 1 ∨ dimension = shape.getLastD 1

instance (dimension : Nat) (shape : List Nat) : Decidable (Stretches dimension shape) :=
  inferInstanceAs (Decidable (_ ∨ _))

/-- A row of the given width made of a point: the point itself, or its only ordinate over and over. -/
def stretch (width : Nat) (p : List α) : List α :=
  if p.length = width then p else (List.replicate width p).flatten

/-- `stretch` gives a row of the given width. -/
theorem length_stretch {width : Nat} {p : List α} (h : p.length = 1 ∨ p.length = width) :
    (stretch width p).length = width := by
  unfold stretch
  split
  · assumption
  · have hone : p.length = 1 := by omega
    simp [hone]

/-- The array of the given shape with a row made of the point in the place of every row. -/
def everyRow [Zero α] (shape : List Nat) (p : List α) : Tensor α :=
  ofRowList shape (List.replicate (shapeSize shape.dropLast) (stretch (shape.getLastD 1) p))

/-- `shapeSize` with one more axis. -/
theorem shapeSize_append_singleton (shape : List Nat) (k : Nat) :
    shapeSize (shape ++ [k]) = shapeSize shape * k := by
  simpa using shapeSize_eq (shape ++ [k])

/-- `shapeSize` of axes of size one. -/
theorem shapeSize_replicate_one (n : Nat) : shapeSize (List.replicate n 1) = 1 := by
  induction n with
  | zero => rfl
  | succ n ih => simpa [shapeSize, List.replicate_succ] using ih

/-- `repeatElements` repeats a point along each axis in front of the last one. -/
theorem repeatElements_point {front : List Nat} {width : Nat} :
    repeatElements (List.replicate front.length 1 ++ [xs.length]) (front ++ [width]) xs =
      (List.replicate (shapeSize front) (stretch width xs)).flatten := by
  induction front with
  | nil =>
    have hrow : (List.replicate (shapeSize []) (stretch width xs)).flatten = stretch width xs := by
      simp [shapeSize]
    rw [hrow, stretch]
    simp only [List.length_nil, List.replicate_zero, List.nil_append, repeatElements]
    by_cases hwidth : xs.length = width
    · rw [if_pos hwidth, if_pos hwidth]
      have hone : (chunks 1 xs.length xs).flatten = xs := flatten_chunks 1 xs.length (by simp)
      simpa [List.flatMap_def, shapeSize] using hone
    · rw [if_neg hwidth, if_neg hwidth]
  | cons n front ih =>
    -- The copies along one more axis are made of those along the others.
    have hcopies : (List.replicate n (List.replicate (shapeSize front) (stretch width xs)).flatten).flatten =
        (List.replicate (shapeSize (n :: front)) (stretch width xs)).flatten := by
      rw [← List.map_replicate, ← List.flatten_flatten, List.flatten_replicate_replicate]
      rfl
    rw [← hcopies, ← ih]
    simp only [List.length_cons, List.replicate_succ, List.cons_append, repeatElements]
    -- An axis of size one needs no copies, but is cut into its single element.
    by_cases hn : 1 = n
    · subst hn
      have hsize : shapeSize (List.replicate front.length 1 ++ [xs.length]) = xs.length := by
        rw [shapeSize_append_singleton, shapeSize_replicate_one, Nat.one_mul]
      simp [hsize, chunks]
    · rw [if_neg hn]

/-- A point `fills` an array if the last axes agree or it has a single ordinate. -/
theorem fills_replicate_one (front : List Nat) (m width : Nat) :
    fills (List.replicate front.length 1 ++ [m]) (front ++ [width]) = (m == width || m == 1) := by
  induction front with
  | nil => simp [fills]
  | cons n front ih => simpa [fills, List.replicate_succ] using ih

/-- `broadcast` of a point that can fill an array puts it in each of the rows; it fills no other
    array. -/
theorem broadcast_ofList [Zero α] (xs : List α) (shape : List Nat) :
    (ofList xs).broadcast shape =
      if Stretches xs.length shape then .ok (everyRow shape xs) else .error .unusable := by
  obtain rfl | ⟨front, width, rfl⟩ := shape.eq_nil_or_concat
  · -- An array without axes takes a single number.
    by_cases hone : xs.length = 1
    · obtain ⟨x, rfl⟩ := List.length_eq_one_iff.mp hone
      rfl
    · simp [broadcast, broadcast?, Stretches, hone]
  · rw [List.concat_eq_append]
    have haligned : List.replicate ((front ++ [width]).length - (ofList xs).shape.length) 1 ++
        (ofList xs).shape = List.replicate front.length 1 ++ [xs.length] := by simp
    rw [broadcast, everyRow, broadcast?_eq (by simp) haligned, fills_replicate_one, elements_ofList,
      repeatElements_point, List.dropLast_concat, List.getLastD_concat]
    by_cases hlength : xs.length = 1 ∨ xs.length = width
    · have hsize : (List.replicate (shapeSize front) (stretch width xs)).flatten.length =
          shapeSize (front ++ [width]) := by
        simp [length_stretch hlength, shapeSize_append_singleton]
      rw [if_pos (by simpa [or_comm] using hlength), if_pos (by simpa [Stretches] using hlength),
        generate_getD hsize]
      refine congrArg Except.ok (ext_elements rfl (elements_ofRowList (by simp) fun row hrow => ?_).symm)
      rw [List.eq_of_mem_replicate hrow, length_stretch hlength, List.getLastD_concat]
    · rw [if_neg (by simpa [or_comm] using hlength), if_neg (by simpa [Stretches] using hlength)]

end Tensor

end Georef

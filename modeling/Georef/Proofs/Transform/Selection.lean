import Georef.Proofs.List
import Georef.Proofs.Matrix.Units
import Georef.Transform.Linear
import Mathlib.Data.List.Perm.Subperm
import Mathlib.Tactic.Choose

/-!
# Selections of ordinates

`Selects m places` says in terms of entries that a matrix only copies ordinates, and
`selection?_eq_some_iff` that `LinearTransform.selection?` recognises exactly these matrices. The
second half is about the matrix of a selection and about permutations, the selections with an inverse.
-/

namespace Georef

namespace LinearTransform

variable {α : Type} [Zero α] [One α]

/-! ## Reading a matrix as a selection -/

section Reading

variable [BEq α]

/-- A matrix selects ordinates: it ends in an affine row, row `i` has a one in column `places[i]` and
    zeros elsewhere, and no row has an offset. -/
structure Selects (m : Matrix α) (places : List Nat) : Prop where
  length_eq : places.length = m.rows - 1
  endsAffine : m.endsAffine = true
  offset (i : Nat) : i < m.rows - 1 → (m.entry i (m.cols - 1) == 0) = true
  lt (i : Nat) (h : i < places.length) : places[i] < m.cols - 1
  one (i : Nat) (h : i < places.length) : (m.entry i places[i] == 1) = true
  zero (i : Nat) (h : i < places.length) (j : Nat) : j < m.cols - 1 → j ≠ places[i] →
    (m.entry i j == 0) = true

/-- `pickedOrdinate?` finds the place of the only entry that is not zero, if it is a one and the
    offset is zero. -/
theorem pickedOrdinate?_eq_some_iff [UnitsApart α] {m : Matrix α} {i j : Nat} :
    pickedOrdinate? m i = some j ↔ (m.entry i (m.cols - 1) == 0) = true ∧ j < m.cols - 1 ∧
      (m.entry i j == 1) = true ∧
      ∀ k, k < m.cols - 1 → k ≠ j → (m.entry i k == 0) = true := by
  -- To be the only place that is left is to be there and to be alone.
  have hfilter (j : Nat) :
      ((List.range (m.cols - 1)).filter fun j => !(m.entry i j == 0)) = [j] ↔
        j < m.cols - 1 ∧ (m.entry i j == 0) = false ∧
          ∀ k, k < m.cols - 1 → k ≠ j → (m.entry i k == 0) = true := by
    simp [List.filter_range_eq_singleton]
  constructor
  · intro h
    unfold pickedOrdinate? at h
    split at h
    · rename_i hoffset
      split at h
      · rename_i j' hj'
        split at h
        · rename_i hone
          obtain rfl := Option.some.inj h
          obtain ⟨hlt, _, hrest⟩ := (hfilter j').mp hj'
          exact ⟨hoffset, hlt, hone, hrest⟩
        · exact nomatch h
      · exact nomatch h
    · exact nomatch h
  · rintro ⟨hoffset, hlt, hone, hrest⟩
    have hsingle := (hfilter j).mpr ⟨hlt, UnitsApart.not_zero_of_one _ hone, hrest⟩
    simp [pickedOrdinate?, hoffset, hsingle, hone]

/-- `selection?` reads a matrix as a selection exactly if it `Selects` ordinates. -/
theorem selection?_eq_some_iff [UnitsApart α] {m : Matrix α} {t : LinearTransform α} :
    selection? m = some t ↔ ∃ places, Selects m places ∧
      t = selection (m.cols - 1) (places.map fun (j : Nat) => (j : Int)) := by
  -- The loop over the rows succeeds if each row has one place to pick.
  have hpicked (places : List Nat) :
      (List.range (m.rows - 1)).mapM (pickedOrdinate? m) = some places ↔
        places.length = m.rows - 1 ∧
          ∀ i (h : i < places.length), pickedOrdinate? m i = some places[i] := by
    rw [List.mapM_eq_some_iff, List.forall₂_iff_get]
    simp only [List.length_range, List.get_eq_getElem, List.getElem_range]
    constructor
    · rintro ⟨hlength, hall⟩
      exact ⟨hlength.symm, fun i h => hall i (by omega) h⟩
    · rintro ⟨hlength, hall⟩
      exact ⟨hlength.symm, fun i _ h => hall i h⟩
  constructor
  · intro h
    unfold selection? at h
    split at h
    · rename_i hends
      obtain ⟨places, hplaces, rfl⟩ := Option.map_eq_some_iff.mp h
      obtain ⟨hlength, hall⟩ := (hpicked places).mp hplaces
      have hrow (i : Nat) (h : i < places.length) := pickedOrdinate?_eq_some_iff.mp (hall i h)
      exact ⟨places, ⟨hlength, hends, fun i hi => (hrow i (by omega)).1, fun i h => (hrow i h).2.1,
        fun i h => (hrow i h).2.2.1, fun i h => (hrow i h).2.2.2⟩, rfl⟩
    · exact nomatch h
  · rintro ⟨places, hselects, rfl⟩
    have hall : (List.range (m.rows - 1)).mapM (pickedOrdinate? m) = some places :=
      (hpicked places).mpr ⟨hselects.length_eq, fun i h => pickedOrdinate?_eq_some_iff.mpr
        ⟨hselects.offset i (hselects.length_eq ▸ h), hselects.lt i h, hselects.one i h,
          hselects.zero i h⟩⟩
    simp [selection?, hselects.endsAffine, hall]

/-- Which matrices `selection?` reads as selections, row by row. -/
theorem isSome_selection?_iff [UnitsApart α] {m : Matrix α} :
    (selection? m).isSome = true ↔
      ((m.entry (m.rows - 1) (m.cols - 1) == 1) = true ∧
        ∀ j, j < m.cols - 1 → (m.entry (m.rows - 1) j == 0) = true) ∧
      ∀ i, i < m.rows - 1 → (m.entry i (m.cols - 1) == 0) = true ∧
        ∃ j, j < m.cols - 1 ∧ (m.entry i j == 1) = true ∧
          ∀ k, k < m.cols - 1 → k ≠ j → (m.entry i k == 0) = true := by
  rw [← Matrix.endsAffine_iff, Option.isSome_iff_exists]
  constructor
  · rintro ⟨t, ht⟩
    obtain ⟨places, hselects, -⟩ := selection?_eq_some_iff.mp ht
    refine ⟨hselects.endsAffine, fun i hi => ⟨hselects.offset i hi, ?_⟩⟩
    have hi' : i < places.length := by rw [hselects.length_eq]; exact hi
    exact ⟨places[i], hselects.lt i hi', hselects.one i hi', hselects.zero i hi'⟩
  · rintro ⟨hends, hrow⟩
    -- The rows name their ordinates one by one; together these are the places.
    choose! offset place hlt hone hzero using hrow
    have hplace (i : Nat) (h : i < ((List.range (m.rows - 1)).map place).length) :
        ((List.range (m.rows - 1)).map place)[i] = place i ∧ i < m.rows - 1 := by
      simpa using h
    refine ⟨_, selection?_eq_some_iff.mpr ⟨(List.range (m.rows - 1)).map place,
      ⟨by simp, hends, offset, fun i h => ?_, fun i h => ?_, fun i h => ?_⟩, rfl⟩⟩
    · rw [(hplace i h).1]; exact hlt i (hplace i h).2
    · rw [(hplace i h).1]; exact hone i (hplace i h).2
    · rw [(hplace i h).1]; exact hzero i (hplace i h).2

/-- Only zeros and ones are looked for, so matrices with the same ones of both select alike. -/
theorem Selects.congr {a b : Matrix α} {places : List Nat} (h : Matrix.SameUnits a b)
    (hrows : 1 ≤ a.rows) (hcols : 1 ≤ a.cols) (hb : Selects b places) : Selects a places where
  length_eq := by rw [hb.length_eq, h.rows_eq]
  endsAffine := by rw [Matrix.endsAffine_congr h hrows hcols, hb.endsAffine]
  offset i hi := by
    rw [h.beq_zero _ _ (by omega) (by omega), h.cols_eq]
    exact hb.offset i (by rw [← h.rows_eq]; exact hi)
  lt i hi := by rw [h.cols_eq]; exact hb.lt i hi
  one i hi := by
    have hlt := hb.lt i hi
    have hlength := hb.length_eq
    rw [h.beq_one _ _ (by rw [h.rows_eq]; omega) (by rw [h.cols_eq]; omega)]
    exact hb.one i hi
  zero i hi j hj hne := by
    have hlength := hb.length_eq
    rw [h.beq_zero _ _ (by rw [h.rows_eq]; omega) (by omega)]
    exact hb.zero i hi j (by rw [← h.cols_eq]; exact hj) hne

end Reading

/-! ## The matrix of a selection -/

/-- What is counted from the front is its own `ordinatePlace`. -/
@[simp] theorem ordinatePlace_natCast (count j : Nat) : ordinatePlace count (j : Int) = j := by
  unfold ordinatePlace
  rw [if_neg (by omega), Int.toNat_natCast]

/-- `selectionMatrix` has a row for each index, and one more. -/
@[simp] theorem rows_selectionMatrix (source : Nat) (indices : List Int) :
    (selectionMatrix source indices : Matrix α).rows = indices.length + 1 := rfl

/-- `selectionMatrix` has a column for each ordinate, and one more. -/
@[simp] theorem cols_selectionMatrix (source : Nat) (indices : List Int) :
    (selectionMatrix source indices : Matrix α).cols = source + 1 := rfl

/-- Row `i` of `selectionMatrix` has its one at the place that index `i` means. -/
theorem entry_selectionMatrix {source : Nat} {indices : List Int} {i j : Nat}
    (hi : i < indices.length) (hlt : ordinatePlace source indices[i] < source) (hj : j < source + 1) :
    (selectionMatrix source indices : Matrix α).entry i j =
      if j = ordinatePlace source indices[i] then 1 else 0 := by
  rw [selectionMatrix, Matrix.entry_ofFn (Nat.lt_succ_of_lt hi) hj]
  simp only [List.getElem?_eq_getElem hi]
  by_cases h : j = ordinatePlace source indices[i]
  · rw [if_pos ⟨h.symm, by omega⟩, if_pos h]
  · rw [if_neg (fun hj => h hj.1.symm), if_neg h]

/-- The same for places counted from the front, with no `ordinatePlace` left. -/
theorem entry_selectionMatrix_natCast {source : Nat} {places : List Nat} {i j : Nat}
    (hi : i < places.length) (hlt : places[i] < source) (hj : j < source + 1) :
    (selectionMatrix source (places.map fun (j : Nat) => (j : Int)) : Matrix α).entry i j =
      if j = places[i] then 1 else 0 := by
  rw [entry_selectionMatrix (by simpa using hi) (by simpa using hlt) hj]
  simp

/-- The last row of `selectionMatrix` has its one at the end. -/
theorem entry_selectionMatrix_last {source : Nat} {indices : List Int} {i j : Nat}
    (hi : i = indices.length) (hj : j < source + 1) :
    (selectionMatrix source indices : Matrix α).entry i j =
      if j = source then 1 else 0 := by
  subst hi
  rw [selectionMatrix, Matrix.entry_ofFn (Nat.lt_succ_self _) hj]
  simp

/-- `selectionMatrix` ends in an affine row. -/
theorem endsAffine_selectionMatrix [BEq α] [UnitsApart α] (source : Nat) (indices : List Int) :
    (selectionMatrix source indices : Matrix α).endsAffine = true := by
  refine Matrix.endsAffine_iff.mpr ⟨?_, fun j hj => ?_⟩
  · simp only [rows_selectionMatrix, cols_selectionMatrix, Nat.add_sub_cancel]
    rw [entry_selectionMatrix_last rfl (Nat.lt_succ_self _), if_pos rfl]
    exact UnitsApart.one_beq_one
  · simp only [rows_selectionMatrix, cols_selectionMatrix, Nat.add_sub_cancel] at hj ⊢
    rw [entry_selectionMatrix_last rfl (Nat.lt_succ_of_lt hj), if_neg (Nat.ne_of_lt hj)]
    exact UnitsApart.zero_beq_zero

/-- `selectionMatrix` selects the ordinates it was made for. -/
theorem selects_selectionMatrix [BEq α] [UnitsApart α] {source : Nat} {places : List Nat}
    (hlt : ∀ i (h : i < places.length), places[i] < source) :
    Selects (selectionMatrix source (places.map fun (j : Nat) => (j : Int)) : Matrix α) places where
  length_eq := by simp
  endsAffine := endsAffine_selectionMatrix source _
  offset i hi := by
    simp only [rows_selectionMatrix, cols_selectionMatrix, Nat.add_sub_cancel,
      List.length_map] at hi ⊢
    rw [entry_selectionMatrix_natCast hi (hlt i hi) (Nat.lt_succ_self _),
      if_neg (Nat.ne_of_gt (hlt i hi))]
    exact UnitsApart.zero_beq_zero
  lt i hi := by simpa using hlt i hi
  one i hi := by
    rw [entry_selectionMatrix_natCast hi (hlt i hi) (Nat.lt_succ_of_lt (hlt i hi)), if_pos rfl]
    exact UnitsApart.one_beq_one
  zero i hi j hj hne := by
    simp only [cols_selectionMatrix, Nat.add_sub_cancel] at hj
    rw [entry_selectionMatrix_natCast hi (hlt i hi) (Nat.lt_succ_of_lt hj), if_neg hne]
    exact UnitsApart.zero_beq_zero

/-- Only the selection of all ordinates in their order has an identity matrix, as `isIdentity` sees
    it. -/
theorem isIdentity_selectionMatrix_iff [BEq α] [UnitsApart α] {source : Nat} {places : List Nat}
    (hlt : ∀ i (h : i < places.length), places[i] < source) :
    (selectionMatrix source (places.map fun (j : Nat) => (j : Int)) : Matrix α).isIdentity = true ↔
      places = List.range source := by
  rw [Matrix.isIdentity_iff]
  simp only [rows_selectionMatrix, cols_selectionMatrix, List.length_map]
  constructor
  · rintro ⟨hsquare, hentry⟩
    refine List.ext_getElem (by rw [List.length_range]; omega) fun i hi _ => ?_
    rw [List.getElem_range]
    -- Row `i` has its one in column `i`, and a selection has no other.
    have hone := hentry i (by omega) i (by omega)
    rw [entry_selectionMatrix_natCast hi (hlt i hi) (by omega), if_pos rfl] at hone
    by_contra hne
    rw [if_neg (Ne.symm hne), UnitsApart.zero_beq_one] at hone
    exact nomatch hone
  · intro hplaces
    have hlength : places.length = source := by rw [hplaces, List.length_range]
    refine ⟨by omega, fun i hi j hj => ?_⟩
    by_cases hlast : i = places.length
    · rw [entry_selectionMatrix_last (by rw [hlast, List.length_map]) hj]
      by_cases h : j = source
      · rw [if_pos h, if_pos (by omega)]
        exact UnitsApart.one_beq_one
      · rw [if_neg h, if_neg (by omega)]
        exact UnitsApart.zero_beq_zero
    · have hi' : i < places.length := by omega
      have hplace : places[i] = i := by simp [hplaces]
      rw [entry_selectionMatrix_natCast hi' (hlt i hi') hj, hplace]
      by_cases h : j = i
      · rw [if_pos h, if_pos h.symm]
        exact UnitsApart.one_beq_one
      · rw [if_neg h, if_neg (Ne.symm h)]
        exact UnitsApart.zero_beq_zero

end LinearTransform

/-! ## Permutations -/

namespace LinearTransform

/-- A list of the right length that holds all places is a permutation of them. -/
private theorem perm_range_of_forall_mem {n : Nat} {places : List Nat} (hlength : places.length = n)
    (hmem : ∀ i, i < n → i ∈ places) : places.Perm (List.range n) := by
  have hsub : List.range n ⊆ places := fun i hi => hmem i (List.mem_range.mp hi)
  exact ((List.subperm_of_subset List.nodup_range hsub).perm_of_length_le
    (by rw [List.length_range, hlength])).symm

/-- What `isPermutation` asks for is a permutation of all places. -/
theorem isPermutation_iff {n : Nat} {places : List Nat} :
    isPermutation n (places.map fun (j : Nat) => (j : Int)) = true ↔
      places.Perm (List.range n) := by
  have hmem (i : Nat) : (i : Int) ∈ places.map (fun (j : Nat) => (j : Int)) ↔ i ∈ places := by
    rw [List.mem_map]
    exact ⟨fun ⟨j, hj, h⟩ => Int.ofNat_inj.mp h ▸ hj, fun h => ⟨i, h, rfl⟩⟩
  simp only [isPermutation, Bool.and_eq_true, beq_iff_eq, List.length_map, List.all_eq_true,
    List.mem_range, List.contains_iff_mem, hmem]
  constructor
  · rintro ⟨hlength, hall⟩
    exact perm_range_of_forall_mem hlength hall
  · intro hperm
    exact ⟨by rw [hperm.length_eq, List.length_range],
      fun i hi => hperm.mem_iff.mpr (List.mem_range.mpr hi)⟩

/-- The indices of a permutation are counted from the front: `isPermutation` looks for each place
    under its own number. -/
theorem exists_places_of_isPermutation {n : Nat} {indices : List Int}
    (h : isPermutation n indices = true) :
    ∃ places : List Nat, indices = places.map (fun (j : Nat) => (j : Int)) ∧
      places.Perm (List.range n) := by
  have hparts := h
  simp only [isPermutation, Bool.and_eq_true, beq_iff_eq, List.all_eq_true, List.mem_range,
    List.contains_iff_mem] at hparts
  obtain ⟨hlength, hall⟩ := hparts
  -- All places are among the indices, and there is no room for anything else.
  have hsub : (List.range n).map (fun (i : Nat) => (i : Int)) ⊆ indices := fun x hx => by
    obtain ⟨i, hi, rfl⟩ := List.mem_map.mp hx
    exact hall i (List.mem_range.mp hi)
  have hnodup : ((List.range n).map fun (i : Nat) => (i : Int)).Nodup :=
    List.nodup_range.map fun _ _ heq => Int.ofNat_inj.mp heq
  have hperm := (hnodup.subperm hsub).perm_of_length_le (by simp [hlength])
  have hplaces : indices = (indices.map Int.toNat).map fun (j : Nat) => (j : Int) := by
    rw [List.map_map]
    refine (List.map_id indices).symm.trans (List.map_congr_left fun x hx => ?_)
    obtain ⟨i, -, rfl⟩ := List.mem_map.mp (hperm.mem_iff.mpr hx)
    rfl
  rw [hplaces] at h
  exact ⟨_, hplaces, isPermutation_iff.mp h⟩

/-- Where each of `n` places went; `inversePermutation` says it with integers. -/
def inversePlaces (n : Nat) (places : List Nat) : List Nat :=
  (List.range n).map fun i => places.idxOf i

/-- There is one of the `inversePlaces` for each place. -/
@[simp] theorem length_inversePlaces (n : Nat) (places : List Nat) :
    (inversePlaces n places).length = n := by
  simp [inversePlaces]

/-- Place `i` of `inversePlaces` is where `i` is among the places. -/
@[simp] theorem getElem_inversePlaces {n : Nat} {places : List Nat} {i : Nat}
    (h : i < (inversePlaces n places).length) :
    (inversePlaces n places)[i] = places.idxOf i := by
  simp [inversePlaces]

/-- `inversePermutation` of places counted from the front is `inversePlaces`. -/
theorem inversePermutation_natCast (n : Nat) (places : List Nat) :
    inversePermutation n (places.map fun (j : Nat) => (j : Int)) =
      (inversePlaces n places).map fun (j : Nat) => (j : Int) := by
  have hidx (i : Nat) :
      (places.map fun (j : Nat) => (j : Int)).idxOf (i : Int) = places.idxOf i := by
    simp only [List.idxOf, List.findIdx_map]
    congr 1
    funext j
    simp only [Function.comp]
    rw [Bool.eq_iff_iff, beq_iff_eq, beq_iff_eq, Int.ofNat_inj]
  simp [inversePermutation, inversePlaces, hidx]

/-- Places in their order went nowhere: `inversePlaces` leaves them in it. -/
theorem inversePlaces_range (n : Nat) : inversePlaces n (List.range n) = List.range n := by
  refine List.ext_getElem (by simp) fun i hi hi' => ?_
  have hback := (List.nodup_range (n := n)).idxOf_getElem i hi'
  rw [List.getElem_range] at hback ⊢
  rw [getElem_inversePlaces, hback]

section

variable {n : Nat} {places : List Nat} (hperm : places.Perm (List.range n))

include hperm

/-- A permutation of `n` places has `n` of them. -/
theorem length_of_perm_range : places.length = n := by
  rw [hperm.length_eq, List.length_range]

/-- It has no other places. -/
theorem getElem_lt_of_perm_range (i : Nat) (h : i < places.length) : places[i] < n :=
  List.mem_range.mp (hperm.mem_iff.mp (List.getElem_mem h))

/-- Every place is found in a permutation. -/
theorem idxOf_lt_of_perm_range {i : Nat} (hi : i < n) : places.idxOf i < places.length :=
  List.idxOf_lt_length_iff.mpr (hperm.mem_iff.mpr (List.mem_range.mpr hi))

/-- As no place comes twice, each is found where it stands. -/
theorem idxOf_getElem_of_perm_range (i : Nat) (h : i < places.length) :
    places.idxOf places[i] = i :=
  (hperm.nodup_iff.mpr List.nodup_range).idxOf_getElem i h

/-- `inversePlaces` of a permutation is a permutation. -/
theorem perm_inversePlaces : (inversePlaces n places).Perm (List.range n) := by
  -- Place `k` holds a number, and `k` is where that number went.
  refine perm_range_of_forall_mem (length_inversePlaces n places) fun k hk => ?_
  have hk' : k < places.length := by rw [length_of_perm_range hperm]; exact hk
  exact List.mem_map.mpr ⟨places[k],
    List.mem_range.mpr (getElem_lt_of_perm_range hperm k hk'),
    idxOf_getElem_of_perm_range hperm k hk'⟩

/-- Undoing a permutation twice gives the permutation back: `inversePlaces` is an involution. -/
theorem inversePlaces_inversePlaces : inversePlaces n (inversePlaces n places) = places := by
  refine List.ext_getElem ?_ fun i hi hi' => ?_
  · rw [length_inversePlaces, length_of_perm_range hperm]
  · have hlt := getElem_lt_of_perm_range hperm i hi'
    have hback := idxOf_getElem_of_perm_range (perm_inversePlaces hperm) places[i]
      (by rwa [length_inversePlaces])
    rw [getElem_inversePlaces, idxOf_getElem_of_perm_range hperm i hi'] at hback
    rw [getElem_inversePlaces, hback]

end

end LinearTransform

end Georef

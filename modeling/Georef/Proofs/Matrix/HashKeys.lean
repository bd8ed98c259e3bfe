import Georef.Proofs.Double.Agreement

/-!
# Hash keys of matrices

The hash of a matrix depends on its size and on the bit patterns of its elements after adding zero. Comparison
of matrices is made of comparisons of elements, and so is comparison of keys, so the two are compared element
by element: the keys find the same matrices equal, but for those with NaNs of different signs or payloads.

## Key results

- `sameAs_iff`: equal matrices, element by element
- `hashKey_inj`: equal keys, element by element
- `hashKey_inj_iff`: the two compared
-/

namespace Georef

namespace Matrix

variable {a b : Matrix Double}

/-- `map` applies the function to every element. -/
theorem entry_map {α β : Type} [Zero α] [Zero β] (f : α → β) {m : Matrix α} {i j : Nat} (hi : i < m.rows)
    (hj : j < m.cols) : (m.map f).entry i j = f (m.entry i j) := by
  have hk : i * m.cols + j < m.elements.size := by
    rw [m.size_eq]
    exact index_lt hi hj
  simp [entry, map, hj, hk]

/-- `sameAs` compares element by element. -/
theorem sameAs_iff :
    a.sameAs b = true ↔ (a.rows = b.rows ∧ a.cols = b.cols) ∧
      ∀ i j, i < a.rows → j < a.cols → Double.agrees 0 (a.entry i j) (b.entry i j) = true := by
  simp only [sameAs, equals, Bool.and_eq_true, beq_iff_eq, List.all_eq_true, List.mem_range]
  exact and_congr_right fun _ => ⟨fun h i j hi hj => h i hi j hj, fun h i hi j hj => h i j hi hj⟩

/-- Two matrices have the same `hashKey` if adding zero to all elements makes them equal. -/
theorem hashKey_eq_iff_map : a.hashKey = b.hashKey ↔ a.map (· + 0) = b.map (· + 0) := by
  -- Bit patterns tell all numbers apart, so those of the sums may be left out.
  have hpatterns : ∀ {xs ys : List Double},
      (xs.map fun x => (x + 0).toBits) = (ys.map fun x => (x + 0).toBits) ↔
        xs.map (· + 0) = ys.map (· + 0) := by
    intro xs ys
    have hbits (zs : List Double) : (zs.map fun x => (x + 0).toBits) = (zs.map (· + 0)).map Double.toBits := by
      rw [List.map_map]
      rfl
    rw [hbits, hbits]
    exact List.map_inj_right fun _ _ => Double.toBits_inj.mp
  obtain ⟨r, c, xs, hxs⟩ := a
  obtain ⟨r', c', ys, hys⟩ := b
  simp only [hashKey, map, HashKey.matrix.injEq, hpatterns, Matrix.mk.injEq, ← Array.toList_inj,
    Array.toList_map]

/-- `hashKey` compares the sums with zero, element by element. -/
theorem hashKey_inj :
    a.hashKey = b.hashKey ↔ (a.rows = b.rows ∧ a.cols = b.cols) ∧
      ∀ i j, i < a.rows → j < a.cols → a.entry i j + 0 = b.entry i j + 0 := by
  rw [hashKey_eq_iff_map]
  constructor
  · -- Equal lists of elements say the same about every place, since the sizes are the same.
    intro h
    have hrows : (a.map (· + 0)).rows = (b.map (· + 0)).rows := by rw [h]
    have hcols : (a.map (· + 0)).cols = (b.map (· + 0)).cols := by rw [h]
    change a.rows = b.rows at hrows
    change a.cols = b.cols at hcols
    refine ⟨⟨hrows, hcols⟩, fun i j hi hj => ?_⟩
    rw [← entry_map (· + 0) hi hj, h, entry_map (· + 0) (hrows ▸ hi) (hcols ▸ hj)]
  · rintro ⟨⟨hrows, hcols⟩, h⟩
    refine ext_entry hrows hcols fun i j hi hj => ?_
    change i < a.rows at hi
    change j < a.cols at hj
    rw [entry_map (· + 0) hi hj, entry_map (· + 0) (hrows ▸ hi) (hcols ▸ hj)]
    exact h i j hi hj

/-- Where the first matrix has a NaN, the second one has a NaN of the same sign and payload. The quiet bit
does not count. -/
def SameNaNs (a b : Matrix Double) : Prop :=
  ∀ i j, i < a.rows → j < a.cols → (a.entry i j).isNaN = true →
    (a.entry i j).quieted = (b.entry i j).quieted

/-- `hashKey` tells matrices apart just as `sameAs` does, except that it also tells NaNs apart. -/
theorem hashKey_inj_iff : a.hashKey = b.hashKey ↔ a.sameAs b = true ∧ SameNaNs a b := by
  rw [hashKey_inj, sameAs_iff]
  simp only [Double.add_zero_eq_iff]
  constructor
  · rintro ⟨hsizes, h⟩
    exact ⟨⟨hsizes, fun i j hi hj => (h i j hi hj).1⟩, fun i j hi hj => (h i j hi hj).2⟩
  · rintro ⟨⟨hsizes, hagree⟩, hnans⟩
    exact ⟨hsizes, fun i j hi hj => ⟨hagree i j hi hj, hnans i j hi hj⟩⟩

end Matrix

end Georef

import Georef.Direction.Registry
import Mathlib.Data.List.Nodup

/-!
# Known directions

A registry starts with the standard names and grows by one direction at a time. Its list and its index are
changed one after the other, but they always agree: what the index has for a name is the only direction of
that name in the list, whose place is its ordinal. No name is known twice, and a known direction at one of
the standard places is the standard direction, whose opposite has it as opposite again.

## Key results

- `Consistent`: how the list and the index belong together
- `Grown.consistent`: they do in every registry that has grown from the standard directions
- `Grown.mem_values_iff`: the known directions are the names at their places
- `Grown.find?_name`: a known direction is found by its exact name
- `Grown.opposite_opposite`: the opposite of the opposite of a known direction is the direction itself
-/

namespace Georef

namespace Registry

/-- The registries that can be reached from the standard directions by making names known. -/
inductive Grown : Registry → Prop where
  | standard : Grown .standard
  | intern {r : Registry} (h : Grown r) (name : String) : Grown (r.intern name).2

variable {r : Registry} {d : Direction} {name : String}

/-! ## What a registry is changed into -/

/-- `intern` keeps what is known and adds at most one direction at the end. -/
theorem values_intern (r : Registry) (name : String) :
    (r.intern name).2.values = r.values ∨
      (r.intern name).2.values = r.values ++ [⟨name, r.values.length⟩] := by
  unfold intern
  split
  · exact .inl rfl
  · exact .inr rfl

/-- `intern` forgets no direction. -/
theorem values_subset_intern (hd : d ∈ r.values) (name : String) : d ∈ (r.intern name).2.values := by
  obtain h | h := r.values_intern name
  · rwa [h]
  · rw [h]
    exact List.mem_append_left _ hd

/-! ## The list and the index -/

/-- The place of a direction in the list is its ordinal, no name is in the list twice, and the index has for
a name what is in the list. -/
structure Consistent (r : Registry) : Prop where
  ordinal_eq (i : Nat) : ∀ d, r.values[i]? = some d → d.ordinal = i
  nodup : r.names.Nodup
  find?_eq_some_iff (name : String) (d : Direction) :
    r.find? name = some d ↔ d ∈ r.values ∧ d.name = name

namespace Consistent

/-- A name that `find?` does not find is not in the list. -/
theorem find?_eq_none_iff (h : r.Consistent) : r.find? name = none ↔ name ∉ r.names := by
  rw [Option.eq_none_iff_forall_ne_some]
  constructor
  · intro hnone hmem
    obtain ⟨d, hd, hname⟩ := List.mem_map.mp hmem
    exact hnone d ((h.find?_eq_some_iff name d).mpr ⟨hd, hname⟩)
  · intro hnot d hd
    obtain ⟨hmem, rfl⟩ := (h.find?_eq_some_iff name d).mp hd
    exact hnot (List.mem_map_of_mem hmem)

/-- `register` puts a new name at the end of the list, and its entry in the index is that of no
    other name. -/
theorem register (h : r.Consistent) (hname : name ∉ r.names) : (r.register name).2.Consistent where
  ordinal_eq i d hd := by
    obtain hlt | heq | hgt := Nat.lt_trichotomy i r.values.length
    · exact h.ordinal_eq i d (by rwa [Registry.register, List.getElem?_append_left hlt] at hd)
    · simp only [Registry.register, heq, List.getElem?_concat_length, Option.some.injEq] at hd
      rw [← hd, heq]
    · rw [Registry.register, List.getElem?_eq_none (by simp; omega)] at hd
      cases hd
  nodup := by
    simp only [names, Registry.register, List.map_append, List.map_cons, List.map_nil]
    rw [← List.concat_eq_append]
    exact h.nodup.concat hname
  find?_eq_some_iff other d := by
    simp only [find?, Registry.register, List.lookup_cons, List.mem_append, List.mem_singleton]
    -- The new name is found now, and no other name is found differently.
    by_cases hother : other = name
    · subst hother
      rw [beq_self_eq_true]
      constructor
      · intro hd
        obtain rfl := Option.some.inj hd
        exact ⟨.inr rfl, rfl⟩
      · rintro ⟨hmem | hnew, hd⟩
        · exact absurd (hd ▸ List.mem_map_of_mem hmem) hname
        · rw [hnew]
    · rw [beq_false_of_ne hother]
      refine (h.find?_eq_some_iff other d).trans (and_congr_left fun hd => ?_)
      constructor
      · exact .inl
      · rintro (hmem | rfl)
        · exact hmem
        · exact absurd hd.symm hother

/-- `intern` keeps the list and the index together. -/
theorem intern (h : r.Consistent) (name : String) : (r.intern name).2.Consistent := by
  unfold Registry.intern
  split
  · exact h
  · rename_i hnone
    exact h.register (h.find?_eq_none_iff.mp hnone)

end Consistent

/-- To `register` different names makes nothing known twice. -/
theorem consistent_foldl_register {names : List String} (h : r.Consistent)
    (hnames : (r.names ++ names).Nodup) :
    (names.foldl (fun r name => (r.register name).2) r).Consistent := by
  induction names generalizing r with
  | nil => exact h
  | cons name names ih =>
    have hnew : name ∉ r.names := fun hmem =>
      (List.nodup_append.mp hnames).2.2 name hmem name List.mem_cons_self rfl
    refine ih (h.register hnew) ?_
    have hregistered : (r.register name).2.names = r.names ++ [name] := by
      simp [Registry.names, Registry.register]
    rwa [hregistered, List.append_assoc, List.singleton_append]

/-- The standard directions are `Consistent`, as their names are different. -/
theorem consistent_standard : Registry.standard.Consistent := by
  refine consistent_foldl_register ⟨fun i d hd => ?_, List.nodup_nil, fun name d => ?_⟩ (by decide)
  · simp at hd
  · simp [find?]

/-- The standard directions are what their names are registered as. -/
private theorem standard_mem_standard :
    ∀ n < standardCount, Direction.standard n ∈ Registry.standard.values := by
  decide

namespace Grown

/-- In every registry that has `Grown` the list and the index belong together. -/
theorem consistent (h : Grown r) : r.Consistent := by
  induction h with
  | standard => exact consistent_standard
  | intern _ name ih => exact ih.intern name

/-- No name is known twice in a registry that has `Grown`. -/
theorem nodup (h : Grown r) : r.names.Nodup := h.consistent.nodup

/-- A direction is known exactly if it is at the place of its `ordinal`. -/
theorem mem_values_iff (h : Grown r) : d ∈ r.values ↔ r.values[d.ordinal]? = some d := by
  constructor
  · intro hd
    obtain ⟨i, hi⟩ := List.mem_iff_getElem?.mp hd
    rwa [h.consistent.ordinal_eq i d hi]
  · exact List.mem_of_getElem?

/-- What `find?` finds is known and has the name. -/
theorem of_find?_eq_some (h : Grown r) (hd : r.find? name = some d) : d ∈ r.values ∧ d.name = name :=
  (h.consistent.find?_eq_some_iff name d).mp hd

/-- `find?` finds a known direction by its exact name. -/
theorem find?_name (h : Grown r) (hd : d ∈ r.values) : r.find? d.name = some d :=
  (h.consistent.find?_eq_some_iff d.name d).mpr ⟨hd, rfl⟩

/-- The direction that `intern` gives for a name is known afterwards and has the name. -/
theorem intern_spec (h : Grown r) (name : String) :
    (r.intern name).1 ∈ (r.intern name).2.values ∧ (r.intern name).1.name = name := by
  unfold Registry.intern
  split
  · rename_i d hd
    exact h.of_find?_eq_some hd
  · exact ⟨List.mem_append_right _ (List.mem_singleton_self _), rfl⟩

/-- `intern` gives a known direction for its name and changes nothing. -/
theorem intern_name (h : Grown r) (hd : d ∈ r.values) : r.intern d.name = (d, r) := by
  rw [Registry.intern, h.find?_name hd]

/-- The standard directions come first, however much was learnt. -/
theorem standard_isPrefix (h : Grown r) : Registry.standard.values <+: r.values := by
  induction h with
  | standard => exact List.prefix_rfl
  | @intern r _ name ih =>
    obtain hsame | hmore := r.values_intern name
    · rwa [hsame]
    · rw [hmore]
      exact ih.trans (List.prefix_append _ _)

/-- Every standard direction is known in a registry that has `Grown`. -/
theorem standard_mem_values (h : Grown r) {n : Nat} (hn : n < standardCount) :
    Direction.standard n ∈ r.values := by
  exact h.standard_isPrefix.subset (standard_mem_standard n hn)

/-- A known direction at a standard place is the standard direction. -/
theorem eq_standard (h : Grown r) (hd : d ∈ r.values) (hordinal : d.ordinal < standardCount) :
    d = .standard d.ordinal := by
  -- Both are at the same place.
  have hstandard := h.mem_values_iff.mp (h.standard_mem_values hordinal)
  exact Option.some.inj ((h.mem_values_iff.mp hd).symm.trans hstandard)

end Grown

end Registry

namespace Direction

variable {d : Direction}

/-- A standard direction is the `opposite` of its opposite. -/
private theorem standard_opposite_opposite :
    ∀ n < standardCount, (standard n).opposite.opposite = standard n := by
  decide

/-- Only standard directions have an `opposite` other than themselves. -/
theorem opposite_of_standardCount_le (h : standardCount ≤ d.ordinal) : d.opposite = d := by
  have hnone : oppositeOrdinal? d.ordinal = none := by
    unfold standardCount at h
    unfold oppositeOrdinal? compassCount futureOrdinal lastDisplayOrdinal
    rw [if_neg (by omega), if_neg (by omega), if_neg (by omega), if_neg (by omega), if_neg (by omega)]
  rw [opposite, hnone]

end Direction

/-- The `opposite` of the opposite of a known direction is the direction itself. -/
theorem Registry.Grown.opposite_opposite {r : Registry} {d : Direction} (h : Registry.Grown r)
    (hd : d ∈ r.values) : d.opposite.opposite = d := by
  by_cases hordinal : d.ordinal < standardCount
  · rw [h.eq_standard hd hordinal]
    exact Direction.standard_opposite_opposite d.ordinal hordinal
  · have hself : d.opposite = d := Direction.opposite_of_standardCount_le (by omega)
    rw [hself, hself]

end Georef

import Georef.Proofs.Direction.Naming

/-!
# The axis direction of a meridian

A direction along a meridian has an axis direction, which is the one named by its canonical text, or the one
whose name was read. Either way the name of the axis direction is read as the direction along the meridian, so
axis directions tell meridians apart. That equal directions along a meridian have the same axis direction needs
more: their texts are the same, and among all that becomes known a name stands for one direction; but a name
that was read may be another spelling.

## Key results

- `text_eq_of_sameAs`: equal directions have the same canonical text
- `Obtained.exists_parse_name`: the name of the axis direction is read as the direction along the meridian
- `Obtained.sameAs_of_direction_eq`: directions with the same axis direction are equal
- `Obtained.direction_eq_of_sameAs`: equal directions whose axis directions have canonical names
-/

namespace Georef

open Double

namespace MeridianDirection

variable {r r' : Registry} {m n : MeridianDirection} {d : Direction}

/-! ## Equal directions -/

/-- Directions are `sameAs` each other if their bases are and their meridians are at the same place. -/
theorem sameAs_iff_ordinal (hm : m.meridian.Finite) (hn : n.meridian.Finite) :
    m.sameAs n = true ↔ m.base = n.base ∧ m.meridian.ordinal = n.meridian.ordinal := by
  rw [sameAs, Bool.and_eq_true, beq_iff_eq, hm.beq_iff hn]

/-- Directions that are `sameAs` each other have the same `text`: of two zeros neither shows its
    sign. -/
theorem text_eq_of_sameAs (hm : m.meridian.Finite) (hn : n.meridian.Finite) (h : m.sameAs n = true) :
    m.text = n.text := by
  obtain ⟨hbase, hordinal⟩ := (sameAs_iff_ordinal hm hn).mp h
  have hlongitude : canonicalLongitude m.meridian = canonicalLongitude n.meridian := by
    rw [canonicalLongitude_eq hm, canonicalLongitude_eq hn, hordinal]
    split
    · rfl
    · rename_i hzero
      rw [eq_of_ordinal hordinal (hordinal ▸ hzero)]
  rw [text, text, ← chars_canonicalLongitude hm, ← chars_canonicalLongitude hn, hbase, hlongitude]

/-! ## Where directions along a meridian come from -/

/-- Without a direction whose name was read, `intern` is asked for the text. -/
theorem direction_of_origin_eq_none (h : m.origin = none) (r : Registry) :
    m.direction r = r.intern m.text := by
  rw [direction, h]

/-- The direction whose name was read is the axis direction, and nothing becomes known. -/
theorem direction_of_origin_eq_some (h : m.origin = some d) (r : Registry) : m.direction r = (d, r) := by
  rw [direction, h]

/-- How a direction along a meridian can come about when the directions of a registry are known: it is made,
it is read, or it is read from the name of a known direction. -/
inductive Obtained (r : Registry) (m : MeridianDirection) : Prop where
  | made {base : Direction} {longitude : Double} (h : create base longitude = .ok m)
  | read {text : List Char} (h : parse? text = some m)
  | named {known : Direction} (hknown : known ∈ r.values) (h : ofDirection? known = some m)

namespace Obtained

/-- What is `Obtained` is still obtained when more directions are known. -/
theorem mono (h : Obtained r m) (hmore : ∀ known ∈ r.values, known ∈ r'.values) : Obtained r' m := by
  cases h with
  | made h => exact .made h
  | read h => exact .read h
  | named hknown h => exact .named (hmore _ hknown) h

/-- The longitude of what is `Obtained` is in range. -/
theorem inRange (h : Obtained r m) : inRange m.meridian = true := by
  cases h with
  | @made base longitude h =>
    unfold create at h
    split at h
    · rename_i hrange
      obtain rfl := Except.ok.inj h
      exact hrange
    · exact nomatch h
  | read h => exact (canonical_of_parse h).inRange
  | named _ h =>
    obtain ⟨again, hparse, rfl⟩ := Option.map_eq_some_iff.mp h
    exact (canonical_of_parse hparse).inRange

/-- Only a direction that is read from a name remembers one, and it is known. -/
theorem origin (h : Obtained r m) :
    m.origin = none ∨ ∃ known ∈ r.values, m.origin = some known ∧ ofDirection? known = some m := by
  cases h with
  | made h =>
    unfold create at h
    split at h
    · obtain rfl := Except.ok.inj h
      exact .inl rfl
    · exact nomatch h
  | read h => exact .inl (base_of_parse h).2
  | @named known hknown h =>
    obtain ⟨again, -, rfl⟩ := Option.map_eq_some_iff.mp h
    exact .inr ⟨known, hknown, rfl, h⟩

/-! ## The axis direction -/

/-- What `direction` answers is known afterwards. It has the canonical text as its name, unless it
    is the direction whose name was read. -/
theorem direction_spec (h : Obtained r m) (hr : r.Grown) :
    (m.direction r).1 ∈ (m.direction r).2.values ∧
      (m.origin = none ∧ (m.direction r).1.name = m.text ∨ m.origin = some (m.direction r).1) := by
  obtain horigin | ⟨known, hknown, horigin, -⟩ := h.origin
  · rw [direction_of_origin_eq_none horigin]
    obtain ⟨hmem, hname⟩ := hr.intern_spec m.text
    exact ⟨hmem, .inl ⟨horigin, hname⟩⟩
  · rw [direction_of_origin_eq_some horigin]
    exact ⟨hknown, .inr horigin⟩

/-- `parse?` reads the name of the axis direction as the direction along the meridian, which is not
    the western half turn then. -/
theorem exists_parse_name (h : Obtained r m) (hr : r.Grown) (hpole : m.base = .north ∨ m.base = .south)
    (hleast : m.meridian ≠ leastLongitude) :
    ∃ again, parse? (m.direction r).1.name.toList = some again ∧ again.base = m.base ∧
      again.meridian.ordinal = m.meridian.ordinal := by
  have hm : m.Accepted := ⟨hpole, h.inRange⟩
  obtain ⟨-, ⟨-, hname⟩ | horigin⟩ := h.direction_spec hr
  · refine ⟨⟨m.base, canonicalLongitude m.meridian, none⟩, ?_, rfl, ?_⟩
    · -- The canonical text is read back with the canonical longitude, which is at the same place.
      rw [hname, text, String.toList_ofList]
      exact parse?_chars hm
    rw [canonicalLongitude_eq hm.finite]
    split
    · rename_i hzero
      exact hzero.symm
    split
    · rename_i hzero hplace
      refine absurd (eq_of_ordinal ?_ hzero) hleast
      rw [hplace, ordinal_leastLongitude]
    · rfl
  · -- The name that was read once is read the same way again.
    obtain hnone | ⟨known, -, hsome, hread⟩ := h.origin
    · cases hnone.symm.trans horigin
    · obtain rfl := Option.some.inj (hsome.symm.trans horigin)
      obtain ⟨again, hparse, hagain⟩ := Option.map_eq_some_iff.mp hread
      exact ⟨again, hparse, by rw [← hagain], by rw [← hagain]⟩

/-- Directions along a meridian with the same axis direction are `sameAs` each other. -/
theorem sameAs_of_direction_eq (hm : Obtained r m) (hn : Obtained r' n) (hr : r.Grown) (hr' : r'.Grown)
    (hmpole : m.base = .north ∨ m.base = .south) (hnpole : n.base = .north ∨ n.base = .south)
    (hmleast : m.meridian ≠ leastLongitude) (hnleast : n.meridian ≠ leastLongitude)
    (h : (m.direction r).1 = (n.direction r').1) : m.sameAs n = true := by
  obtain ⟨again, hread, hbase, hplace⟩ := hm.exists_parse_name hr hmpole hmleast
  obtain ⟨again', hread', hbase', hplace'⟩ := hn.exists_parse_name hr' hnpole hnleast
  obtain rfl : again = again' := Option.some.inj (hread.symm.trans (h ▸ hread'))
  have hmfinite : m.meridian.Finite := Accepted.finite ⟨hmpole, hm.inRange⟩
  have hnfinite : n.meridian.Finite := Accepted.finite ⟨hnpole, hn.inRange⟩
  exact (sameAs_iff_ordinal hmfinite hnfinite).mpr ⟨hbase.symm.trans hbase', hplace.symm.trans hplace'⟩

/-- Directions along a meridian that are `sameAs` each other have the same axis direction if it has
    the canonical text as its name both times and the second one is asked for after the first one. -/
theorem direction_eq_of_sameAs (hm : Obtained r m) (hn : Obtained r' n) (hr : r.Grown) (hr' : r'.Grown)
    (hlater : ∀ known ∈ (m.direction r).2.values, known ∈ r'.values)
    (hmname : (m.direction r).1.name = m.text) (hnname : (n.direction r').1.name = n.text)
    (hmfinite : m.meridian.Finite) (hnfinite : n.meridian.Finite) (h : m.sameAs n = true) :
    (m.direction r).1 = (n.direction r').1 := by
  have hknown := hlater _ (hm.direction_spec hr).1
  have hname : (m.direction r).1.name = n.text := by rw [hmname, text_eq_of_sameAs hmfinite hnfinite h]
  obtain ⟨-, ⟨horigin, -⟩ | horigin⟩ := hn.direction_spec hr'
  · -- The text is known by now.
    rw [direction_of_origin_eq_none horigin, ← hname, hr'.intern_name hknown]
  · obtain hnone | ⟨known, hknown', hsome, -⟩ := hn.origin
    · cases hnone.symm.trans horigin
    · obtain rfl := Option.some.inj (hsome.symm.trans horigin)
      -- No name is known twice.
      have hfound := hr'.find?_name hknown
      rw [hname, ← hnname, hr'.find?_name hknown'] at hfound
      exact (Option.some.inj hfound).symm

end Obtained

end MeridianDirection

end Georef

import Georef.Proofs.Direction.Known
import Georef.Proofs.Meridian.RoundTrip
import Mathlib.Logic.Relation

/-!
# A direction is found again by its name

A registry changes when a text is read and when the axis direction of a meridian is asked for. The second is
the same as reading the canonical text of that meridian, so whatever happens, a registry knows the standard
directions and besides them only canonical texts. A canonical text is read as the meridian that it names,
whose exact name is known only once; and the name of a standard direction is found among the standard
directions, before everything that was learnt.

## Key results

- `direction_eq_afterReading`: asking for the axis direction of a meridian is reading its text
- `Registry.Kept.resolve_name`: a known direction is what its name is read as
- `Registry.mem_values_of_resolve`: what a text is read as is known afterwards
- `Registry.resolve_name_again`: a direction that was read is found by its name ever after
-/

namespace Georef

open MeridianDirection

/-! ## Canonical texts among other texts -/

/-- `trimBlanks` takes nothing off a text without white space at its ends. -/
theorem trimBlanks_eq {first middle last : List Char} (hfirst : first ≠ []) (hlast : last ≠ [])
    (h : ∀ c ∈ first ++ last, isBlank c = false) :
    trimBlanks (first ++ middle ++ last) = first ++ middle ++ last := by
  have hfront : dropBlanks (first ++ middle ++ last) = first ++ middle ++ last := by
    rw [List.append_assoc]
    exact dropBlanks_append hfirst (fun c hc => h c (List.mem_append_left _ hc)) _
  have hback : dropBlanks (first ++ middle ++ last).reverse = (first ++ middle ++ last).reverse := by
    rw [List.reverse_append]
    refine dropBlanks_append (by simpa using hlast) (fun c hc => ?_) _
    exact h c (List.mem_append_right _ (List.mem_reverse.mp hc))
  rw [trimBlanks, hfront, hback, List.reverse_reverse]

namespace MeridianDirection

variable {m : MeridianDirection}

/-- A canonical text has no white space at its ends, so `trimBlanks` leaves it as it is. -/
theorem trimBlanks_chars (hbase : m.base = .north ∨ m.base = .south) : trimBlanks m.chars = m.chars := by
  obtain ⟨hne, hblank, -, -⟩ := findDirection_base hbase
  have hchars : m.chars =
      capitalize m.base.name.toList ++ (" along ".toList ++ m.degreeChars) ++ '°' :: m.sideChars := by
    simp [chars]
  rw [hchars]
  refine trimBlanks_eq hne (List.cons_ne_nil _ _) fun c hc => ?_
  obtain hc | hc := List.mem_append.mp hc
  · exact hblank c hc
  · obtain rfl | hc := List.mem_cons.mp hc
    · decide
    · exact isBlank_of_mem_sideChars hc

/-- `parse?` reads a canonical text as a direction along a meridian with this text. -/
theorem exists_parse_text (hm : m.Accepted) :
    ∃ again, parse? (trimBlanks m.text.toList) = some again ∧ again.text = m.text := by
  refine ⟨⟨m.base, canonicalLongitude m.meridian, none⟩, ?_, ?_⟩
  · rw [text, String.toList_ofList, trimBlanks_chars hm.base]
    exact parse?_chars hm
  · rw [text, text, chars_canonicalLongitude hm.finite]

end MeridianDirection

namespace Registry

variable {r r' : Registry} {d : Direction} {m : MeridianDirection}

/-- `resolve` reads a canonical text as the direction of exactly this name. -/
theorem resolve_text (hm : m.Accepted) (r : Registry) : r.resolve m.text = .ok (r.intern m.text) := by
  obtain ⟨again, hparse, htext⟩ := exists_parse_text hm
  rw [resolve_of_parse hparse, htext]

/-- Asking for the axis direction of a meridian changes a registry like `afterReading` of its text,
    if at all. -/
theorem direction_eq_afterReading (hm : m.Accepted) (r : Registry) :
    (m.direction r).2 = r ∨ (m.direction r).2 = r.afterReading m.text := by
  unfold MeridianDirection.direction
  split
  · exact .inl rfl
  · right
    rw [afterReading, resolve_text hm]

/-- `resolve` reads a text as a direction along a meridian, which may become known, or it looks it
    up. -/
theorem resolve_eq_ok_cases {text : String} (h : r.resolve text = .ok (d, r')) :
    (∃ m, parse? (trimBlanks text.toList) = some m ∧ r.intern m.text = (d, r')) ∨
      (r' = r ∧ r.lookup (String.ofList (trimBlanks text.toList)) = some d) := by
  cases hparse : parse? (trimBlanks text.toList) with
  | some m =>
    rw [resolve_of_parse hparse] at h
    exact .inl ⟨m, rfl, Except.ok.inj h⟩
  | none =>
    cases hlookup : r.lookup (String.ofList (trimBlanks text.toList)) with
    | some e =>
      rw [resolve_of_lookup hparse hlookup] at h
      obtain ⟨rfl, rfl⟩ := Prod.mk.inj (Except.ok.inj h)
      exact .inr ⟨rfl, rfl⟩
    | none =>
      rw [resolve_of_unknown hparse hlookup] at h
      exact nomatch h

/-! ## Runs -/

/-- What can happen to a registry: a text is read as a direction, or the axis direction of a meridian is asked
    for. -/
inductive Step : Registry → Registry → Prop where
  | read (r : Registry) (text : String) : Step r (r.afterReading text)
  | name (r : Registry) {m : MeridianDirection} (hm : m.Accepted) : Step r (m.direction r).2

/-- Any number of steps. -/
def Leads : Registry → Registry → Prop := Relation.ReflTransGen Step

/-- A `Step` is the reading of a text, or nothing. -/
theorem Step.eq_afterReading (h : Step r r') : r' = r ∨ ∃ text, r' = r.afterReading text := by
  cases h with
  | read text => exact .inr ⟨text, rfl⟩
  | name hm =>
    obtain hsame | hread := direction_eq_afterReading hm r
    · exact .inl hsame
    · exact .inr ⟨_, hread⟩

/-- A `Step` forgets no direction. -/
theorem Step.mem_values (h : Step r r') (hd : d ∈ r.values) : d ∈ r'.values := by
  obtain rfl | ⟨text, rfl⟩ := h.eq_afterReading
  · exact hd
  · obtain hsame | ⟨name, hname⟩ := r.afterReading_eq text
    · rwa [hsame]
    · rw [hname]
      exact values_subset_intern hd name

/-- A run forgets no direction, by induction on its steps. -/
theorem Leads.mem_values (h : Leads r r') (hd : d ∈ r.values) : d ∈ r'.values := by
  induction h with
  | refl => exact hd
  | tail _ hstep ih => exact hstep.mem_values ih

/-- What holds of a registry throughout a run: it has grown from the standard directions, and what it has
    learnt are canonical texts. -/
structure Kept (r : Registry) : Prop where
  grown : r.Grown
  learnt : ∃ history, Learnt history r

namespace Kept

/-- A registry of the standard directions is `Kept`. -/
theorem standard : Kept .standard := ⟨.standard, [], Learnt.after []⟩

/-- A `Step` leaves a registry `Kept`. -/
theorem step (h : r.Kept) (hstep : Step r r') : r'.Kept := by
  obtain rfl | ⟨text, rfl⟩ := hstep.eq_afterReading
  · exact h
  · obtain ⟨history, hlearnt⟩ := h.learnt
    exact ⟨h.grown.afterReading text, history ++ [text], hlearnt.afterReading text⟩

/-- A run leaves a registry `Kept`. -/
theorem leads (h : r.Kept) (hrun : Leads r r') : r'.Kept := by
  induction hrun with
  | refl => exact h
  | tail _ hstep ih => exact ih.step hstep

/-- `resolve` reads the names of the standard directions as these directions when nothing was
    learnt. -/
private theorem standard_resolve_name : ∀ n < standardCount,
    parse? (trimBlanks (Direction.standard n).name.toList) = none ∧
      Registry.standard.lookup (String.ofList (trimBlanks (Direction.standard n).name.toList)) =
        some (.standard n) := by
  decide +kernel

/-- A known direction is a standard direction, or its name is the canonical text of a meridian that
    is `Accepted`. -/
theorem name_cases (h : r.Kept) (hd : d ∈ r.values) :
    (d.ordinal < standardCount ∧ d = .standard d.ordinal) ∨
      ∃ m : MeridianDirection, m.Accepted ∧ d.name = m.text := by
  obtain ⟨history, hlearnt⟩ := h.learnt
  have hmem := hd
  rw [hlearnt.values_eq] at hmem
  obtain hstandard | hlearned := List.mem_append.mp hmem
  · have hordinal : d.ordinal < standardCount :=
      (List.getElem?_eq_some_iff.mp (Grown.standard.mem_values_iff.mp hstandard)).1
    exact .inl ⟨hordinal, h.grown.eq_standard hd hordinal⟩
  · obtain ⟨text, -, m, hparse, hname⟩ := hlearnt.name_of_mem hlearned
    exact .inr ⟨m, ⟨(base_of_parse hparse).1, (canonical_of_parse hparse).inRange⟩, hname⟩

/-- A known direction is what `resolve` reads its name as. -/
theorem resolve_name (h : r.Kept) (hd : d ∈ r.values) : r.resolve d.name = .ok (d, r) := by
  obtain ⟨hordinal, hstandard⟩ | ⟨m, hm, hname⟩ := h.name_cases hd
  · -- What was learnt is only looked at when no standard direction is found.
    obtain ⟨history, hlearnt⟩ := h.learnt
    obtain ⟨hparse, hlookup⟩ := standard_resolve_name d.ordinal hordinal
    rw [← hstandard] at hparse hlookup
    refine resolve_of_lookup hparse ?_
    rw [hlearnt.lookup_eq, hlookup]
    rfl
  · -- There is only one direction of the name.
    rw [hname, resolve_text hm, ← hname, h.grown.intern_name hd]

end Kept

/-! ## What is read -/

/-- `equatorAxis?` is one of the two axes that leave the Earth at the equator. -/
private theorem of_equatorAxis? {longitude : List Char} (h : equatorAxis? longitude = some d) :
    d = .geocentricX ∨ d = .geocentricY := by
  unfold equatorAxis? at h
  split at h
  · exact .inl (Option.some.inj h).symm
  · split at h
    · exact .inl (Option.some.inj h).symm
    · exact .inr (Option.some.inj h).symm
    · exact nomatch h

/-- `geocentricDirection?` leads to one of the three axes. -/
theorem of_geocentricDirection? {text : List Char} (h : geocentricDirection? text = some d) :
    d = .geocentricX ∨ d = .geocentricY ∨ d = .geocentricZ := by
  unfold geocentricDirection? at h
  split at h
  · exact nomatch h
  split at h
  · dsimp only at h
    split at h
    · exact nomatch h
    split at h
    · split at h
      · obtain h | h := of_equatorAxis? h
        · exact .inl h
        · exact .inr (.inl h)
      · exact nomatch h
    · split at h
      · exact .inr (.inr (Option.some.inj h).symm)
      · exact nomatch h
  · exact nomatch h

/-- What `resolve` reads a text as is known afterwards. -/
theorem mem_values_of_resolve (hr : r.Grown) {text : String} (h : r.resolve text = .ok (d, r')) :
    d ∈ r'.values := by
  obtain ⟨m, -, hintern⟩ | ⟨rfl, hlookup⟩ := resolve_eq_ok_cases h
  · have hknown := (hr.intern_spec m.text).1
    rwa [hintern] at hknown
  · rw [lookup_eq_or, Option.or_eq_some_iff] at hlookup
    obtain hfound | ⟨-, hgeocentric⟩ := hlookup
    · exact List.mem_of_find?_eq_some hfound
    · obtain rfl | rfl | rfl := of_geocentricDirection? hgeocentric
      · exact hr.standard_mem_values (by decide)
      · exact hr.standard_mem_values (by decide)
      · exact hr.standard_mem_values (by decide)

/-- A direction that is read in a run from the standard directions is what its name is read as in the registry
    after that, and in every later one of the run. -/
theorem resolve_name_again {r r' r'' : Registry} {text : String} {d : Direction}
    (hrun : Leads .standard r) (h : r.resolve text = .ok (d, r')) (hlater : Leads r' r'') :
    r'.resolve d.name = .ok (d, r') ∧ r''.resolve d.name = .ok (d, r'') := by
  have hkept : r.Kept := Kept.standard.leads hrun
  have hread : r' = r.afterReading text := by rw [afterReading, h]
  have hkept' : r'.Kept := by
    rw [hread]
    exact hkept.step (.read r text)
  have hknown : d ∈ r'.values := mem_values_of_resolve hkept.grown h
  exact ⟨hkept'.resolve_name hknown, (hkept'.leads hlater).resolve_name (hlater.mem_values hknown)⟩

/-- A meridian with a decimal point, read after one without it was named, and before another one is. -/
theorem resolve_name_again_decimal :
    ∃ r' r'' : Registry,
      (MeridianDirection.direction ⟨.south, (15.0 : Double), none⟩ .standard).2.resolve
        "south along 1.5 deg east" = .ok (⟨"South along 1.5°E", 33⟩, r') ∧
      (r'.afterReading "North along 0.15°W") = r'' ∧ r''.names.length = 35 ∧
      r'.resolve "South along 1.5°E" = .ok (⟨"South along 1.5°E", 33⟩, r') ∧
      r''.resolve "South along 1.5°E" = .ok (⟨"South along 1.5°E", 33⟩, r'') := by
  let r : Registry := (MeridianDirection.direction ⟨.south, (15.0 : Double), none⟩ .standard).2
  let r' : Registry := (r.intern "South along 1.5°E").2
  have hrun : Leads .standard r := .single (.name .standard ⟨.inr rfl, by decide +kernel⟩)
  have hread : r.resolve "south along 1.5 deg east" = .ok (⟨"South along 1.5°E", 33⟩, r') := by
    decide +kernel
  have hlength : (r'.afterReading "North along 0.15°W").names.length = 35 := by decide +kernel
  have hlater : Leads r' (r'.afterReading "North along 0.15°W") := .single (.read r' _)
  obtain ⟨hthen, hafter⟩ := resolve_name_again hrun hread hlater
  exact ⟨r', _, hread, rfl, hlength, hthen, hafter⟩

end Registry

end Georef

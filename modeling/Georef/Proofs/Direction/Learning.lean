import Georef.Meridian.Lookup
import Georef.Proofs.Direction.Known
import Georef.Proofs.Meridian.Grammar
import Mathlib.Data.List.Induction

/-!
# How a registry learns directions

Reading the name of a direction may make a direction along a meridian known. All that a registry learns in
this way comes after the standard directions and has the canonical text of a meridian for its name. A search
therefore finds standard directions first, as if nothing had been learnt; and no description of a geocentric
direction is taken for a direction along a meridian.

## Key results

- `Learnt.after`: what a registry knows after any texts were read
- `Learnt.lookup_eq`: a lookup answers from the standard directions if it can, and else from what was learnt
- `resolve_of_parse`: the name of a direction along a meridian does not depend on the registry
-/

namespace Georef

/-! ## Characters of a text -/

/-- `dropBlanks` takes nothing but white space away. -/
theorem mem_dropBlanks {c : Char} {text : List Char} (hc : isBlank c = false) (h : c ∈ text) :
    c ∈ dropBlanks text := by
  induction text with
  | nil => exact absurd h List.not_mem_nil
  | cons x text ih =>
    rw [dropBlanks, List.dropWhile_cons]
    split
    · rename_i hx
      obtain rfl | h := List.mem_cons.mp h
      · rw [hc] at hx
        exact nomatch hx
      · exact ih h
    · exact h

/-- `trimBlanks` takes nothing but white space away. -/
theorem mem_trimBlanks {c : Char} {text : List Char} (hc : isBlank c = false) (h : c ∈ text) :
    c ∈ trimBlanks text :=
  List.mem_reverse.mpr (mem_dropBlanks hc (List.mem_reverse.mpr (mem_dropBlanks hc h)))

/-- `dropBlanks` adds nothing. -/
theorem mem_of_mem_dropBlanks {c : Char} {text : List Char} (h : c ∈ dropBlanks text) : c ∈ text :=
  (List.dropWhile_sublist isBlank).subset h

/-- A character that `caseFolding` does not change is still there afterwards. -/
theorem mem_foldCase {c : Char} {text : List Char} (hc : caseFolding.apply c = [c]) (h : c ∈ text) :
    c ∈ foldCase text :=
  List.mem_flatMap.mpr ⟨c, h, hc ▸ List.mem_singleton_self c⟩

/-- `significantChars` of a text that starts with a letter or digit start with its case folding. -/
theorem significantChars_cons {c : Char} (hc : isAlphanumeric c = true) (text : List Char) :
    significantChars (c :: text) = caseFolding.apply c ++ significantChars text := by
  rw [significantChars, List.filter_cons_of_pos hc]
  rfl

/-- A text with a character that is no letter or digit is no acronym, says `isAcronym`. -/
theorem isAcronym_eq_false {c : Char} {text : List Char} (hblank : isBlank c = false)
    (hfold : caseFolding.apply c = [c]) (hc : isAlphanumeric c = false) (h : c ∈ text)
    (words : List Char) : isAcronym text words = false := by
  have hall : (foldCase (trimBlanks text)).all isAlphanumeric = false := by
    rw [List.all_eq_false]
    exact ⟨c, mem_foldCase hfold (mem_trimBlanks hblank h), by simp [hc]⟩
  simp [isAcronym, hall]

/-! ## Directions along a meridian by their texts -/

namespace MeridianDirection

variable {text : List Char} {m : MeridianDirection}

/-- What `parse?` has read is a direction towards a pole, and it comes from no axis direction. -/
theorem base_of_parse (h : parse? text = some m) :
    (m.base = .north ∨ m.base = .south) ∧ m.origin = none := by
  obtain ⟨parts, base, written, westward, -, hbase, hnorth, -, -, -, rfl⟩ := parse?_eq_some_iff.mp h
  exact ⟨(absolute_eq_north_iff hbase).mp hnorth, rfl⟩

/-- The canonical text starts with the name of a pole, so its first letter is one of two. -/
theorem significantChars_chars (h : m.base = .north ∨ m.base = .south) :
    ∃ rest, significantChars m.chars = 'n' :: rest ∨ significantChars m.chars = 's' :: rest := by
  have hnorth : capitalize Direction.north.name.toList = 'N' :: "orth".toList := by decide
  have hsouth : capitalize Direction.south.name.toList = 'S' :: "outh".toList := by decide
  obtain h | h := h
  · rw [chars, h, hnorth, List.cons_append, List.cons_append, List.cons_append,
      significantChars_cons (by decide)]
    exact ⟨_, .inl rfl⟩
  · rw [chars, h, hsouth, List.cons_append, List.cons_append, List.cons_append,
      significantChars_cons (by decide)]
    exact ⟨_, .inr rfl⟩

end MeridianDirection

/-! ## Geocentric directions by their descriptions -/

/-- The description of a geocentric direction starts with its first letter and has an arrow, or
    `geocentricDirection?` does not read it. -/
theorem chars_of_geocentric {text : List Char} {d : Direction}
    (h : geocentricDirection? text = some d) :
    (∃ rest, significantChars text = 'g' :: rest) ∧ '>' ∈ text := by
  unfold geocentricDirection? at h
  split at h
  · exact nomatch h
  rename_i afterCentre hcentre
  obtain ⟨written, hwritten, rfl⟩ := (afterWord?_eq_some_iff (by decide)).mp hcentre
  obtain ⟨c, rest, hc, -, rfl⟩ := List.forall₂_cons_right_iff.mp hwritten
  split at h
  · rename_i afterSign hsign
    refine ⟨?_, List.mem_append_right _ (mem_of_mem_dropBlanks (hsign ▸ List.mem_cons_self))⟩
    obtain rfl | rfl := hc
    · exact ⟨_, significantChars_cons (by decide) (rest ++ afterCentre)⟩
    · exact ⟨_, significantChars_cons (by decide) (rest ++ afterCentre)⟩
  · exact nomatch h

/-- No description of a geocentric direction `matches` a direction along a meridian. -/
theorem not_matches_of_geocentric {text : List Char} {g d : Direction} {m : MeridianDirection}
    (h : geocentricDirection? text = some g) (hbase : m.base = .north ∨ m.base = .south)
    (hname : d.name = m.text) : d.matches text = false := by
  -- The first letters differ, and the arrow keeps the text from being an acronym.
  obtain ⟨⟨rest, hrest⟩, harrow⟩ := chars_of_geocentric h
  obtain ⟨rest', hrest'⟩ := MeridianDirection.significantChars_chars hbase
  have hchars : d.name.toList = m.chars := by rw [hname, MeridianDirection.text, String.toList_ofList]
  have hdiffer : significantChars text ≠ significantChars m.chars := by
    rw [hrest]
    obtain hrest' | hrest' := hrest' <;> simp [hrest']
  rw [Direction.matches, hchars,
    isAcronym_eq_false (c := '>') (by decide) (by decide) (by decide) harrow]
  simp [hdiffer]

/-! ## What a registry learns -/

namespace Registry

/-- The registry after the name of a direction was read. -/
def afterReading (r : Registry) (text : String) : Registry :=
  match r.resolve text with
  | .ok (_, r') => r'
  | .error _ => r

/-- What the registry knows besides the standard directions. -/
def learnt (r : Registry) : List Direction := r.values.drop standardCount

/-- The text that a lookup searches for. -/
def searchText (name : String) : List Char :=
  trimBlanks (name.toList.map fun c => if c = '_' then ' ' else c)

/-- `lookup` searches among the known directions first and then reads a description. -/
theorem lookup_eq_or (r : Registry) (name : String) :
    r.lookup name = (findDirection (searchText name) r.values).or
      (geocentricDirection? (searchText name)) := by
  unfold lookup searchText
  dsimp only
  split
  · rename_i d hfound
    rw [hfound]
    rfl
  · rename_i hnone
    rw [hnone]
    rfl

/-- What comes behind the standard directions is `learnt`. -/
theorem learnt_eq {r : Registry} {learnt : List Direction}
    (h : r.values = standard.values ++ learnt) : r.learnt = learnt := by
  rw [Registry.learnt, h, List.drop_left' (by decide)]

/-- The name of a direction along a meridian is read without a look at what is known: `resolve`
    makes its text known. -/
theorem resolve_of_parse {text : String} {m : MeridianDirection}
    (h : MeridianDirection.parse? (trimBlanks text.toList) = some m) (r : Registry) :
    r.resolve text = .ok (r.intern m.text) := by
  simp only [resolve, h]
  rw [MeridianDirection.direction, (MeridianDirection.base_of_parse h).2]

/-- Any other text that `lookup` finds changes nothing. -/
theorem resolve_of_lookup {text : String} {d : Direction} {r : Registry}
    (h : MeridianDirection.parse? (trimBlanks text.toList) = none)
    (hd : r.lookup (String.ofList (trimBlanks text.toList)) = some d) :
    r.resolve text = .ok (d, r) := by
  simp only [resolve, h, hd]

/-- A text that it does not find names no direction. -/
theorem resolve_of_unknown {text : String} {r : Registry}
    (h : MeridianDirection.parse? (trimBlanks text.toList) = none)
    (hd : r.lookup (String.ofList (trimBlanks text.toList)) = none) :
    r.resolve text = .error (.unknownDirection (String.ofList (trimBlanks text.toList))) := by
  simp only [resolve, h, hd]

/-- `afterReading` makes at most a direction known that has the canonical text of a meridian for its
    name. -/
theorem values_afterReading (r : Registry) (text : String) :
    (r.afterReading text).values = r.values ∨
      ∃ m, MeridianDirection.parse? (trimBlanks text.toList) = some m ∧
        (r.afterReading text).values = r.values ++ [⟨m.text, r.values.length⟩] := by
  cases hparse : MeridianDirection.parse? (trimBlanks text.toList) with
  | some m =>
    rw [afterReading, resolve_of_parse hparse]
    obtain h | h := r.values_intern m.text
    · exact .inl h
    · exact .inr ⟨m, rfl, h⟩
  | none =>
    left
    cases hlookup : r.lookup (String.ofList (trimBlanks text.toList)) with
    | some d => rw [afterReading, resolve_of_lookup hparse hlookup]
    | none => rw [afterReading, resolve_of_unknown hparse hlookup]

/-- `afterReading` makes one name known at most, as `intern` does. -/
theorem afterReading_eq (r : Registry) (text : String) :
    r.afterReading text = r ∨ ∃ name, r.afterReading text = (r.intern name).2 := by
  cases hparse : MeridianDirection.parse? (trimBlanks text.toList) with
  | some m => exact .inr ⟨m.text, by rw [afterReading, resolve_of_parse hparse]⟩
  | none =>
    left
    cases hlookup : r.lookup (String.ofList (trimBlanks text.toList)) with
    | some d => rw [afterReading, resolve_of_lookup hparse hlookup]
    | none => rw [afterReading, resolve_of_unknown hparse hlookup]

/-- A registry that reads texts has still `Grown` from the standard directions. -/
theorem Grown.afterReading {r : Registry} (h : r.Grown) (text : String) : (r.afterReading text).Grown := by
  obtain hsame | ⟨name, hname⟩ := r.afterReading_eq text
  · rwa [hsame]
  · rw [hname]
    exact h.intern name

end Registry

open Registry

/-- The registry knows the standard directions, and besides them only directions whose names are the
    canonical texts of meridians that were read. -/
def Learnt (history : List String) (r : Registry) : Prop :=
  ∃ learnt, r.values = Registry.standard.values ++ learnt ∧ ∀ d ∈ learnt, ∃ text ∈ history, ∃ m,
    MeridianDirection.parse? (trimBlanks text.toList) = some m ∧ d.name = m.text

namespace Learnt

variable {history : List String} {r : Registry}

/-- One more text read: what it has made known is `Learnt` from it. -/
theorem afterReading (h : Learnt history r) (text : String) :
    Learnt (history ++ [text]) (r.afterReading text) := by
  obtain ⟨learnt, hvalues, horigins⟩ := h
  have horigins' (d : Direction) (hd : d ∈ learnt) : ∃ earlier ∈ history ++ [text], ∃ m,
      MeridianDirection.parse? (trimBlanks earlier.toList) = some m ∧ d.name = m.text := by
    obtain ⟨earlier, hearlier, horigin⟩ := horigins d hd
    exact ⟨earlier, List.mem_append_left _ hearlier, horigin⟩
  obtain hsame | ⟨m, hm, hmore⟩ := r.values_afterReading text
  · exact ⟨learnt, hsame.trans hvalues, horigins'⟩
  · refine ⟨learnt ++ [⟨m.text, r.values.length⟩], by rw [hmore, hvalues, List.append_assoc],
      fun d hd => ?_⟩
    obtain hd | hd := List.mem_append.mp hd
    · exact horigins' d hd
    · exact ⟨text, by simp, m, hm, congrArg Direction.name (List.mem_singleton.mp hd)⟩

/-- Any texts read, one after the other, starting from the standard directions. -/
theorem after (history : List String) :
    Learnt history (history.foldl Registry.afterReading .standard) := by
  induction history using List.reverseRecOn with
  | nil => exact ⟨[], (List.append_nil _).symm, fun _ h => absurd h List.not_mem_nil⟩
  | append_singleton history text ih =>
    rw [List.foldl_append]
    exact ih.afterReading text

/-- What was learnt comes after the standard directions. -/
theorem values_eq (h : Learnt history r) : r.values = Registry.standard.values ++ r.learnt := by
  obtain ⟨learnt, hvalues, -⟩ := h
  rw [learnt_eq hvalues, hvalues]

/-- Every direction that was `Learnt` is named for a meridian that was read. -/
theorem name_of_mem (h : Learnt history r) {d : Direction} (hd : d ∈ r.learnt) :
    ∃ text ∈ history, ∃ m,
      MeridianDirection.parse? (trimBlanks text.toList) = some m ∧ d.name = m.text := by
  obtain ⟨learnt, hvalues, horigins⟩ := h
  exact horigins d (learnt_eq hvalues ▸ hd)

/-- `lookup` answers from the standard directions if it can, and else from what was learnt. -/
theorem lookup_eq (h : Learnt history r) (name : String) :
    r.lookup name = (Registry.standard.lookup name).or (findDirection (searchText name) r.learnt) := by
  rw [lookup_eq_or, lookup_eq_or, h.values_eq, findDirection, List.find?_append, ← findDirection,
    ← findDirection]
  cases hstandard : findDirection (searchText name) Registry.standard.values with
  | some d => rfl
  | none =>
    cases hgeocentric : geocentricDirection? (searchText name) with
    | none => simp
    | some g =>
      -- What was learnt is named for meridians, and none of them matches.
      have hnone : findDirection (searchText name) r.learnt = none := by
        refine List.find?_eq_none.mpr fun d hd => ?_
        obtain ⟨text, -, m, hm, hname⟩ := h.name_of_mem hd
        rw [not_matches_of_geocentric hgeocentric (MeridianDirection.base_of_parse hm).1 hname]
        exact Bool.false_ne_true
      simp [hnone]

end Learnt

end Georef

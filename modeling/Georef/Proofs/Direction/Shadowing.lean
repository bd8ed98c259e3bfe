import Georef.Proofs.Direction.Naming
import Mathlib.Data.List.Find

/-!
# Which direction a lookup finds for a name

A lookup ignores every character that is no letter or digit. The decimal point of a meridian is one of them, so
of two directions along a meridian whose names differ in the point only, the one that became known first is
found for both names. Nothing else hides a known direction from its name: the names of the standard directions
lead to these, and a canonical text of a meridian has its base, all its digits and its side as letters and digits.

## Key results

- `significantChars_chars_inj`: canonical texts with the same letters and digits differ in the point only
- `Registry.Kept.lookup_name`: a lookup of a known name as a search by the name without the point
- `Registry.lookup_name_first`: the first direction whose name is the same but for the point is found
-/

namespace Georef

open MeridianDirection

/-- A text without decimal points. -/
def withoutPoint (text : List Char) : List Char := text.filter (· != '.')

/-- The names are the same but perhaps for decimal points. -/
def SameButForPoint (name other : String) : Prop := withoutPoint name.toList = withoutPoint other.toList

instance (name other : String) : Decidable (SameButForPoint name other) :=
  inferInstanceAs (Decidable (_ = _))

/-! ## Letters and digits -/

/-- `significantChars` of two texts, one after the other. -/
@[simp] theorem significantChars_append (text rest : List Char) :
    significantChars (text ++ rest) = significantChars text ++ significantChars rest := by
  simp [significantChars, foldCase]

/-- Decimal points are no letters or digits, so `withoutPoint` changes no search. -/
@[simp] theorem significantChars_withoutPoint (text : List Char) :
    significantChars (withoutPoint text) = significantChars text := by
  have hpoint : isAlphanumeric '.' = false := by decide
  unfold significantChars withoutPoint
  rw [List.filter_filter]
  refine congrArg foldCase (List.filter_congr fun c _ => ?_)
  by_cases hc : c = '.'
  · simp [hc, hpoint]
  · simp [hc]

/-- Written digits count as they are among the `significantChars`. -/
theorem significantChars_digits {text : List Char} (h : ∀ c ∈ text, IsWrittenDigit c) :
    significantChars text = text := by
  induction text with
  | nil => rfl
  | cons c text ih =>
    have hdigits : ∀ d < 10, isAlphanumeric (Char.ofNat ('0'.toNat + d)) = true ∧
        caseFolding.apply (Char.ofNat ('0'.toNat + d)) = [Char.ofNat ('0'.toNat + d)] := by
      decide
    obtain ⟨hc, hfold⟩ := (h c List.mem_cons_self).of_forall
      (P := fun c => isAlphanumeric c = true ∧ caseFolding.apply c = [c]) hdigits
    rw [significantChars_cons hc, hfold, ih fun d hd => h d (List.mem_cons_of_mem c hd)]
    rfl

/-! ## Canonical texts -/

namespace MeridianDirection

variable {m m' : MeridianDirection}

/-- What `degreeChars` writes, the point apart, are digits. -/
theorem isWrittenDigit_of_mem_withoutPoint {c : Char} (h : c ∈ withoutPoint m.degreeChars) :
    IsWrittenDigit c := by
  obtain ⟨hmem, hc⟩ := List.mem_filter.mp h
  exact (mem_degreeChars hmem).resolve_right (by simpa using hc)

/-- The `significantChars` of a canonical text: the base, the word, the digits of the degrees and
    the side. -/
theorem significantChars_chars_eq (m : MeridianDirection) :
    significantChars m.chars = significantChars (capitalize m.base.name.toList) ++ "along".toList ++
      withoutPoint m.degreeChars ++ significantChars m.sideChars := by
  have hword : significantChars " along ".toList = "along".toList := by decide
  have hsign : significantChars ['°'] = [] := by decide
  have hdegrees : significantChars m.degreeChars = withoutPoint m.degreeChars := by
    rw [← significantChars_withoutPoint]
    exact significantChars_digits fun c hc => isWrittenDigit_of_mem_withoutPoint hc
  rw [chars, ← List.singleton_append]
  simp only [significantChars_append, hword, hsign, hdegrees, List.nil_append]

/-- The letters and digits of the poles, which no standard name continues with the word `along`. -/
theorem significantChars_base (h : m.base = .north ∨ m.base = .south) :
    (m.base = .north ∧ significantChars (capitalize m.base.name.toList) = "north".toList) ∨
      (m.base = .south ∧ significantChars (capitalize m.base.name.toList) = "south".toList) := by
  have hnames : significantChars (capitalize Direction.north.name.toList) = "north".toList ∧
      significantChars (capitalize Direction.south.name.toList) = "south".toList := by
    decide
  obtain h | h := h
  · exact .inl ⟨h, h ▸ hnames.1⟩
  · exact .inr ⟨h, h ▸ hnames.2⟩

/-- The letter for the side counts in its small form, and can be told from digits. -/
private theorem sideChars_facts :
    significantChars [] = [] ∧ significantChars ['W'] = ['w'] ∧ significantChars ['E'] = ['e'] ∧
      isDecimalDigit 'w' = false ∧ isDecimalDigit 'e' = false := by
  decide

/-- The side is known by its letter, so `sideChars` can be read off a search. -/
theorem sideChars_inj (h : significantChars m.sideChars = significantChars m'.sideChars) :
    m.sideChars = m'.sideChars := by
  obtain ⟨hnil, hwest, heast, -⟩ := sideChars_facts
  obtain hm | hm | hm := m.sideChars_cases <;> obtain hm' | hm' | hm' := m'.sideChars_cases <;>
    simp [hm, hm', hnil, hwest, heast] at h ⊢

/-- No digit is written for the side. -/
theorem sideChars_stopsAt (m : MeridianDirection) : StopsAt isDecimalDigit (significantChars m.sideChars) := by
  obtain ⟨hnil, hwest, heast, hw, he⟩ := sideChars_facts
  obtain hm | hm | hm := m.sideChars_cases <;> simp [hm, hnil, hwest, heast, hw, he]

/-- Canonical texts with the same `significantChars` are the same but for the point. -/
theorem significantChars_chars_inj (hm : m.base = .north ∨ m.base = .south)
    (hm' : m'.base = .north ∨ m'.base = .south) :
    significantChars m.chars = significantChars m'.chars ↔ withoutPoint m.chars = withoutPoint m'.chars := by
  constructor
  · intro h
    have hdigits (m : MeridianDirection) : ∀ c ∈ withoutPoint m.degreeChars, isDecimalDigit c = true :=
      fun c hc => (isWrittenDigit_of_mem_withoutPoint hc).isDecimalDigit
    rw [significantChars_chars_eq, significantChars_chars_eq] at h
    -- Behind the base the digits end where the side starts.
    have hrest (hbase : m.base = m'.base) : withoutPoint m.chars = withoutPoint m'.chars := by
      rw [hbase, List.append_assoc, List.append_assoc _ _ (significantChars m'.sideChars)] at h
      obtain ⟨hdegrees, hside⟩ := append_inj_of_stopsAt (hdigits m) (hdigits m') m.sideChars_stopsAt
        m'.sideChars_stopsAt (List.append_cancel_left h)
      unfold withoutPoint at hdegrees
      simp only [withoutPoint, chars, List.filter_append, List.filter_cons, hbase, hdegrees, sideChars_inj hside]
    obtain ⟨hbase, hname⟩ | ⟨hbase, hname⟩ := significantChars_base hm <;>
      obtain ⟨hbase', hname'⟩ | ⟨hbase', hname'⟩ := significantChars_base hm'
    · exact hrest (hbase.trans hbase'.symm)
    · simp [hname, hname'] at h
    · simp [hname, hname'] at h
    · exact hrest (hbase.trans hbase'.symm)
  · intro h
    rw [← significantChars_withoutPoint, h, significantChars_withoutPoint]

/-- A canonical text has no underscore, which a lookup would take for a blank. -/
theorem underscore_notMem_chars (hm : m.base = .north ∨ m.base = .south) : '_' ∉ m.chars := by
  have hnames : '_' ∉ capitalize Direction.north.name.toList ∧
      '_' ∉ capitalize Direction.south.name.toList := by
    decide
  have hdegrees : '_' ∉ m.degreeChars := fun h => by
    have hnumber := isNumberChar_of_mem_degreeChars h
    revert hnumber
    decide
  have hbase : '_' ∉ capitalize m.base.name.toList := by
    obtain h | h := hm
    · exact h ▸ hnames.1
    · exact h ▸ hnames.2
  obtain hside | hside | hside := m.sideChars_cases <;> simp [chars, hdegrees, hbase, hside]

/-- `searchText` leaves a canonical text as it is. -/
theorem searchText_text (hm : m.base = .north ∨ m.base = .south) :
    Registry.searchText m.text = m.chars := by
  have hunderscore := underscore_notMem_chars hm
  have hmap : m.chars.map (fun c => if c = '_' then ' ' else c) = m.chars := by
    refine (List.map_congr_left fun c hc => ?_).trans (List.map_id _)
    have hne : c ≠ '_' := fun heq => hunderscore (heq ▸ hc)
    simp [hne]
  rw [Registry.searchText, text, String.toList_ofList, hmap, trimBlanks_chars hm]

/-- A canonical text is no acronym, so only its `significantChars` count in a search. -/
theorem matches_chars_iff (m : MeridianDirection) (d : Direction) :
    d.matches m.chars = true ↔ significantChars m.chars = significantChars d.name.toList := by
  have hmem : '°' ∈ m.chars := List.mem_append_right _ List.mem_cons_self
  have hacronym : isAcronym m.chars d.name.toList = false :=
    isAcronym_eq_false (by decide) (by decide) (by decide) hmem _
  simp [Direction.matches, hacronym]

end MeridianDirection

/-! ## Lookups of known names -/

namespace Registry

variable {r : Registry} {d : Direction}

/-- `lookup` finds standard names, no two of them are the same but for the point, and none has the
    letters and digits of a pole followed by the word. -/
private theorem standard_names : ∀ n < standardCount,
    Registry.standard.lookup (Direction.standard n).name = some (.standard n) ∧
      Registry.standard.values.find? (fun e => SameButForPoint e.name (Direction.standard n).name) =
        some (.standard n) ∧
      ("north".toList ++ "along".toList).isPrefixOf (significantChars (Direction.standard n).name.toList) =
        false ∧
      ("south".toList ++ "along".toList).isPrefixOf (significantChars (Direction.standard n).name.toList) =
        false := by
  decide +kernel

/-- A canonical text `matches` exactly the known directions whose names are the same but for the
    point. -/
theorem Kept.matches_iff (h : r.Kept) {m : MeridianDirection} (hm : m.base = .north ∨ m.base = .south)
    {e : Direction} (he : e ∈ r.values) :
    e.matches m.chars = true ↔ SameButForPoint e.name m.text := by
  rw [matches_chars_iff, SameButForPoint, text, String.toList_ofList]
  obtain ⟨hordinal, hstandard⟩ | ⟨m', hm', hname⟩ := h.name_cases he
  · obtain ⟨-, -, hnorth, hsouth⟩ := standard_names e.ordinal hordinal
    rw [← hstandard] at hnorth hsouth
    -- The letters and digits of the text start with those of a pole and of the word.
    have hne : significantChars m.chars ≠ significantChars e.name.toList := by
      rintro heq
      rw [significantChars_chars_eq, List.append_assoc] at heq
      obtain ⟨-, hbase⟩ | ⟨-, hbase⟩ := significantChars_base hm
      · rw [← heq, hbase, List.isPrefixOf_iff_prefix.mpr (List.prefix_append _ _)] at hnorth
        cases hnorth
      · rw [← heq, hbase, List.isPrefixOf_iff_prefix.mpr (List.prefix_append _ _)] at hsouth
        cases hsouth
    refine iff_of_false hne fun hpoint => hne ?_
    rw [← significantChars_withoutPoint, ← hpoint, significantChars_withoutPoint]
  · rw [hname, text, String.toList_ofList, significantChars_chars_inj hm hm'.base, eq_comm]

/-- `lookup` of a known name is a search for the name without the point. -/
theorem Kept.lookup_name (h : r.Kept) (hd : d ∈ r.values) :
    r.lookup d.name = r.values.find? fun e => SameButForPoint e.name d.name := by
  obtain ⟨hordinal, hstandard⟩ | ⟨m, hm, hname⟩ := h.name_cases hd
  · -- Standard directions are found before anything that was learnt.
    obtain ⟨history, hlearnt⟩ := h.learnt
    obtain ⟨hlookup, hfind, -⟩ := standard_names d.ordinal hordinal
    rw [← hstandard] at hlookup hfind
    rw [hlearnt.lookup_eq, hlookup, hlearnt.values_eq, List.find?_append, hfind]
    rfl
  · have hsame : findDirection (searchText d.name) r.values =
        r.values.find? fun e => SameButForPoint e.name d.name := by
      rw [hname, searchText_text hm.base]
      refine List.find?_congr fun e he => ?_
      rw [Bool.eq_iff_iff, decide_eq_true_eq, h.matches_iff hm.base he]
    -- The direction itself is one that is found, so no description of a geocentric direction is tried.
    have hfound : (r.values.find? fun e => SameButForPoint e.name d.name).isSome :=
      List.find?_isSome.mpr ⟨d, hd, decide_eq_true rfl⟩
    rw [lookup_eq_or, hsame, Option.or_of_isSome hfound]

/-- `lookup` finds the first known direction whose name is the same but for the point. -/
theorem Kept.exists_lookup_name (h : r.Kept) (hd : d ∈ r.values) :
    ∃ e ∈ r.values, r.lookup d.name = some e ∧ SameButForPoint e.name d.name ∧
      ∀ other ∈ r.values, SameButForPoint other.name d.name → e.ordinal ≤ other.ordinal := by
  have hsome : (r.lookup d.name).isSome := by
    rw [h.lookup_name hd]
    exact List.find?_isSome.mpr ⟨d, hd, decide_eq_true rfl⟩
  obtain ⟨e, hlookup⟩ := Option.isSome_iff_exists.mp hsome
  have hfound := (h.lookup_name hd).symm.trans hlookup
  refine ⟨e, List.mem_of_find?_eq_some hfound, hlookup, by simpa using List.find?_some hfound,
    fun other hother hmatch => ?_⟩
  -- No direction before the one that is found matches, and places are ordinals.
  obtain ⟨-, i, hi, hplace, hbefore⟩ := List.find?_eq_some_iff_getElem.mp hfound
  have hordinal : e.ordinal = i := h.grown.consistent.ordinal_eq i e (List.getElem?_eq_some_iff.mpr ⟨hi, hplace⟩)
  obtain ⟨hj, hplace'⟩ := List.getElem?_eq_some_iff.mp (h.grown.mem_values_iff.mp hother)
  by_contra hlt
  have hnot := hbefore other.ordinal (by omega)
  simp [hplace', hmatch] at hnot

/-- The name of a standard direction leads `lookup` to it, whatever was learnt. -/
theorem Kept.lookup_standard (h : r.Kept) (hd : d ∈ r.values) (hordinal : d.ordinal < standardCount) :
    r.lookup d.name = some d := by
  obtain ⟨history, hlearnt⟩ := h.learnt
  obtain ⟨hstandard, -⟩ := standard_names d.ordinal hordinal
  rw [← h.grown.eq_standard hd hordinal] at hstandard
  rw [hlearnt.lookup_eq, hstandard]
  rfl

/-- In a run from the standard directions, a lookup of the name of a known direction finds the first known direction
    whose name is the same but perhaps for the point. This is the direction itself unless such a direction became
    known before it, which cannot happen to the standard directions. -/
theorem lookup_name_first (hrun : Leads .standard r) (hd : d ∈ r.values) :
    (∃ e ∈ r.values, r.lookup d.name = some e ∧ SameButForPoint e.name d.name ∧
      ∀ other ∈ r.values, SameButForPoint other.name d.name → e.ordinal ≤ other.ordinal) ∧
    (r.lookup d.name = some d ↔
      ∀ e ∈ r.values, e.ordinal < d.ordinal → ¬SameButForPoint e.name d.name) ∧
    (d.ordinal < standardCount → r.lookup d.name = some d) := by
  have hkept : r.Kept := Kept.standard.leads hrun
  obtain ⟨e, he, hlookup, hsame, hfirst⟩ := hkept.exists_lookup_name hd
  refine ⟨⟨e, he, hlookup, hsame, hfirst⟩, ⟨fun hself => ?_, fun hnone => ?_⟩, hkept.lookup_standard hd⟩
  · obtain rfl : e = d := Option.some.inj (hlookup.symm.trans hself)
    exact fun other hother hlt hmatch => absurd (hfirst other hother hmatch) (by omega)
  · -- What is found is not behind the direction, nor before it, so it is at its place.
    have hle := hfirst d hd rfl
    have hge : ¬e.ordinal < d.ordinal := fun hlt => hnone e he hlt hsame
    have hplace := hkept.grown.mem_values_iff.mp he
    rw [show e.ordinal = d.ordinal by omega, hkept.grown.mem_values_iff.mp hd] at hplace
    rw [hlookup, hplace]

/-- The registry after two meridians were read whose texts differ in the point only. -/
def afterTwoMeridians : Registry :=
  (Registry.standard.afterReading "North along 15 deg East").afterReading "North along 1.5 deg East"

theorem leads_afterTwoMeridians : Leads .standard afterTwoMeridians :=
  .tail (.single (.read .standard _)) (.read _ _)

/-- The second meridian is hidden by the first one, and found once the registry knows nothing else. -/
theorem lookup_name_first_decimal :
    afterTwoMeridians.lookup "North along 1.5°E" = some ⟨"North along 15°E", 32⟩ ∧
      ((Registry.standard.afterReading "North along 1.5 deg East").lookup "North along 1.5°E" =
        some ⟨"North along 1.5°E", 32⟩) ∧
      afterTwoMeridians.lookup "DISPLAY_UP" = some (.standard 30) := by
  have hfirst : (⟨"North along 15°E", 32⟩ : Direction) ∈ afterTwoMeridians.values := by decide +kernel
  have hsecond : (⟨"North along 1.5°E", 33⟩ : Direction) ∈ afterTwoMeridians.values := by decide +kernel
  have hdisplay : Direction.standard 30 ∈ afterTwoMeridians.values := by decide +kernel
  have halone : (⟨"North along 1.5°E", 32⟩ : Direction) ∈
      (Registry.standard.afterReading "North along 1.5 deg East").values := by
    decide +kernel
  obtain ⟨⟨e, he, hlookup, hsame, hleast⟩, -, -⟩ := lookup_name_first leads_afterTwoMeridians hsecond
  obtain ⟨-, hself, -⟩ := lookup_name_first (.single (.read .standard "North along 1.5 deg East")) halone
  refine ⟨?_, hself.mpr (by decide +kernel),
    (lookup_name_first leads_afterTwoMeridians hdisplay).2.2 (by decide)⟩
  -- Only two names match, and the first of them has the smaller ordinal.
  have hle : e.ordinal ≤ 32 := hleast _ hfirst (by decide +kernel)
  have hmatching : ∀ e ∈ afterTwoMeridians.values, SameButForPoint e.name "North along 1.5°E" →
      e.ordinal ≤ 32 → e = ⟨"North along 15°E", 32⟩ := by
    decide +kernel
  rw [hlookup, hmatching e he hsame hle]

/-- A known direction is not always found by its exact name. -/
theorem not_lookup_name : ¬∀ r : Registry, Leads .standard r → ∀ d ∈ r.values, r.lookup d.name = some d := by
  intro h
  have hfound := h afterTwoMeridians leads_afterTwoMeridians ⟨"North along 1.5°E", 33⟩ (by decide +kernel)
  have hother : afterTwoMeridians.lookup "North along 1.5°E" = some ⟨"North along 15°E", 32⟩ := by
    decide +kernel
  rw [hother] at hfound
  exact absurd hfound (by decide)

end Registry

end Georef

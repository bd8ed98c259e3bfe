import Georef.Proofs.Direction.Acronyms
import Georef.Proofs.Direction.Shadowing
import Georef.Proofs.Text.CaseFolding

/-!
# How lenient a search is

A search by a full name looks at the letters and digits of the name only. A search by an acronym is stricter: it
takes white space off the ends of the name, but any other character that is no letter or digit makes the name no
acronym at all. So two names with the same letters and digits may find different directions, and they do so for
some candidates if and only if they are not the same as acronyms.

## Key results

- `isAcronym_eq_true_iff`, `matches_eq_of_acronymOf?_eq`: what a search reads of a name
- `acronymOf?_eq_of_alphanumeric`: names of letters and digits only, but for white space at the ends
- `exists_matches_of_not_start`: a candidate that tells two names apart which are not the same as acronyms
- `findDirection_eq_iff_of_significantChars_eq`: which names with the same letters and digits find the same
-/

namespace Georef

variable {name other text : List Char}

/-! ## White space at both ends -/

set_option maxRecDepth 4000 in
/-- White space is neither letters nor digits, says `isAlphanumeric`. -/
theorem isAlphanumeric_of_isBlank {c : Char} (h : isBlank c = true) : isAlphanumeric c = false :=
  forall_of_inRanges (p := fun c => isAlphanumeric c = false) (by decide) h

/-- `trimBlanks` takes white space off both ends. -/
theorem exists_eq_append_trimBlanks (text : List Char) :
    ∃ front back, AllBlank front ∧ AllBlank back ∧ text = front ++ trimBlanks text ++ back := by
  obtain ⟨front, hfront, -, htext⟩ := dropBlanks_eq_iff.mp (rfl : dropBlanks text = _)
  obtain ⟨back, hback, -, hrest⟩ := dropBlanks_eq_iff.mp (rfl : dropBlanks (dropBlanks text).reverse = _)
  refine ⟨front, back.reverse, hfront, fun c hc => hback c (List.mem_reverse.mp hc), ?_⟩
  rw [List.append_assoc, trimBlanks, ← List.reverse_append, ← hrest, List.reverse_reverse, ← htext]

/-- White space has no `significantChars`. -/
theorem significantChars_of_allBlank (h : AllBlank text) : significantChars text = [] := by
  have hnone : text.filter isAlphanumeric = [] :=
    List.filter_eq_nil_iff.mpr fun c hc => by simp [isAlphanumeric_of_isBlank (h c hc)]
  rw [significantChars, hnone]
  rfl

/-- `trimBlanks` takes no letters or digits away. -/
@[simp] theorem significantChars_trimBlanks (text : List Char) :
    significantChars (trimBlanks text) = significantChars text := by
  obtain ⟨front, back, hfront, hback, htext⟩ := exists_eq_append_trimBlanks text
  conv_rhs => rw [htext]
  rw [significantChars_append, significantChars_append, significantChars_of_allBlank hfront,
    significantChars_of_allBlank hback, List.nil_append, List.append_nil]

/-- The `significantChars` of a text of letters and digits only are the text, case folded. -/
theorem significantChars_of_alphanumeric (h : ∀ c ∈ text, isAlphanumeric c = true) :
    significantChars text = foldCase text := by
  rw [significantChars, List.filter_eq_self.mpr h]

/-! ## A name as an acronym -/

/-- The name as an acronym: trimmed and case folded, if it then is not empty and has letters and digits only. -/
def acronymOf? (name : List Char) : Option (List Char) :=
  let folded := foldCase (trimBlanks name)
  if folded ≠ [] ∧ folded.all isAlphanumeric then some folded else none

/-- `acronymOf?` gives the folded text if it is one of letters and digits. -/
theorem acronymOf?_eq_some_iff {acronym : List Char} :
    acronymOf? name = some acronym ↔
      foldCase (trimBlanks name) = acronym ∧ acronym ≠ [] ∧ ∀ c ∈ acronym, isAlphanumeric c = true := by
  simp only [acronymOf?, Option.ite_none_right_eq_some, Option.some.injEq, List.all_eq_true]
  constructor
  · rintro ⟨hacronym, rfl⟩
    exact ⟨rfl, hacronym⟩
  · rintro ⟨rfl, hacronym⟩
    exact ⟨hacronym, rfl⟩

/-- Of a name that is tried as an acronym, nothing but `acronymOf?` is read. -/
theorem isAcronym_eq_true_iff :
    isAcronym name text = true ↔
      ∃ acronym, acronymOf? name = some acronym ∧ spells acronym ((wordsOf text).map foldCase) = true := by
  simp only [acronymOf?_eq_some_iff, and_assoc, exists_eq_left']
  simp only [isAcronym, Bool.and_eq_true, Bool.not_eq_true', List.isEmpty_eq_false_iff, List.all_eq_true,
    and_assoc, ne_eq]
  refine and_congr_right fun hne => and_congr_right fun _ => and_iff_right_of_imp fun hspells => ?_
  -- What spells no words at all is empty.
  rintro hwords
  rw [hwords] at hspells
  exact hne (List.isEmpty_iff.mp hspells)

/-- Names with the same letters and digits that are the same as acronyms match the same directions:
    `matches` reads nothing else. -/
theorem matches_eq_of_acronymOf?_eq (h : significantChars name = significantChars other)
    (hacronym : acronymOf? name = acronymOf? other) (d : Direction) : d.matches name = d.matches other := by
  have hisAcronym : isAcronym name d.name.toList = isAcronym other d.name.toList := by
    rw [Bool.eq_iff_iff, isAcronym_eq_true_iff, isAcronym_eq_true_iff, hacronym]
  rw [Direction.matches, Direction.matches, h, hisAcronym]

/-- Names of letters and digits only, between white space, have the same `acronymOf?` if they have
    the same letters and digits. -/
theorem acronymOf?_eq_of_alphanumeric (h : significantChars name = significantChars other)
    (hname : ∀ c ∈ trimBlanks name, isAlphanumeric c = true)
    (hother : ∀ c ∈ trimBlanks other, isAlphanumeric c = true) : acronymOf? name = acronymOf? other := by
  have hfolded : foldCase (trimBlanks name) = foldCase (trimBlanks other) := by
    rw [← significantChars_of_alphanumeric hname, ← significantChars_of_alphanumeric hother,
      significantChars_trimBlanks, significantChars_trimBlanks, h]
  rw [acronymOf?, acronymOf?, hfolded]

/-! ## Candidates that tell names apart -/

section Words

variable {word : List Char}

/-- A text of letters and digits only is one word of `wordsOf`. -/
theorem wordsOf_of_alphanumeric (hne : word ≠ []) (hword : ∀ c ∈ word, isAlphanumeric c = true) :
    wordsOf word = [word] := by
  rw [← List.append_nil word, wordsOf_word_append hne hword (stopsAt_nil _), List.append_nil]
  rfl

/-- The acronyms of a single word are its starts. -/
theorem isAcronym_word_iff (hne : word ≠ []) (hword : ∀ c ∈ word, isAlphanumeric c = true)
    (hfolded : foldCase word = word) :
    isAcronym name word = true ↔ ∃ acronym, acronymOf? name = some acronym ∧ acronym <+: word := by
  rw [isAcronym_eq_true_iff, wordsOf_of_alphanumeric hne hword, List.map_singleton, hfolded]
  refine exists_congr fun acronym => and_congr_right fun hacronym => ?_
  rw [spells_cons]
  constructor
  · rintro ⟨piece, rest, rfl, -, hstart, hrest⟩
    rwa [List.isEmpty_iff.mp hrest, List.append_nil]
  · intro hstart
    exact ⟨acronym, [], (List.append_nil _).symm, (acronymOf?_eq_some_iff.mp hacronym).2.1, hstart, rfl⟩

end Words

/-- Of two letters there is one that does not follow the text in the other. -/
theorem exists_letter_not_after (acronym other : List Char) :
    ∃ c, isAlphanumeric c = true ∧ caseFolding.apply c = [c] ∧ ∀ tail, other ≠ acronym ++ c :: tail := by
  by_cases hy : ∃ tail, other = acronym ++ 'y' :: tail
  · obtain ⟨tail, rfl⟩ := hy
    refine ⟨'z', by decide, by decide, fun tail' heq => ?_⟩
    simp at heq
  · exact ⟨'y', by decide, by decide, fun tail heq => hy ⟨tail, heq⟩⟩

/-- A candidate for a name that is an acronym and for no other name with the same letters and digits, unless that
is a start of the acronym: the acronym, made longer than the names by a letter. -/
theorem exists_matches_of_not_start {acronym : List Char}
    (h : significantChars name = significantChars other) (hname : acronymOf? name = some acronym)
    (hother : ∀ shorter, acronymOf? other = some shorter → ¬shorter <+: acronym) :
    ∃ d : Direction, d.matches name = true ∧ d.matches other = false := by
  obtain ⟨hfolded, hne, hacronym⟩ := acronymOf?_eq_some_iff.mp hname
  obtain ⟨c, hc, hfold, hafter⟩ := exists_letter_not_after acronym (foldCase (trimBlanks other))
  -- The word is longer than the letters and digits of the names.
  let padding := List.replicate ((significantChars name).length + 1) c
  have hpadding : foldCase padding = padding :=
    foldCase_eq_self fun x hx => by rw [List.eq_of_mem_replicate hx, hfold]
  have hword : ∀ x ∈ acronym ++ padding, isAlphanumeric x = true := by
    intro x hx
    obtain hx | hx := List.mem_append.mp hx
    · exact hacronym x hx
    · rw [List.eq_of_mem_replicate hx, hc]
  have hwordFolded : foldCase (acronym ++ padding) = acronym ++ padding := by
    have hagain : foldCase acronym = acronym := by rw [← hfolded, foldCase_foldCase]
    rw [foldCase_append, hagain, hpadding]
  have hwordNe : acronym ++ padding ≠ [] := List.append_ne_nil_of_left_ne_nil hne _
  have hlonger : significantChars name ≠ significantChars (acronym ++ padding) := by
    rw [significantChars_of_alphanumeric hword, hwordFolded]
    intro heq
    have hlength := congrArg List.length heq
    simp only [List.length_append, padding, List.length_replicate] at hlength
    omega
  refine ⟨⟨String.ofList (acronym ++ padding), 0⟩, ?_, ?_⟩
  · have hmatch : isAcronym name (acronym ++ padding) = true :=
      (isAcronym_word_iff hwordNe hword hwordFolded).mpr ⟨acronym, hname, List.prefix_append _ _⟩
    simp [Direction.matches, hmatch]
  · have hmiss : isAcronym other (acronym ++ padding) = false := by
      rw [← Bool.not_eq_true, isAcronym_word_iff hwordNe hword hwordFolded]
      rintro ⟨shorter, hshorter, hstart⟩
      obtain hshort | ⟨tail, rfl⟩ := List.prefix_or_prefix_of_prefix hstart (List.prefix_append acronym padding)
      · exact hother shorter hshorter hshort
      · -- The other acronym goes on with the padding.
        cases tail with
        | nil => exact hother _ hshorter (by simp)
        | cons x tail =>
          obtain rfl : x = c :=
            List.eq_of_mem_replicate (((List.prefix_append_right_inj acronym).mp hstart).subset List.mem_cons_self)
          exact hafter tail (acronymOf?_eq_some_iff.mp hshorter).1
    simp only [Direction.matches, String.toList_ofList, hmiss, ← h, Bool.or_false, beq_eq_false_iff_ne]
    exact hlonger

/-- Names with the same letters and digits that are not the same as acronyms are told apart by a
    direction that just one of them `matches`. -/
theorem exists_matches_ne (h : significantChars name = significantChars other)
    (hacronym : acronymOf? name ≠ acronymOf? other) : ∃ d : Direction, d.matches name ≠ d.matches other := by
  cases hname : acronymOf? name with
  | none =>
    cases hother : acronymOf? other with
    | none => exact absurd (hname.trans hother.symm) hacronym
    | some acronym =>
      obtain ⟨d, hmatch, hmiss⟩ := exists_matches_of_not_start h.symm hother (by simp [hname])
      exact ⟨d, by simp [hmatch, hmiss]⟩
  | some acronym =>
    by_cases hshorter : ∃ shorter, acronymOf? other = some shorter ∧ shorter <+: acronym
    · obtain ⟨shorter, hother, hstart⟩ := hshorter
      -- The longer acronym is no start of the shorter one.
      have hnot : ∀ longer, acronymOf? name = some longer → ¬longer <+: shorter := by
        intro longer hlonger hback
        obtain rfl := Option.some.inj (hname.symm.trans hlonger)
        have hlength : shorter.length = acronym.length := Nat.le_antisymm hstart.length_le hback.length_le
        exact hacronym (by rw [hname, hother, hstart.eq_of_length hlength])
      obtain ⟨d, hmatch, hmiss⟩ := exists_matches_of_not_start h.symm hother hnot
      exact ⟨d, by simp [hmatch, hmiss]⟩
    · obtain ⟨d, hmatch, hmiss⟩ := exists_matches_of_not_start h hname fun shorter hother hstart =>
        hshorter ⟨shorter, hother, hstart⟩
      exact ⟨d, by simp [hmatch, hmiss]⟩

/-! ## The search -/

/-- If `findDirection` answers differently, one of the candidates is matched as an acronym by just
    one of the names. -/
theorem exists_isAcronym_ne (h : significantChars name = significantChars other) {candidates : List Direction}
    (hdiffer : findDirection name candidates ≠ findDirection other candidates) :
    ∃ d ∈ candidates, significantChars d.name.toList ≠ significantChars name ∧
      isAcronym name d.name.toList ≠ isAcronym other d.name.toList := by
  by_contra! hsame
  refine hdiffer (List.find?_congr fun d hd => ?_)
  rw [Direction.matches, Direction.matches, ← h]
  by_cases hfull : significantChars d.name.toList = significantChars name
  · simp [hfull]
  · rw [hsame d hd hfull]

/-- Two names with the same letters and digits find the same in all candidates if and only if they are the same
as acronyms. That is so if they are letters and digits only, between white space. If they do not find the same,
it is because of a candidate with another full name that is matched as an acronym by just one of them. -/
theorem findDirection_eq_iff_of_significantChars_eq (h : significantChars name = significantChars other) :
    ((∀ candidates, findDirection name candidates = findDirection other candidates) ↔
        acronymOf? name = acronymOf? other) ∧
      ((∀ c ∈ trimBlanks name, isAlphanumeric c = true) → (∀ c ∈ trimBlanks other, isAlphanumeric c = true) →
        acronymOf? name = acronymOf? other) ∧
      ∀ candidates, findDirection name candidates ≠ findDirection other candidates →
        ∃ d ∈ candidates, significantChars d.name.toList ≠ significantChars name ∧
          isAcronym name d.name.toList ≠ isAcronym other d.name.toList := by
  refine ⟨⟨fun hfind => ?_, fun hacronym candidates => ?_⟩, acronymOf?_eq_of_alphanumeric h,
    fun candidates => exists_isAcronym_ne h⟩
  · by_contra hacronym
    obtain ⟨d, hd⟩ := exists_matches_ne h hacronym
    have hsingle := congrArg Option.isSome (hfind [d])
    simp only [findDirection, List.isSome_find?, List.any_cons, List.any_nil, Bool.or_false] at hsingle
    exact hd hsingle
  · exact List.find?_congr fun d _ => matches_eq_of_acronymOf?_eq h hacronym d

/-- White space at the ends of an acronym makes no difference for any candidates. A point in it does for the
direction that is found by the acronym. -/
theorem findDirection_spaced_and_point :
    (significantChars " NE\n".toList = significantChars "ne".toList ∧
      ∀ candidates, findDirection " NE\n".toList candidates = findDirection "ne".toList candidates) ∧
    (significantChars "NE".toList = significantChars "N.E".toList ∧
      ∃ d ∈ [Direction.standard 3], significantChars d.name.toList ≠ significantChars "NE".toList ∧
        isAcronym "NE".toList d.name.toList ≠ isAcronym "N.E".toList d.name.toList) := by
  have hspaced : significantChars " NE\n".toList = significantChars "ne".toList := by decide
  have hpoint : significantChars "NE".toList = significantChars "N.E".toList := by decide
  obtain ⟨hsame, hacronym, -⟩ := findDirection_eq_iff_of_significantChars_eq hspaced
  obtain ⟨-, -, hdiffer⟩ := findDirection_eq_iff_of_significantChars_eq hpoint
  have htrimmed : ∀ c ∈ trimBlanks " NE\n".toList, isAlphanumeric c = true := List.all_eq_true.mp (by decide)
  have hlower : ∀ c ∈ trimBlanks "ne".toList, isAlphanumeric c = true := List.all_eq_true.mp (by decide)
  exact ⟨⟨hspaced, hsame.mpr (hacronym htrimmed hlower)⟩, hpoint, hdiffer _ (by decide)⟩

/-- Names with the same letters and digits need not find the same. -/
theorem findDirection_point_ne :
    significantChars "NE".toList = significantChars "N.E".toList ∧
      findDirection "NE".toList [.standard 3] = some (.standard 3) ∧
      findDirection "N.E".toList [.standard 3] = none := by
  decide

end Georef

import Georef.Proofs.Text.Words

/-!
# The grammar of directions along a meridian

A text for a direction along a meridian is a base word, the word `along`, a number, a degree mark and perhaps a
side, with white space between them. `MeridianText` is such a text cut into all its parts, white space
included, and `DecimalText` is what the number has to look like to be read. The reader accepts exactly these
texts, and there is only one way to cut them.

## Key results

- `readNumber?_eq_some_iff`: which numbers are read, and as what
- `splitMeridian?_eq_some_iff`: which texts are split, and where
- `MeridianText.chars_injective`: a text is cut in one way only
-/

namespace Georef

/-! ## Numbers -/

/-- A decimal number without exponent: perhaps a minus sign, digits, and perhaps a point and more digits. There
is a digit at least. -/
structure DecimalText where
  negative : Bool
  whole : List Char
  /-- The digits behind the point, if there is one. -/
  fraction? : Option (List Char)
  digits_ne_nil : whole ++ fraction?.getD [] ≠ []
  isDecimalDigit_of_mem : ∀ c ∈ whole ++ fraction?.getD [], isDecimalDigit c = true

namespace DecimalText

/-- All digits, without the point. -/
def digits (n : DecimalText) : List Char := n.whole ++ n.fraction?.getD []

/-- The point and what follows it. -/
def tail (n : DecimalText) : List Char :=
  match n.fraction? with
  | some fraction => '.' :: fraction
  | none => []

/-- The text of the number. -/
def chars (n : DecimalText) : List Char := (if n.negative then ['-'] else []) ++ (n.whole ++ n.tail)

/-- The number that is nearest to the decimal number, by `ofDecimal`. -/
def value (n : DecimalText) : Double :=
  .ofDecimal n.negative (digitsValue n.digits) (-((n.fraction?.getD []).length : Int))

end DecimalText

/-- What `readNumber?` reads behind the sign: digits with at most one point, and at least one digit. -/
def readUnsigned? (negative : Bool) (text : List Char) : Option Double :=
  let whole := text.takeWhile isDecimalDigit
  let fraction? : Option (List Char) := match text.dropWhile isDecimalDigit with
    | [] => some []
    | '.' :: fraction => if fraction.all isDecimalDigit then some fraction else none
    | _ => none
  match fraction? with
  | none => none
  | some fraction =>
    if whole.isEmpty && fraction.isEmpty then none
    else some (.ofDecimal negative (digitsValue (whole ++ fraction)) (-(fraction.length : Int)))

/-- Without a sign `readNumber?` reads the whole text. -/
theorem readNumber?_of_head_ne {text : List Char} (h : ∀ c ∈ text.head?, c ≠ '-') :
    readNumber? text = readUnsigned? false text := by
  unfold readNumber?
  split
  rename_i negative unsigned hsign
  split at hsign
  · exact absurd rfl (h '-' rfl)
  · obtain ⟨rfl, rfl⟩ := Prod.mk.inj hsign
    rfl

namespace DecimalText

/-- Without a sign, the text of a number starts with a digit or the point. -/
theorem head_ne_minus (n : DecimalText) : ∀ c ∈ (n.whole ++ n.tail).head?, c ≠ '-' := by
  rintro c hc rfl
  have hminus : isDecimalDigit '-' = false := by decide
  obtain ⟨negative, whole, fraction?, hne, hdigits⟩ := n
  -- The first character is a digit, or the point if there is no digit in front of it.
  cases whole with
  | nil => cases fraction? <;> simp [tail] at hc
  | cons c whole =>
    obtain rfl : c = '-' := by simpa using hc
    have hdigit := hdigits '-' List.mem_cons_self
    rw [hminus] at hdigit
    cases hdigit

/-- Behind the sign, `readUnsigned?` reads the text of a decimal number as that number. -/
theorem readUnsigned?_chars (n : DecimalText) :
    readUnsigned? n.negative (n.whole ++ n.tail) = some n.value := by
  obtain ⟨negative, whole, fraction?, hne, hdigits⟩ := n
  have hwhole : ∀ c ∈ whole, isDecimalDigit c = true := fun c hc => hdigits c (List.mem_append_left _ hc)
  unfold readUnsigned?
  cases fraction? with
  | none =>
    obtain ⟨htake, hdrop⟩ := takeWhile_dropWhile_append hwhole (stopsAt_nil isDecimalDigit)
    have hne : whole ≠ [] := by simpa using hne
    simp only [tail, htake, hdrop]
    simp [hne, value, digits]
  | some fraction =>
    have hpoint : StopsAt isDecimalDigit ('.' :: fraction) := stopsAt_cons.mpr (by decide)
    obtain ⟨htake, hdrop⟩ := takeWhile_dropWhile_append hwhole hpoint
    have hfraction : fraction.all isDecimalDigit = true :=
      List.all_eq_true.mpr fun c hc => hdigits c (List.mem_append_right _ hc)
    have hne : ¬(whole = [] ∧ fraction = []) := by simpa using hne
    simp only [tail, htake, hdrop, hfraction, if_true]
    simp [hne, value, digits]

end DecimalText

/-- Behind the sign, `readUnsigned?` reads nothing but decimal numbers. -/
theorem exists_of_readUnsigned? {negative : Bool} {text : List Char} {x : Double}
    (h : readUnsigned? negative text = some x) :
    ∃ n : DecimalText, n.negative = negative ∧ n.whole ++ n.tail = text ∧ n.value = x := by
  have hwhole := forall_mem_takeWhile isDecimalDigit text
  have hcut := List.takeWhile_append_dropWhile (p := isDecimalDigit) (l := text)
  unfold readUnsigned? at h
  -- Only that the two parts make up the text is used of them.
  generalize text.takeWhile isDecimalDigit = whole at h hwhole hcut
  generalize text.dropWhile isDecimalDigit = rest at h hcut
  dsimp only at h
  -- Behind the digits comes nothing, or the point.
  split at h
  · cases h
  · rename_i fraction hfraction
    simp only [Option.ite_none_left_eq_some, Option.some.injEq] at h
    obtain ⟨hne, rfl⟩ := h
    split at hfraction
    · obtain rfl := Option.some.inj hfraction
      exact ⟨⟨negative, whole, none, by simpa using hne, by simpa using hwhole⟩, rfl, hcut, rfl⟩
    · simp only [Option.ite_none_right_eq_some, Option.some.injEq] at hfraction
      obtain ⟨hdigits, rfl⟩ := hfraction
      refine ⟨⟨negative, whole, some _, by simpa using hne, fun c hc => ?_⟩, rfl, hcut, rfl⟩
      obtain hc | hc := List.mem_append.mp hc
      · exact hwhole c hc
      · exact List.all_eq_true.mp hdigits c hc
    · cases hfraction

/-- `readNumber?` reads exactly the decimal numbers, each as the number nearest to it. -/
theorem readNumber?_eq_some_iff {text : List Char} {x : Double} :
    readNumber? text = some x ↔ ∃ n : DecimalText, n.chars = text ∧ n.value = x := by
  constructor
  · intro h
    -- A minus sign is taken away first, and without one the whole text is unsigned.
    by_cases hsign : ∃ rest, text = '-' :: rest
    · obtain ⟨rest, rfl⟩ := hsign
      obtain ⟨n, hn, hrest, hx⟩ := exists_of_readUnsigned? h
      exact ⟨n, by simp [DecimalText.chars, hn, hrest], hx⟩
    · have hhead : ∀ c ∈ text.head?, c ≠ '-' := by
        rintro c hc rfl
        exact hsign ⟨_, List.eq_cons_of_mem_head? hc⟩
      rw [readNumber?_of_head_ne hhead] at h
      obtain ⟨n, hn, hrest, hx⟩ := exists_of_readUnsigned? h
      exact ⟨n, by simp [DecimalText.chars, hn, hrest], hx⟩
  · rintro ⟨n, rfl, rfl⟩
    have hread := n.readUnsigned?_chars
    unfold DecimalText.chars
    cases hn : n.negative with
    | true =>
      rw [hn] at hread
      exact hread
    | false =>
      rw [hn] at hread
      exact (readNumber?_of_head_ne n.head_ne_minus).trans hread

/-! ## Characters of the parts -/

/-- A code point that `inRanges` accepts is one of those that the ranges list. -/
theorem mem_of_inRanges {ranges : List (Nat × Nat)} {code : Nat} (h : inRanges ranges code = true) :
    code ∈ ranges.flatMap fun range => List.range' range.1 (range.2 + 1 - range.1) := by
  -- The ranges ascend, so the search may stop early, but it finds nothing that is not listed.
  induction ranges with
  | nil => cases h
  | cons range ranges ih =>
    simp only [inRanges] at h
    split at h
    · cases h
    · simp only [List.flatMap_cons, List.mem_append, List.mem_range'_1]
      split at h
      · left
        omega
      · exact .inr (ih h)

/-- What holds of all characters that ranges list holds of every character in them. -/
theorem forall_of_inRanges {p : Char → Prop} {ranges : List (Nat × Nat)}
    (h : ∀ code ∈ ranges.flatMap fun range => List.range' range.1 (range.2 + 1 - range.1), p (Char.ofNat code))
    {c : Char} (hc : inRanges ranges c.toNat = true) : p c := by
  rw [← Char.ofNat_toNat c]
  exact h c.toNat (mem_of_inRanges hc)

/-- White space by `isBlank` is not part of a number by `isNumberChar`. -/
theorem isBlank_of_isNumberChar {c : Char} (h : isNumberChar c = true) : isBlank c = false := by
  by_contra hblank
  have hcode : inRanges blankRanges c.toNat = true := Bool.not_eq_false _ ▸ hblank
  -- There are few white space characters, so all of them are looked at.
  have hnumber := forall_of_inRanges (p := fun c => isNumberChar c = false) (by decide) hcode
  rw [h] at hnumber
  cases hnumber

/-- A degree mark: the word `deg` behind white space, or the sign `°`. -/
def IsDegreeMark (gap mark : List Char) : Prop :=
  InAnyCase "deg".toList mark ∧ gap ≠ [] ∨ mark = ['°']

/-- The first character of an `IsDegreeMark` text is neither white space nor part of a number. -/
theorem IsDegreeMark.stopsAt {gap mark : List Char} (h : IsDegreeMark gap mark) :
    mark ≠ [] ∧ StopsAt isBlank mark ∧ StopsAt isNumberChar mark := by
  obtain ⟨hword, -⟩ | rfl := h
  · obtain ⟨c, rest, hc, -, rfl⟩ := List.forall₂_cons_right_iff.mp hword
    obtain rfl | rfl := hc <;> simp <;> decide
  · simp
    decide

/-! ## Splitting a text -/

/-- A text for a direction along a meridian, cut into its parts. -/
structure MeridianText where
  base : List Char
  beforeAlong : List Char
  along : List Char
  afterAlong : List Char
  number : List Char
  beforeMark : List Char
  mark : List Char
  afterMark : List Char
  /-- Empty if no side is given. -/
  side : List Char
  base_ne_nil : base ≠ []
  isBlank_of_mem_base : ∀ c ∈ base, isBlank c = false
  beforeAlong_ne_nil : beforeAlong ≠ []
  allBlank_beforeAlong : AllBlank beforeAlong
  along_inAnyCase : InAnyCase "along".toList along
  afterAlong_ne_nil : afterAlong ≠ []
  allBlank_afterAlong : AllBlank afterAlong
  number_ne_nil : number ≠ []
  isNumberChar_of_mem_number : ∀ c ∈ number, isNumberChar c = true
  allBlank_beforeMark : AllBlank beforeMark
  isDegreeMark : IsDegreeMark beforeMark mark
  allBlank_afterMark : AllBlank afterMark
  isBlank_of_mem_side : ∀ c ∈ side, isBlank c = false

namespace MeridianText

variable (t : MeridianText)

/-- What follows the degree mark. -/
def afterMarkChars : List Char := t.afterMark ++ t.side

/-- What follows the number. -/
def afterNumberChars : List Char := t.beforeMark ++ (t.mark ++ t.afterMarkChars)

/-- What follows the word `along`. -/
def afterAlongChars : List Char := t.afterAlong ++ (t.number ++ t.afterNumberChars)

/-- What follows the base word. -/
def afterBaseChars : List Char := t.beforeAlong ++ (t.along ++ t.afterAlongChars)

/-- The whole text. -/
def chars : List Char := t.base ++ t.afterBaseChars

/-- The parts that mean something. -/
def parts : MeridianParts := ⟨t.base, t.number, t.side⟩

/-- The word `along` ends the white space in front of it. -/
theorem along_stopsAt : StopsAt isBlank (t.along ++ t.afterAlongChars) := by
  obtain ⟨c, rest, hc, -, hrest⟩ := List.forall₂_cons_right_iff.mp t.along_inAnyCase
  rw [hrest]
  obtain rfl | rfl := hc <;> simp <;> decide

/-- The number ends the white space in front of it. -/
theorem number_stopsAt : StopsAt isBlank (t.number ++ t.afterNumberChars) :=
  (stopsAt_append t.number_ne_nil).mpr <| stopsAt_of_forall fun c hc =>
    isBlank_of_isNumberChar (t.isNumberChar_of_mem_number c hc)

/-- The degree mark ends the white space in front of it. -/
theorem mark_stopsAt : StopsAt isBlank (t.mark ++ t.afterMarkChars) :=
  (stopsAt_append t.isDegreeMark.stopsAt.1).mpr t.isDegreeMark.stopsAt.2.1

/-- The side ends the white space in front of it. -/
theorem side_stopsAt : StopsAt isBlank t.side := stopsAt_of_forall t.isBlank_of_mem_side

/-- White space ends the base word. -/
theorem afterBase_stopsAt : StopsAt (fun c => !isBlank c) t.afterBaseChars := by
  refine (stopsAt_append t.beforeAlong_ne_nil).mpr (stopsAt_of_forall fun c hc => ?_)
  simp [t.allBlank_beforeAlong c hc]

/-- White space or the degree mark ends the number. -/
theorem afterNumber_stopsAt : StopsAt isNumberChar t.afterNumberChars := by
  obtain ⟨hne, -, hmark⟩ := t.isDegreeMark.stopsAt
  unfold afterNumberChars
  by_cases hgap : t.beforeMark = []
  · simpa [hgap] using (stopsAt_append hne).mpr hmark
  · refine (stopsAt_append hgap).mpr (stopsAt_of_forall fun c hc => ?_)
    by_contra hnumber
    have hblank := isBlank_of_isNumberChar (Bool.not_eq_false _ ▸ hnumber)
    rw [t.allBlank_beforeMark c hc] at hblank
    cases hblank

/-- The base word is what the reader takes as long as there is no white space. -/
theorem not_isBlank_of_mem_base : ∀ c ∈ t.base, (!isBlank c) = true := fun c hc => by
  simp [t.isBlank_of_mem_base c hc]

/-- Two degree marks that start texts which are equal are equal. -/
private theorem mark_inj {gap gap' mark mark' rest rest' : List Char} (h : IsDegreeMark gap mark)
    (h' : IsDegreeMark gap' mark') (heq : mark ++ rest = mark' ++ rest') : mark = mark' ∧ rest = rest' := by
  -- The word and the sign start with different characters.
  have hdiffer {word : List Char} (hword : InAnyCase "deg".toList word) (r r' : List Char) :
      word ++ r ≠ ['°'] ++ r' := by
    obtain ⟨c, tail, hc, -, rfl⟩ := List.forall₂_cons_right_iff.mp hword
    rintro heq
    obtain rfl : c = '°' := (List.cons.inj heq).1
    exact absurd hc (by unfold IsCaseOf; decide)
  obtain ⟨hword, -⟩ | rfl := h
  · obtain ⟨hword', -⟩ | rfl := h'
    · exact List.append_inj heq (hword.length_eq.trans hword'.length_eq.symm)
    · exact absurd heq (hdiffer hword rest rest')
  · obtain ⟨hword', -⟩ | rfl := h'
    · exact absurd heq.symm (hdiffer hword' rest' rest)
    · exact List.append_inj heq rfl

/-- A text is cut in one way only: `chars` is injective. -/
theorem chars_injective : Function.Injective chars := by
  intro t u h
  -- Each part ends where the text leaves no choice, so the parts agree from the first to the last.
  obtain ⟨hbase, h⟩ := append_inj_of_stopsAt t.not_isBlank_of_mem_base u.not_isBlank_of_mem_base
    t.afterBase_stopsAt u.afterBase_stopsAt h
  obtain ⟨hbeforeAlong, h⟩ := append_inj_of_stopsAt t.allBlank_beforeAlong u.allBlank_beforeAlong
    t.along_stopsAt u.along_stopsAt h
  obtain ⟨halong, h⟩ := List.append_inj h
    (t.along_inAnyCase.length_eq.trans u.along_inAnyCase.length_eq.symm)
  obtain ⟨hafterAlong, h⟩ := append_inj_of_stopsAt t.allBlank_afterAlong u.allBlank_afterAlong
    t.number_stopsAt u.number_stopsAt h
  obtain ⟨hnumber, h⟩ := append_inj_of_stopsAt t.isNumberChar_of_mem_number u.isNumberChar_of_mem_number
    t.afterNumber_stopsAt u.afterNumber_stopsAt h
  obtain ⟨hbeforeMark, h⟩ := append_inj_of_stopsAt t.allBlank_beforeMark u.allBlank_beforeMark
    t.mark_stopsAt u.mark_stopsAt h
  obtain ⟨hmark, h⟩ := mark_inj t.isDegreeMark u.isDegreeMark h
  obtain ⟨hafterMark, hside⟩ := append_inj_of_stopsAt t.allBlank_afterMark u.allBlank_afterMark
    t.side_stopsAt u.side_stopsAt h
  cases t
  cases u
  simp only [mk.injEq]
  exact ⟨hbase, hbeforeAlong, halong, hafterAlong, hnumber, hbeforeMark, hmark, hafterMark, hside⟩

end MeridianText

/-! ## What the reader splits -/

/-- The word `along` is looked for in small letters. -/
theorem noCapitals_along : NoCapitals "along".toList := by decide

/-- The word `deg` is looked for in small letters. -/
theorem noCapitals_deg : NoCapitals "deg".toList := by decide

/-- The degree sign is no capital letter. -/
theorem noCapitals_sign : NoCapitals ['°'] := by decide

/-- The sign has only one case. -/
theorem inAnyCase_sign {mark : List Char} : InAnyCase ['°'] mark ↔ mark = ['°'] := by
  have hupper : '°'.toUpper = '°' := by decide
  simp [InAnyCase, IsCaseOf, hupper, List.forall₂_cons_right_iff]

/-- `afterDegreeMark?` takes a degree mark away with the white space in front of it. -/
theorem afterDegreeMark?_eq_some_iff {text rest : List Char} :
    afterDegreeMark? text = some rest ↔
      ∃ gap mark, AllBlank gap ∧ IsDegreeMark gap mark ∧ text = gap ++ (mark ++ rest) := by
  constructor
  · -- The word is tried first, and needs white space in front of it; the sign does not.
    intro h
    unfold afterDegreeMark? at h
    split at h
    · rename_i hbound
      obtain rfl := Option.some.inj h
      obtain ⟨afterGap, hgap, hword⟩ := Option.bind_eq_some_iff.mp hbound
      obtain ⟨mark, hmark, rfl⟩ := (afterWord?_eq_some_iff noCapitals_deg).mp hword
      obtain ⟨gap, hne, hblank, -, rfl⟩ := afterBlanks?_eq_some_iff.mp hgap
      exact ⟨gap, mark, hblank, .inl ⟨hmark, hne⟩, rfl⟩
    · obtain ⟨mark, hmark, hsign⟩ := (afterWord?_eq_some_iff noCapitals_sign).mp h
      obtain ⟨gap, hblank, -, htext⟩ := dropBlanks_eq_iff.mp hsign
      exact ⟨gap, mark, hblank, .inr (inAnyCase_sign.mp hmark), htext⟩
  · rintro ⟨gap, mark, hblank, hmark, rfl⟩
    obtain ⟨hne, hstops, -⟩ := hmark.stopsAt
    have hstops : StopsAt isBlank (mark ++ rest) := (stopsAt_append hne).mpr hstops
    unfold afterDegreeMark?
    obtain ⟨hword, hgap⟩ | rfl := hmark
    · have hafterGap : afterBlanks? (gap ++ (mark ++ rest)) = some (mark ++ rest) :=
        afterBlanks?_eq_some_iff.mpr ⟨gap, hgap, hblank, hstops, rfl⟩
      have hafterWord : afterWord? "deg".toList (mark ++ rest) = some rest :=
        (afterWord?_eq_some_iff noCapitals_deg).mpr ⟨mark, hword, rfl⟩
      rw [hafterGap, Option.bind_some, hafterWord]
    · -- Where the sign stands, the word does not.
      have hnone : (afterBlanks? (gap ++ (['°'] ++ rest))).bind (afterWord? "deg".toList) = none := by
        refine Option.bind_eq_none_iff.mpr fun afterGap hgap => ?_
        obtain ⟨gap', -, hblank', hstops', heq⟩ := afterBlanks?_eq_some_iff.mp hgap
        obtain ⟨-, rfl⟩ := append_inj_of_stopsAt hblank hblank' hstops hstops' heq
        rw [afterWord?, if_neg]
        simp [asciiLower]
      have hdrop : dropBlanks (gap ++ (['°'] ++ rest)) = ['°'] ++ rest :=
        dropBlanks_eq_iff.mpr ⟨gap, hblank, hstops, rfl⟩
      rw [hnone, hdrop]
      exact (afterWord?_eq_some_iff noCapitals_sign).mpr ⟨_, inAnyCase_sign.mpr rfl, rfl⟩

/-- `splitMeridian?` splits exactly the texts that can be cut, into the parts that mean something. -/
theorem splitMeridian?_eq_some_iff {text : List Char} {parts : MeridianParts} :
    splitMeridian? text = some parts ↔ ∃ t : MeridianText, t.chars = text ∧ t.parts = parts := by
  constructor
  · intro h
    obtain ⟨afterBase, hafterBase, hsplit⟩ := Option.bind_eq_some_iff.mp h
    obtain ⟨afterAlong, halong, hsplit⟩ := Option.bind_eq_some_iff.mp hsplit
    obtain ⟨side, hside, hparts⟩ := Option.bind_eq_some_iff.mp hsplit
    obtain ⟨afterWord, hword, hgap⟩ := Option.bind_eq_some_iff.mp halong
    obtain ⟨afterMark, hmark, hdrop⟩ := Option.map_eq_some_iff.mp hside
    split at hparts
    · rename_i hall
      simp only [Bool.and_eq_true, Bool.not_eq_true', List.isEmpty_eq_false_iff, List.all_eq_true] at hall
      obtain ⟨⟨hbase, hnumber⟩, hsolid⟩ := hall
      -- What each step has left is the text behind the part that it has taken.
      obtain ⟨beforeAlong, hne, hblank, -, hbehindBase⟩ := afterBlanks?_eq_some_iff.mp hafterBase
      obtain ⟨along, halong, hbehindGap⟩ := (afterWord?_eq_some_iff noCapitals_along).mp hword
      obtain ⟨gap, hne', hblank', -, hbehindWord⟩ := afterBlanks?_eq_some_iff.mp hgap
      obtain ⟨beforeMark, mark, hbefore, hdegree, hbehindNumber⟩ := afterDegreeMark?_eq_some_iff.mp hmark
      obtain ⟨gap', hafter, -, hbehindMark⟩ := dropBlanks_eq_iff.mp hdrop
      let t : MeridianText :=
        { base := text.takeWhile fun c => !isBlank c, beforeAlong := beforeAlong, along := along,
          afterAlong := gap, number := afterAlong.takeWhile isNumberChar, beforeMark := beforeMark,
          mark := mark, afterMark := gap', side := side, base_ne_nil := hbase,
          isBlank_of_mem_base := fun c hc => by simpa using forall_mem_takeWhile _ _ c hc,
          beforeAlong_ne_nil := hne, allBlank_beforeAlong := hblank, along_inAnyCase := halong,
          afterAlong_ne_nil := hne', allBlank_afterAlong := hblank', number_ne_nil := hnumber,
          isNumberChar_of_mem_number := forall_mem_takeWhile _ _, allBlank_beforeMark := hbefore,
          isDegreeMark := hdegree, allBlank_afterMark := hafter,
          isBlank_of_mem_side := fun c hc => by simpa using hsolid c hc }
      have hnumberChars : t.number ++ t.afterNumberChars = afterAlong := by
        show _ ++ (beforeMark ++ (mark ++ (gap' ++ side))) = _
        rw [← hbehindMark, ← hbehindNumber, List.takeWhile_append_dropWhile]
      refine ⟨t, ?_, Option.some.inj hparts⟩
      show _ ++ (beforeAlong ++ (along ++ (gap ++ (t.number ++ t.afterNumberChars)))) = _
      rw [hnumberChars, ← hbehindWord, ← hbehindGap, ← hbehindBase, List.takeWhile_append_dropWhile]
    · cases hparts
  · rintro ⟨t, rfl, rfl⟩
    -- Step by step, the reader takes away the part that comes next.
    obtain ⟨htakeBase, hdropBase⟩ := takeWhile_dropWhile_append t.not_isBlank_of_mem_base t.afterBase_stopsAt
    obtain ⟨htakeNumber, hdropNumber⟩ :=
      takeWhile_dropWhile_append t.isNumberChar_of_mem_number t.afterNumber_stopsAt
    have hafterBase : afterBlanks? t.afterBaseChars = some (t.along ++ t.afterAlongChars) :=
      afterBlanks?_eq_some_iff.mpr ⟨_, t.beforeAlong_ne_nil, t.allBlank_beforeAlong, t.along_stopsAt, rfl⟩
    have hword : afterWord? "along".toList (t.along ++ t.afterAlongChars) = some t.afterAlongChars :=
      (afterWord?_eq_some_iff noCapitals_along).mpr ⟨_, t.along_inAnyCase, rfl⟩
    have hgap : afterBlanks? t.afterAlongChars = some (t.number ++ t.afterNumberChars) :=
      afterBlanks?_eq_some_iff.mpr ⟨_, t.afterAlong_ne_nil, t.allBlank_afterAlong, t.number_stopsAt, rfl⟩
    have hmark : afterDegreeMark? t.afterNumberChars = some t.afterMarkChars :=
      afterDegreeMark?_eq_some_iff.mpr ⟨_, _, t.allBlank_beforeMark, t.isDegreeMark, rfl⟩
    have hside : dropBlanks t.afterMarkChars = t.side :=
      dropBlanks_eq_iff.mpr ⟨_, t.allBlank_afterMark, t.side_stopsAt, rfl⟩
    have hsolid : t.side.all (fun c => !isBlank c) = true :=
      List.all_eq_true.mpr fun c hc => by simp [t.isBlank_of_mem_side c hc]
    unfold splitMeridian? MeridianText.chars
    simp only [htakeBase, hdropBase, hafterBase, hword, hgap, htakeNumber, hdropNumber, hmark, hside, hsolid,
      Option.bind_eq_bind, Option.bind_some, Option.map_some]
    simp [t.base_ne_nil, t.number_ne_nil, MeridianText.parts]

/-! ## What the parts mean -/

/-- Among `cardinalDirections`, `findDirection` finds one of the four. -/
theorem of_findDirection_cardinal {name : List Char} {d : Direction}
    (h : findDirection name cardinalDirections = some d) :
    d = .north ∨ d = .south ∨ d = .east ∨ d = .west := by
  have hmem : d ∈ cardinalDirections := List.mem_of_find?_eq_some h
  simpa [cardinalDirections] using hmem

/-- Of the `cardinalDirections`, two point to a pole. -/
theorem absolute_eq_north_iff {name : List Char} {d : Direction}
    (h : findDirection name cardinalDirections = some d) :
    d.absolute = .north ↔ d = .north ∨ d = .south := by
  obtain rfl | rfl | rfl | rfl := of_findDirection_cardinal h <;> decide

/-- `westward?` understands a side exactly if it is missing or leads to east or to west. -/
theorem westward?_eq_some_iff {side : List Char} {westward : Bool} :
    westward? side = some westward ↔
      if westward then findDirection side cardinalDirections = some .west
      else side = [] ∨ findDirection side cardinalDirections = some .east := by
  have hempty : findDirection [] cardinalDirections = none := by decide
  have hdirections : Direction.north.absolute ≠ .east ∧ Direction.south.absolute ≠ .east ∧
      Direction.east.absolute = .east ∧ Direction.west.absolute = .east ∧
      Direction.north ≠ .east ∧ Direction.north ≠ .west ∧ Direction.south ≠ .east ∧
      Direction.south ≠ .west ∧ Direction.west ≠ .east ∧ Direction.east ≠ .west := by
    decide
  unfold westward?
  by_cases hside : side = []
  · cases westward <;> simp [hside, hempty]
  · cases hfind : findDirection side cardinalDirections with
    | none => cases westward <;> simp [hside]
    | some d =>
      obtain rfl | rfl | rfl | rfl := of_findDirection_cardinal hfind <;>
        cases westward <;> simp [hside, hdirections]

namespace MeridianDirection

/-- Whatever `parse?` reads has parts that are all understood. -/
theorem parse?_eq_some_iff {text : List Char} {m : MeridianDirection} :
    parse? text = some m ↔ ∃ parts base written westward,
      splitMeridian? text = some parts ∧
      findDirection parts.base cardinalDirections = some base ∧ base.absolute = .north ∧
      readNumber? parts.number = some written ∧ inRange written = true ∧
      westward? parts.side = some westward ∧
      m = ⟨base, canonicalLongitude (if westward then -written else written), none⟩ := by
  constructor
  · intro h
    obtain ⟨parts, hsplit, h⟩ := Option.bind_eq_some_iff.mp h
    obtain ⟨base, hbase, h⟩ := Option.bind_eq_some_iff.mp h
    split at h
    · cases h
    rename_i hnorth
    obtain ⟨-, -, h⟩ := Option.bind_eq_some_iff.mp h
    obtain ⟨written, hwritten, h⟩ := Option.bind_eq_some_iff.mp h
    split at h
    · cases h
    rename_i hrange
    obtain ⟨-, -, h⟩ := Option.bind_eq_some_iff.mp h
    obtain ⟨westward, hwestward, h⟩ := Option.bind_eq_some_iff.mp h
    exact ⟨parts, base, written, westward, hsplit, hbase, not_not.mp hnorth, hwritten, by simpa using hrange,
      hwestward, (Option.some.inj h).symm⟩
  · rintro ⟨parts, base, written, westward, hsplit, hbase, hnorth, hwritten, hrange, hwestward, rfl⟩
    simp only [parse?, hsplit, hbase, hnorth, hwritten, hrange, hwestward, Option.bind_eq_bind,
      Option.bind_some]
    rfl

end MeridianDirection

end Georef

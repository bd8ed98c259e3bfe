import Georef.Proofs.Direction.Learning
import Georef.Proofs.Meridian.Order
import Georef.Proofs.Meridian.Reading

/-!
# Canonical texts of meridians, written and read

The canonical text of a direction along a meridian is split by the reader exactly where the writer put its
parts together. Its degrees are read as the very number that was written, because they are a whole number or
the shortest decimal that reads back, and the side gives back the sign. What is read is the direction with its
longitude made canonical, and that has the same text.

## Key results

- `readNumber?_degreeChars`: the degrees are read as the size of the longitude
- `parse?_chars`: reading a canonical text gives the direction with its longitude made canonical
- `chars_canonicalLongitude`: making a longitude canonical changes no text
- `text_roundTrip`: what is read is canonical, and what is canonical is read from its text
-/

namespace Georef

open Double

namespace MeridianDirection

variable {m : MeridianDirection}

/-! ## Degrees and sides -/

/-- `readNumber?` reads the `degreeChars` as the size of the longitude. -/
theorem readNumber?_degreeChars (hm : m.meridian.Finite) :
    readNumber? m.degreeChars = some m.meridian.abs := by
  unfold degreeChars
  dsimp only
  split
  · rename_i hinteger
    -- A whole number of degrees is written with its digits alone.
    have hdigits : ∀ c ∈ digitChars m.meridian.abs.truncate.natAbs, IsWrittenDigit c :=
      fun c hc => isWrittenDigit_of_mem_digitChars hc
    have hread := readNumber?_digits [] [] hdigits (digitChars_ne_nil _) (by simp)
      (.inl ⟨rfl, rfl⟩)
    rw [List.append_nil, digitsValue_digitChars] at hread
    rw [hread]
    exact congrArg some (ofDecimal_truncate hinteger rfl)
  · -- Any other number is written as the shortest decimal, at full length.
    show readNumber? (shortest m.meridian.abs.magnitude).positional = _
    rw [readNumber?_positional]
    exact congrArg some (ofDecimal_shortest hm.abs rfl)

/-- `degreeChars` are digits and perhaps a point. -/
theorem mem_degreeChars {c : Char} (h : c ∈ m.degreeChars) : IsWrittenDigit c ∨ c = '.' := by
  unfold degreeChars at h
  dsimp only at h
  split at h
  · exact .inl (isWrittenDigit_of_mem_digitChars h)
  · replace h : c ∈ (shortest m.meridian.abs.magnitude).positional := h
    unfold Decimal.positional at h
    split at h
    · exact .inl (Decimal.isWrittenDigit_of_mem_wholeDigits h)
    · obtain h | h := List.mem_append.mp h
      · exact .inl (Decimal.isWrittenDigit_of_mem_wholeDigits h)
      · obtain rfl | h := List.mem_cons.mp h
        · exact .inr rfl
        · exact .inl (Decimal.isWrittenDigit_of_mem_fractionDigits h)

/-- All `degreeChars` belong to the number. -/
theorem isNumberChar_of_mem_degreeChars {c : Char} (h : c ∈ m.degreeChars) : isNumberChar c = true := by
  obtain h | rfl := mem_degreeChars h
  · exact h.isNumberChar
  · decide

/-- There is a digit at least among the `degreeChars`. -/
theorem degreeChars_ne_nil (m : MeridianDirection) : m.degreeChars ≠ [] := by
  unfold degreeChars
  dsimp only
  split
  · exact digitChars_ne_nil _
  · show (shortest m.meridian.abs.magnitude).positional ≠ []
    unfold Decimal.positional
    split
    · exact Decimal.wholeDigits_ne_nil _
    · exact List.append_ne_nil_of_right_ne_nil _ (List.cons_ne_nil _ _)

/-- `sideChars` are one letter at most. -/
theorem sideChars_cases (m : MeridianDirection) : m.sideChars = [] ∨ m.sideChars = ['W'] ∨ m.sideChars = ['E'] := by
  unfold sideChars
  dsimp only
  split
  · exact .inl rfl
  · split
    · exact .inr (.inl rfl)
    · exact .inr (.inr rfl)

/-- `sideChars` are written without white space. -/
theorem isBlank_of_mem_sideChars {c : Char} (h : c ∈ m.sideChars) : isBlank c = false := by
  have hletters : isBlank 'W' = false ∧ isBlank 'E' = false := by decide
  obtain hside | hside | hside := m.sideChars_cases <;> simp [hside] at h
  · exact h ▸ hletters.1
  · exact h ▸ hletters.2

/-! ## Longitudes -/

/-- `inRange` by the `ordinal` of a longitude. -/
theorem inRange_iff {x : Double} : inRange x = true ↔ (x.ordinal.natAbs : Int) ≤ halfTurn := by
  constructor
  · intro h
    exact Accepted.ordinal_natAbs_le (a := ⟨.north, x, none⟩) ⟨.inl rfl, h⟩
  · intro h
    have hturns := halfTurn_lt_fullTurn
    have hx : x.Finite := finite_of_le_fullTurn (by omega)
    rw [inRange, Bool.and_eq_true, decide_eq_true_eq, decide_eq_true_eq, finite_leastLongitude.le_iff hx,
      hx.le_iff finite_greatestLongitude, ordinal_leastLongitude, ordinal_greatestLongitude]
    omega

/-- `canonicalLongitude` by the `ordinal` of a longitude. -/
theorem canonicalLongitude_eq {x : Double} (hx : x.Finite) :
    canonicalLongitude x =
      if x.ordinal = 0 then 0 else if x.ordinal = -halfTurn then greatestLongitude else x := by
  simp only [canonicalLongitude, hx.beq_iff finite_zero, hx.beq_iff finite_leastLongitude,
    ordinal_leastLongitude, ordinal_zero]

/-- The longitudes that a direction along a meridian has after it was read. -/
def Canonical (x : Double) : Prop :=
  leastLongitude < x ∧ x ≤ greatestLongitude ∧ x ≠ signedZero true

/-- In range, `canonicalLongitude` gives a `Canonical` one. -/
theorem canonical_canonicalLongitude {x : Double} (hx : inRange x = true) :
    Canonical (canonicalLongitude x) := by
  have hfinite : x.Finite := Accepted.finite (a := ⟨.north, x, none⟩) ⟨.inl rfl, hx⟩
  have hends : Canonical 0 ∧ Canonical greatestLongitude := by
    unfold Canonical
    decide +kernel
  rw [canonicalLongitude_eq hfinite]
  split
  · exact hends.1
  rename_i hzero
  split
  · exact hends.2
  rename_i hleast
  have hrange := inRange_iff.mp hx
  rw [inRange, Bool.and_eq_true, decide_eq_true_eq, decide_eq_true_eq] at hx
  refine ⟨?_, hx.2, fun heq => hzero (by rw [heq]; rfl)⟩
  rw [finite_leastLongitude.lt_iff hfinite, ordinal_leastLongitude]
  omega

/-- A `Canonical` longitude is in range. -/
theorem Canonical.inRange {x : Double} (hx : Canonical x) : inRange x = true := by
  obtain ⟨hlow, hhigh, -⟩ := hx
  have hle := ordinal_le_of_le hhigh
  have hlt : leastLongitude.lt x = true := hlow
  rw [ordinal_greatestLongitude] at hle
  simp only [lt, Bool.and_eq_true, decide_eq_true_eq, ordinal_leastLongitude] at hlt
  rw [inRange_iff]
  omega

/-- `canonicalLongitude` keeps a `Canonical` longitude. -/
theorem Canonical.canonicalLongitude {x : Double} (hx : Canonical x) : canonicalLongitude x = x := by
  have hfinite : x.Finite := Accepted.finite (a := ⟨.north, x, none⟩) ⟨.inl rfl, hx.inRange⟩
  obtain ⟨hlow, -, hnonzero⟩ := hx
  rw [finite_leastLongitude.lt_iff hfinite, ordinal_leastLongitude] at hlow
  rw [canonicalLongitude_eq hfinite]
  split
  · rename_i hzero
    have hmagnitude : x.magnitude = 0 := by
      have := natAbs_ordinal x
      omega
    -- Of the two zeros only the positive one is canonical.
    cases hsign : x.negative with
    | true => exact absurd (eq_of_magnitude hsign hmagnitude) hnonzero
    | false => exact (eq_of_magnitude hsign hmagnitude).symm
  · rw [if_neg (by omega)]

/-- `westward?` reads from the `sideChars` the sign of the size, up to what is made canonical. -/
theorem westward?_sideChars (hm : m.Accepted) :
    ∃ westward, westward? m.sideChars = some westward ∧
      canonicalLongitude (if westward then -m.meridian.abs else m.meridian.abs) =
        canonicalLongitude m.meridian := by
  have hwords : westward? [] = some false ∧ westward? ['W'] = some true ∧ westward? ['E'] = some false := by
    decide
  have hfinite := hm.finite
  have hsize := ordinal_abs m.meridian
  have hopposite := ordinal_neg m.meridian.abs
  unfold sideChars
  dsimp only
  split
  · rename_i hends
    -- At the ends no side is written, and both signs have the same canonical longitude.
    refine ⟨false, hwords.1, ?_⟩
    rw [Bool.or_eq_true, hfinite.abs.beq_iff finite_zero, hfinite.abs.beq_iff finite_greatestLongitude,
      ordinal_zero, ordinal_greatestLongitude, hsize] at hends
    rw [if_neg Bool.false_ne_true, canonicalLongitude_eq hfinite.abs, canonicalLongitude_eq hfinite, hsize]
    have hhalfPos : 0 < halfTurn := by decide
    have hgreatest := ordinal_greatestLongitude
    obtain hends | hends := hends
    · rw [if_pos hends, if_pos (by omega)]
    · rw [if_neg (by omega), if_neg (by omega), if_neg (by omega)]
      split
      · exact eq_of_ordinal (by omega) (by omega)
      · exact eq_of_ordinal (by omega) (by omega)
  · rename_i hbetween
    rw [Bool.or_eq_true, hfinite.abs.beq_iff finite_zero, hfinite.abs.beq_iff finite_greatestLongitude,
      ordinal_zero, ordinal_greatestLongitude, hsize] at hbetween
    split
    · rename_i hnegative
      refine ⟨true, hwords.2.1, ?_⟩
      rw [hfinite.lt_iff finite_zero, ordinal_zero] at hnegative
      -- West of Greenwich the size is turned back.
      have hback : -m.meridian.abs = m.meridian := eq_of_ordinal (by omega) (by omega)
      rw [if_pos rfl, hback]
    · rename_i hpositive
      refine ⟨false, hwords.2.2, ?_⟩
      rw [hfinite.lt_iff finite_zero, ordinal_zero] at hpositive
      have hback : m.meridian.abs = m.meridian := eq_of_ordinal (by omega) (by omega)
      rw [if_neg Bool.false_ne_true, hback]

/-! ## Reading what was written -/

/-- The word for a pole is one word, under which `findDirection` finds that pole. -/
theorem findDirection_base (hbase : m.base = .north ∨ m.base = .south) :
    capitalize m.base.name.toList ≠ [] ∧ (∀ c ∈ capitalize m.base.name.toList, isBlank c = false) ∧
      findDirection (capitalize m.base.name.toList) cardinalDirections = some m.base ∧
      m.base.absolute = .north := by
  have hpoles : ∀ base ∈ [Direction.north, Direction.south],
      capitalize base.name.toList ≠ [] ∧ (capitalize base.name.toList).all (fun c => !isBlank c) = true ∧
        findDirection (capitalize base.name.toList) cardinalDirections = some base ∧
        base.absolute = .north := by
    decide
  obtain ⟨hne, hblank, hfound⟩ := hpoles m.base (by simpa using hbase)
  exact ⟨hne, fun c hc => isBlank_of_mem_word hblank hc, hfound⟩

/-- `parse?` reads a canonical text as the direction with its longitude made canonical. -/
theorem parse?_chars (hm : m.Accepted) :
    parse? m.chars = some ⟨m.base, canonicalLongitude m.meridian, none⟩ := by
  obtain ⟨hne, hblank, hbase, hnorth⟩ := findDirection_base hm.base
  obtain ⟨westward, hwestward, hlongitude⟩ := westward?_sideChars hm
  have hsplit := splitMeridian?_eq hne hblank m.degreeChars_ne_nil
    (fun c hc => isNumberChar_of_mem_degreeChars hc) (fun c hc => isBlank_of_mem_sideChars (m := m) hc)
  -- The size of a longitude is in range as the longitude is.
  have hrange : inRange m.meridian.abs = true := by
    rw [inRange_iff, ordinal_abs]
    exact hm.ordinal_natAbs_le
  refine parse?_eq_some_iff.mpr ⟨_, m.base, m.meridian.abs, westward, hsplit, hbase, hnorth,
    readNumber?_degreeChars hm.finite, hrange, hwestward, ?_⟩
  rw [hlongitude]

/-- On the meridians of Greenwich and of the antipodes no side is written. -/
private theorem sideChars_of_ends (h : m.meridian.abs = 0 ∨ m.meridian.abs = greatestLongitude) :
    m.sideChars = [] := by
  have hzero := (finite_zero.beq_iff finite_zero).mpr rfl
  have hgreatest := (finite_greatestLongitude.beq_iff finite_greatestLongitude).mpr rfl
  unfold sideChars
  dsimp only
  obtain h | h := h
  · rw [h, hzero]
    rfl
  · rw [h, hgreatest, Bool.or_true]
    rfl

/-- Making a longitude canonical changes no text. -/
theorem chars_canonicalLongitude (hm : m.meridian.Finite) :
    (⟨m.base, canonicalLongitude m.meridian, none⟩ : MeridianDirection).chars = m.chars := by
  -- Only the size of a longitude and its side are written, and the side is left out at the ends.
  have hsame (x : Double) (habs : x.abs = m.meridian.abs)
      (hends : x = m.meridian ∨ x.abs = 0 ∨ x.abs = greatestLongitude) :
      (⟨m.base, x, none⟩ : MeridianDirection).chars = m.chars := by
    have hdegrees : (⟨m.base, x, none⟩ : MeridianDirection).degreeChars = m.degreeChars := by
      simp only [degreeChars, habs]
    have hside : (⟨m.base, x, none⟩ : MeridianDirection).sideChars = m.sideChars := by
      obtain rfl | hends := hends
      · rfl
      · rw [sideChars_of_ends (m := ⟨m.base, x, none⟩) hends, sideChars_of_ends (habs ▸ hends)]
    simp only [chars, hdegrees, hside]
  rw [canonicalLongitude_eq hm]
  split
  · rename_i hzero
    have hmagnitude := natAbs_ordinal m.meridian
    have habs : (0 : Double).abs = m.meridian.abs :=
      eq_of_magnitude rfl (show 0 = m.meridian.magnitude by omega)
    exact hsame 0 habs (.inr (.inl rfl))
  · split
    · rename_i hne hleast
      have hhalfPos : 0 < halfTurn := by decide
      have hplace := ordinal_abs greatestLongitude
      have hplace' := ordinal_abs m.meridian
      rw [ordinal_greatestLongitude] at hplace
      have hpositive : greatestLongitude.abs = greatestLongitude :=
        eq_of_ordinal (by rw [ordinal_greatestLongitude]; omega) (by omega)
      have habs : greatestLongitude.abs = m.meridian.abs := eq_of_ordinal (by omega) (by omega)
      exact hsame greatestLongitude habs (.inr (.inr hpositive))
    · exact hsame m.meridian rfl (.inl rfl)

/-- Whatever `parse?` reads has a `Canonical` longitude. -/
theorem canonical_of_parse {text : List Char} (h : parse? text = some m) : Canonical m.meridian := by
  obtain ⟨parts, base, written, westward, -, -, -, -, hwritten, -, rfl⟩ := parse?_eq_some_iff.mp h
  refine canonical_canonicalLongitude ?_
  split
  · rw [inRange_iff, ordinal_neg, Int.natAbs_neg]
    exact inRange_iff.mp hwritten
  · exact hwritten

/-- What is read is a direction from a pole along a canonical longitude, and every such direction is read from
    its canonical text with exactly this longitude, so that its text is given back. -/
theorem text_roundTrip :
    (∀ (text : List Char) (m : MeridianDirection), parse? text = some m →
      (m.base = .north ∨ m.base = .south) ∧ Canonical m.meridian) ∧
    (∀ m : MeridianDirection, m.base = .north ∨ m.base = .south → Canonical m.meridian →
      ∃ again, parse? m.text.toList = some again ∧ again.base = m.base ∧ again.meridian = m.meridian ∧
        again.text = m.text) := by
  refine ⟨fun text m h => ⟨(base_of_parse h).1, canonical_of_parse h⟩, fun m hbase hmeridian => ?_⟩
  have hm : m.Accepted := ⟨hbase, hmeridian.inRange⟩
  refine ⟨⟨m.base, canonicalLongitude m.meridian, none⟩, ?_, rfl, hmeridian.canonicalLongitude, ?_⟩
  · rw [text, String.toList_ofList]
    exact parse?_chars hm
  · rw [text, text, chars_canonicalLongitude hm.finite]

/-- A text whose sign and side both point west, and the number nearest to zero west of Greenwich. -/
theorem text_roundTrip_west :
    (∃ m, parse? "north along -45 deg w".toList = some m ∧ m.text = "North along 45°E" ∧
      Canonical m.meridian) ∧
    ∃ again, parse? (MeridianDirection.text ⟨.south, -(5e-324 : Double), none⟩).toList = some again ∧
      again.base = .south ∧ again.meridian = -(5e-324 : Double) := by
  have hread : parse? "north along -45 deg w".toList = some ⟨.north, (45.0 : Double), none⟩ := by
    decide +kernel
  have htext : MeridianDirection.text ⟨.north, (45.0 : Double), none⟩ = "North along 45°E" := by decide +kernel
  have hleast : Canonical (-(5e-324 : Double)) := by
    unfold Canonical
    decide +kernel
  obtain ⟨again, hagain, hbase, hmeridian, -⟩ :=
    text_roundTrip.2 ⟨.south, -(5e-324 : Double), none⟩ (.inr rfl) hleast
  exact ⟨⟨_, hread, htext, (text_roundTrip.1 _ _ hread).2⟩, again, hagain, hbase, hmeridian⟩

end MeridianDirection

end Georef

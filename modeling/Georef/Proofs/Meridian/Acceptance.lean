import Georef.Proofs.Meridian.RoundTrip

/-!
# The accepted directions along a meridian

The grammar says how a text is cut, not whether its parts mean something. `MeridianText.Means` is what they have
to mean: the base word leads to a pole, the number is a decimal number in range, and the side, if there is one,
leads to east or to west. These texts are accepted and no others, and the cut, which is the only one, gives the
base and the longitude of what is read.

## Key results

- `MeridianText.Means.parse?_eq`: what is read from a text whose parts are understood
- `MeridianText.exists_means_of_parse?`: nothing is read from any other text
- `parse?_accepts_grammar`: the accepted texts, each with its only cut and its value
-/

namespace Georef

open Double MeridianDirection

/-- What the parts of a text mean: the base that its base word leads to, the number that is written, and whether
the side turns the longitude to the west. -/
structure MeridianText.Means (t : MeridianText) (base : Direction) (written : Double) (westward : Bool) : Prop where
  base_found : findDirection t.base cardinalDirections = some base
  base_isPole : base = .north ∨ base = .south
  /-- The number is a decimal number, read as the nearest number. -/
  number_read : ∃ n : DecimalText, n.chars = t.number ∧ n.value = written
  number_inRange : -(180.0 : Double) ≤ written ∧ written ≤ (180.0 : Double)
  /-- No side means east. -/
  side_found : if westward then findDirection t.side cardinalDirections = some .west
    else t.side = [] ∨ findDirection t.side cardinalDirections = some .east

/-- The longitude that is read: the written one, turned to the west or not, without a negative zero and with 180
in place of -180. -/
def turnedLongitude (written : Double) (westward : Bool) : Double :=
  let turned := if westward then -written else written
  if turned = signedZero true then 0 else if turned = -(180.0 : Double) then (180.0 : Double) else turned

/-- `turnedLongitude` is the canonical longitude: both zeros, and no other number, become the
    positive zero. -/
theorem turnedLongitude_eq {written : Double} (h : written.Finite) (westward : Bool) :
    turnedLongitude written westward = canonicalLongitude (if westward then -written else written) := by
  have hends : (signedZero true).ordinal = 0 ∧ (-(180.0 : Double)).ordinal = -halfTurn ∧ 0 < halfTurn := by
    decide +kernel
  obtain ⟨hzero, hleast, hhalf⟩ := hends
  unfold turnedLongitude
  dsimp only
  generalize hx : (if westward then -written else written) = x
  have hfinite : x.Finite := by
    subst hx
    cases westward
    · exact h
    · exact h.neg
  rw [canonicalLongitude_eq hfinite]
  by_cases hnegative : x = signedZero true
  · simp [hnegative, hzero]
  by_cases hend : x = -(180.0 : Double)
  · rw [if_neg hnegative, if_pos hend, hend, hleast, if_neg (by omega), if_pos rfl]
    rfl
  -- The positive zero stays, and no other number stands at the place of a zero or of -180.
  have hother : x.ordinal ≠ -halfTurn := fun heq =>
    hend (eq_of_ordinal (by rw [heq, hleast]) (by omega))
  rw [if_neg hnegative, if_neg hend, if_neg hother]
  split
  · rename_i hplace
    have hmagnitude : x.magnitude = 0 := by
      rw [← natAbs_ordinal, hplace]
      rfl
    cases hsign : x.negative with
    | true => exact absurd (eq_of_magnitude hsign hmagnitude) hnegative
    | false => exact eq_of_magnitude hsign hmagnitude
  · rfl

namespace MeridianText

variable {text : List Char} {t : MeridianText} {base : Direction} {written : Double} {westward : Bool}

/-- What `parse?` reads from a text whose parts are understood. -/
theorem Means.parse?_eq (h : t.Means base written westward) :
    parse? t.chars = some ⟨base, turnedLongitude written westward, none⟩ := by
  -- The text can be cut in one way only, so it is split into these parts.
  have hsplit : splitMeridian? t.chars = some t.parts := splitMeridian?_eq_some_iff.mpr ⟨t, rfl, rfl⟩
  have hnorth : base.absolute = .north := (absolute_eq_north_iff h.base_found).mpr h.base_isPole
  have hread : readNumber? t.parts.number = some written := readNumber?_eq_some_iff.mpr h.number_read
  have hrange : inRange written = true := by
    rw [MeridianDirection.inRange, Bool.and_eq_true, decide_eq_true_eq, decide_eq_true_eq]
    exact h.number_inRange
  have hside : westward? t.parts.side = some westward := westward?_eq_some_iff.mpr h.side_found
  have hfinite : written.Finite := Accepted.finite (a := ⟨.north, written, none⟩) ⟨.inl rfl, hrange⟩
  refine parse?_eq_some_iff.mpr ⟨t.parts, base, written, westward, hsplit, h.base_found, hnorth, hread, hrange,
    hside, ?_⟩
  rw [turnedLongitude_eq hfinite]

/-- A text from which `parse?` reads something is cut into parts that are understood. -/
theorem exists_means_of_parse? {m : MeridianDirection} (h : parse? text = some m) :
    ∃ (t : MeridianText) (base : Direction) (written : Double) (westward : Bool),
      t.chars = text ∧ t.Means base written westward := by
  obtain ⟨parts, base, written, westward, hsplit, hbase, hnorth, hread, hrange, hside, -⟩ :=
    parse?_eq_some_iff.mp h
  -- What is split is put together from all its parts, white space included.
  obtain ⟨t, rfl, rfl⟩ := splitMeridian?_eq_some_iff.mp hsplit
  rw [MeridianDirection.inRange, Bool.and_eq_true, decide_eq_true_eq, decide_eq_true_eq] at hrange
  exact ⟨t, base, written, westward, rfl,
    { base_found := hbase
      base_isPole := (absolute_eq_north_iff hbase).mp hnorth
      number_read := readNumber?_eq_some_iff.mp hread
      number_inRange := hrange
      side_found := westward?_eq_some_iff.mp hside }⟩

end MeridianText

namespace MeridianDirection

/-- A text is accepted by `parse?` exactly if it can be cut into parts that are all understood. It
    can be cut in one way only, and the parts give the base and the longitude that are read. -/
theorem parse?_accepts_grammar (text : List Char) :
    ((parse? text).isSome ↔ ∃ (t : MeridianText) (base : Direction) (written : Double) (westward : Bool),
      t.chars = text ∧ t.Means base written westward) ∧
    (∀ t u : MeridianText, t.chars = text → u.chars = text → t = u) ∧
    ∀ (t : MeridianText) (base : Direction) (written : Double) (westward : Bool), t.chars = text →
      t.Means base written westward →
      parse? text = some ⟨base, turnedLongitude written westward, none⟩ := by
  refine ⟨⟨fun h => ?_, ?_⟩, fun t u ht hu => ?_, ?_⟩
  · obtain ⟨m, hm⟩ := Option.isSome_iff_exists.mp h
    exact MeridianText.exists_means_of_parse? hm
  · rintro ⟨t, base, written, westward, rfl, hmeans⟩
    rw [hmeans.parse?_eq]
    rfl
  · exact MeridianText.chars_injective (ht.trans hu.symm)
  · rintro t base written westward rfl hmeans
    exact hmeans.parse?_eq

/-- The parts of a text with more white space than it needs, whose number has a sign and whose side turns it back. -/
private theorem exists_wordy : ∃ t : MeridianText, t.chars = "north  aLong\t-45.50 DEGw".toList ∧
    t.base = "north".toList ∧ t.number = "-45.50".toList ∧ t.side = "w".toList :=
  ⟨{ base := "north".toList
     beforeAlong := "  ".toList
     along := "aLong".toList
     afterAlong := "\t".toList
     number := "-45.50".toList
     beforeMark := " ".toList
     mark := "DEG".toList
     afterMark := []
     side := "w".toList
     base_ne_nil := by decide
     isBlank_of_mem_base := fun _ hc => isBlank_of_mem_word (by decide) hc
     beforeAlong_ne_nil := by decide
     allBlank_beforeAlong := List.all_eq_true.mp (by decide)
     along_inAnyCase := by simp [InAnyCase, IsCaseOf]
     afterAlong_ne_nil := by decide
     allBlank_afterAlong := List.all_eq_true.mp (by decide)
     number_ne_nil := by decide
     isNumberChar_of_mem_number := List.all_eq_true.mp (by decide)
     allBlank_beforeMark := List.all_eq_true.mp (by decide)
     isDegreeMark := .inl (by simp [InAnyCase, IsCaseOf])
     allBlank_afterMark := .nil
     isBlank_of_mem_side := fun _ hc => isBlank_of_mem_word (by decide) hc },
    by decide, rfl, rfl, rfl⟩

/-- The number and the side of the text both point west, so the longitude that is read is east. -/
theorem parse?_accepts_grammar_wordy :
    (parse? "north  aLong\t-45.50 DEGw".toList).isSome ∧
      parse? "north  aLong\t-45.50 DEGw".toList = some ⟨.north, (45.5 : Double), none⟩ ∧
      ∃ t : MeridianText, ∀ u : MeridianText, u.chars = "north  aLong\t-45.50 DEGw".toList ↔ u = t := by
  obtain ⟨t, hchars, hbase, hnumber, hside⟩ := exists_wordy
  have hmeans : t.Means .north (-(45.5 : Double)) true :=
    { base_found := by
        rw [hbase]
        decide +kernel
      base_isPole := .inl rfl
      number_read := by
        rw [hnumber]
        exact ⟨⟨true, ['4', '5'], some ['5', '0'], by decide, List.all_eq_true.mp (by decide +kernel)⟩, by decide,
          by decide +kernel⟩
      number_inRange := by decide +kernel
      side_found := by
        rw [hside]
        decide +kernel }
  have hturned : turnedLongitude (-(45.5 : Double)) true = (45.5 : Double) := by decide +kernel
  obtain ⟨haccepted, hunique, hread⟩ := parse?_accepts_grammar "north  aLong\t-45.50 DEGw".toList
  have hlongitude := hread t _ _ _ hchars hmeans
  rw [hturned] at hlongitude
  refine ⟨haccepted.mpr ⟨t, _, _, _, hchars, hmeans⟩, hlongitude, t, fun u => ?_⟩
  constructor
  · exact fun hu => hunique u t hu hchars
  · rintro rfl
    exact hchars

end MeridianDirection

end Georef

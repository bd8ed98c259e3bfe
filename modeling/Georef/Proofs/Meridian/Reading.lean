import Georef.Proofs.Meridian.Grammar
import Georef.Proofs.Decimal.Shortest

/-!
# Reading the parts of a meridian text

The reader splits a text at the words and signs between its parts, and reads the number in the middle by the
value of its digits. So a decimal number written at full length, whatever its power of ten, is read as the
number that it is rounded to.

## Key results

- `readNumber?_positional`: a decimal number written at full length is read as what it is rounded to
- `splitMeridian?_eq`: where the reader splits a text
-/

namespace Georef

open Double

/-! ## Characters of numbers -/

namespace IsWrittenDigit

variable {c : Char} (h : IsWrittenDigit c)

include h

/-- What is written as a digit is read as one by `isDecimalDigit`. -/
theorem isDecimalDigit : isDecimalDigit c = true :=
  h.of_forall (P := fun c => Georef.isDecimalDigit c = true) (by decide)

/-- What is written as a digit belongs to a number by `isNumberChar`. -/
theorem isNumberChar : isNumberChar c = true :=
  h.of_forall (P := fun c => Georef.isNumberChar c = true) (by decide)

end IsWrittenDigit

/-! ## Numbers that are read -/

section ReadNumber

/-- `readNumber?` reads digits, with or without a point and more digits, by their value. -/
theorem readNumber?_digits {whole : List Char} (fraction tail : List Char)
    (hwhole : ∀ c ∈ whole, IsWrittenDigit c) (hne : whole ≠ [])
    (hfraction : ∀ c ∈ fraction, IsWrittenDigit c)
    (htail : tail = [] ∧ fraction = [] ∨ tail = '.' :: fraction) :
    readNumber? (whole ++ tail) =
      some (ofDecimal false (digitsValue (whole ++ fraction)) (-(fraction.length : Int))) := by
  have hdigits : ∀ c ∈ whole ++ fraction, isDecimalDigit c = true := fun c hc =>
    (List.mem_append.mp hc).elim (fun hc => (hwhole c hc).isDecimalDigit)
      fun hc => (hfraction c hc).isDecimalDigit
  -- One digit is enough to have a number, and it stands in front of the point.
  have hsome : whole ++ fraction ≠ [] := List.append_ne_nil_of_left_ne_nil hne fraction
  refine readNumber?_eq_some_iff.mpr ?_
  obtain ⟨rfl, rfl⟩ | rfl := htail
  · exact ⟨⟨false, whole, none, hsome, hdigits⟩, rfl, rfl⟩
  · exact ⟨⟨false, whole, some fraction, hsome, hdigits⟩, rfl, rfl⟩

/-- `readNumber?` reads a decimal number written at full length as what it is rounded to. -/
theorem readNumber?_positional (d : Decimal) :
    readNumber? d.positional = some (ofDecimal false d.significand d.exponent) := by
  have hvalue := d.digitsValue_positional
  have hlength := d.length_fractionDigits
  have hread : readNumber? d.positional =
      some (ofDecimal false (digitsValue (d.wholeDigits ++ d.fractionDigits))
        (-(d.fractionDigits.length : Int))) := by
    have hwhole : ∀ c ∈ d.wholeDigits, IsWrittenDigit c :=
      fun c hc => d.isWrittenDigit_of_mem_wholeDigits hc
    have hfraction : ∀ c ∈ d.fractionDigits, IsWrittenDigit c :=
      fun c hc => d.isWrittenDigit_of_mem_fractionDigits hc
    unfold Decimal.positional
    split
    · rename_i hnone
      have := readNumber?_digits _ [] hwhole d.wholeDigits_ne_nil hfraction (.inl ⟨rfl, hnone⟩)
      rwa [List.append_nil] at this
    · exact readNumber?_digits _ _ hwhole d.wholeDigits_ne_nil hfraction (.inr rfl)
  -- The digits behind the point scale the significand and the exponent by opposite powers of ten.
  rw [hread, hvalue, hlength, ofDecimal_mul_powerOfTen]
  congr 2
  omega

end ReadNumber

/-! ## The parts of a text -/

/-- A word without white space has none among its characters. -/
theorem isBlank_of_mem_word {word : List Char} (h : word.all (fun c => !isBlank c) = true) {c : Char}
    (hc : c ∈ word) : isBlank c = false := by
  simpa using List.all_eq_true.mp h c hc

/-- Where `splitMeridian?` cuts a text: at the words and signs that the writer puts between the
    parts. -/
theorem splitMeridian?_eq {base number side : List Char} (hbase : base ≠ [])
    (hbase' : ∀ c ∈ base, isBlank c = false) (hnumber : number ≠ [])
    (hnumber' : ∀ c ∈ number, isNumberChar c = true) (hside : ∀ c ∈ side, isBlank c = false) :
    splitMeridian? (base ++ " along ".toList ++ number ++ '°' :: side) = some ⟨base, number, side⟩ := by
  have hblank : AllBlank [' '] := by simp [AllBlank]; decide
  have hword : InAnyCase "along".toList "along".toList := List.forall₂_same.mpr fun c _ => .inl rfl
  let t : MeridianText :=
    { base, beforeAlong := [' '], along := "along".toList, afterAlong := [' '], number, beforeMark := [],
      mark := ['°'], afterMark := [], side, base_ne_nil := hbase, isBlank_of_mem_base := hbase',
      beforeAlong_ne_nil := by simp, allBlank_beforeAlong := hblank, along_inAnyCase := hword,
      afterAlong_ne_nil := by simp, allBlank_afterAlong := hblank, number_ne_nil := hnumber,
      isNumberChar_of_mem_number := hnumber', allBlank_beforeMark := .nil, isDegreeMark := .inr rfl,
      allBlank_afterMark := .nil, isBlank_of_mem_side := hside }
  -- Put together, the parts are the text that is split.
  have hchars : t.chars = base ++ " along ".toList ++ number ++ '°' :: side := by
    show base ++ ([' '] ++ ("along".toList ++ ([' '] ++ (number ++ ([] ++ (['°'] ++ ([] ++ side))))))) = _
    simp [show " along ".toList = ' ' :: ("along".toList ++ [' ']) from rfl]
  exact splitMeridian?_eq_some_iff.mpr ⟨t, hchars, rfl⟩

end Georef

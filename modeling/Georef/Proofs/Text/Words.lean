import Georef.Meridian.Parser
import Mathlib.Data.List.Forall2

/-!
# Words and white space at the start of a text

A reader goes through a text from its start: it takes the characters with a property away, or white space that
must be there, or a word. Here each of these steps is an equivalence: what is left after it is the rest of the
text behind what was taken. Characters with a property are taken as far as they go, so where a text is cut is
no choice of the reader.

## Key results

- `takeWhile_dropWhile_append`, `append_inj_of_stopsAt`: the one place where a run of characters ends
- `dropBlanks_eq_iff`, `afterBlanks?_eq_some_iff`: white space at the start
- `asciiLower_eq_iff`, `afterWord?_eq_some_iff`: a word at the start, in letters of either case
-/

namespace Georef

/-! ## Runs of characters -/

section Runs

variable {p : Char → Bool} {first first' rest rest' : List Char}

/-- The text does not start with a character that has the property. -/
def StopsAt (p : Char → Bool) (text : List Char) : Prop := ∀ c ∈ text.head?, p c = false

/-- There is nothing to take at the end. -/
@[simp] theorem stopsAt_nil (p : Char → Bool) : StopsAt p [] := by simp [StopsAt]

/-- The first character decides. -/
@[simp] theorem stopsAt_cons {c : Char} : StopsAt p (c :: rest) ↔ p c = false := by simp [StopsAt]

/-- What starts a text that is not empty decides. -/
theorem stopsAt_append (hne : first ≠ []) : StopsAt p (first ++ rest) ↔ StopsAt p first := by
  obtain ⟨c, first, rfl⟩ := List.exists_cons_of_ne_nil hne
  simp

/-- A text without such characters does not start with one. -/
theorem stopsAt_of_forall (h : ∀ c ∈ rest, p c = false) : StopsAt p rest :=
  fun c hc => h c (List.mem_of_head? hc)

/-- What `dropWhile` leaves does not start with such a character. -/
theorem stopsAt_dropWhile (p : Char → Bool) (text : List Char) : StopsAt p (text.dropWhile p) := by
  intro c hc
  have hstop := List.head?_dropWhile_not p text
  rw [Option.mem_def.mp hc] at hstop
  exact hstop

/-- What `takeWhile` takes has the property throughout. -/
theorem forall_mem_takeWhile (p : Char → Bool) (text : List Char) : ∀ c ∈ text.takeWhile p, p c = true :=
  List.all_eq_true.mp List.all_takeWhile

/-- A run of characters ends where the next one does not have the property. -/
theorem takeWhile_dropWhile_append (h : ∀ c ∈ first, p c = true) (hrest : StopsAt p rest) :
    (first ++ rest).takeWhile p = first ∧ (first ++ rest).dropWhile p = rest := by
  rw [List.takeWhile_append_of_pos h, List.dropWhile_append_of_pos h]
  cases rest with
  | nil => simp
  | cons c rest => simp [stopsAt_cons.mp hrest]

/-- A text is cut behind a run of characters in one way only. -/
theorem append_inj_of_stopsAt (h : ∀ c ∈ first, p c = true) (h' : ∀ c ∈ first', p c = true)
    (hrest : StopsAt p rest) (hrest' : StopsAt p rest') (heq : first ++ rest = first' ++ rest') :
    first = first' ∧ rest = rest' := by
  obtain ⟨htake, hdrop⟩ := takeWhile_dropWhile_append h hrest
  obtain ⟨htake', hdrop'⟩ := takeWhile_dropWhile_append h' hrest'
  rw [heq] at htake hdrop
  exact ⟨htake.symm.trans htake', hdrop.symm.trans hdrop'⟩

end Runs

/-! ## White space -/

section Blanks

variable {text rest : List Char}

/-- There is nothing but white space in the text. -/
def AllBlank (text : List Char) : Prop := ∀ c ∈ text, isBlank c = true

/-- No text at all is `AllBlank`. -/
theorem AllBlank.nil : AllBlank [] := fun _ hc => absurd hc List.not_mem_nil

/-- `dropBlanks` takes white space away as far as it goes. -/
theorem dropBlanks_eq_iff :
    dropBlanks text = rest ↔ ∃ gap, AllBlank gap ∧ StopsAt isBlank rest ∧ text = gap ++ rest := by
  constructor
  · rintro rfl
    exact ⟨text.takeWhile isBlank, forall_mem_takeWhile isBlank text, stopsAt_dropWhile isBlank text,
      List.takeWhile_append_dropWhile.symm⟩
  · rintro ⟨gap, hgap, hrest, rfl⟩
    exact (takeWhile_dropWhile_append hgap hrest).2

/-- `dropBlanks` takes nothing away where there is no white space. -/
theorem dropBlanks_eq_self (h : StopsAt isBlank text) : dropBlanks text = text :=
  dropBlanks_eq_iff.mpr ⟨[], .nil, h, rfl⟩

/-- `dropBlanks` takes nothing away from what starts with a solid text. -/
theorem dropBlanks_append (hne : text ≠ []) (h : ∀ c ∈ text, isBlank c = false) (rest : List Char) :
    dropBlanks (text ++ rest) = text ++ rest :=
  dropBlanks_eq_self ((stopsAt_append hne).mpr (stopsAt_of_forall h))

/-- `afterBlanks?` takes white space that must be there away as far as it goes. -/
theorem afterBlanks?_eq_some_iff :
    afterBlanks? text = some rest ↔
      ∃ gap, gap ≠ [] ∧ AllBlank gap ∧ StopsAt isBlank rest ∧ text = gap ++ rest := by
  cases text with
  | nil => simp +contextual [afterBlanks?]
  | cons c text =>
    constructor
    · intro h
      simp only [afterBlanks?, Option.ite_none_right_eq_some, Option.some.injEq] at h
      obtain ⟨hc, hdrop⟩ := h
      obtain ⟨gap, hgap, hrest, rfl⟩ := dropBlanks_eq_iff.mp hdrop
      refine ⟨c :: gap, by simp, fun x hx => ?_, hrest, rfl⟩
      obtain rfl | hx := List.mem_cons.mp hx
      · exact hc
      · exact hgap x hx
    · rintro ⟨gap, hne, hgap, hrest, heq⟩
      -- The white space that must be there starts with the first character.
      obtain ⟨x, gap, rfl⟩ := List.exists_cons_of_ne_nil hne
      obtain ⟨rfl, rfl⟩ := List.cons.inj heq
      have hdrop : dropBlanks (gap ++ rest) = rest :=
        dropBlanks_eq_iff.mpr ⟨gap, fun y hy => hgap y (List.mem_cons_of_mem _ hy), hrest, rfl⟩
      simp [afterBlanks?, hgap c List.mem_cons_self, hdrop]

end Blanks

/-! ## Words -/

/-- The character is the letter in either case. -/
def IsCaseOf (c letter : Char) : Prop := c = letter ∨ c = letter.toUpper

/-- The text is the word in letters of either case. -/
def InAnyCase (word text : List Char) : Prop := List.Forall₂ IsCaseOf text word

/-- The character is a capital letter from A to Z. -/
def IsAsciiCapital (c : Char) : Prop := 'A' ≤ c ∧ c ≤ 'Z'

instance (c : Char) : Decidable (IsAsciiCapital c) := inferInstanceAs (Decidable (_ ∧ _))

/-- The word has no capital letters. -/
def NoCapitals (word : List Char) : Prop := ∀ letter ∈ word, ¬IsAsciiCapital letter

-- Only the letters of the word are looked at, not all characters.
instance (word : List Char) : Decidable (NoCapitals word) := List.decidableBAll _ word

/-- Each capital letter has a small one, and no other letter has the same. -/
private theorem asciiCapital_spec : ∀ n < 26,
    asciiLower (Char.ofNat (65 + n)) = Char.ofNat (97 + n) ∧
      (Char.ofNat (97 + n)).toUpper = Char.ofNat (65 + n) := by
  decide

/-- A character is its code point. -/
private theorem eq_ofNat_of_le {c : Char} {first : Nat} (h : first ≤ c.toNat) :
    c = Char.ofNat (first + (c.toNat - first)) := by
  rw [Nat.add_sub_cancel' h, Char.ofNat_toNat]

/-- `asciiLower` changes capital letters only. -/
theorem asciiLower_of_not_capital {c : Char} (h : ¬IsAsciiCapital c) : asciiLower c = c := if_neg h

/-- `asciiLower` makes of a character the letter exactly if it is the letter in either case. -/
theorem asciiLower_eq_iff {c letter : Char} (h : ¬IsAsciiCapital letter) :
    asciiLower c = letter ↔ IsCaseOf c letter := by
  constructor
  · intro hlower
    by_cases hc : IsAsciiCapital c
    · -- There are 26 capital letters, at the same distance from the small ones.
      obtain ⟨hfirst, hlast⟩ : 65 ≤ c.toNat ∧ c.toNat ≤ 90 := hc
      obtain ⟨hsmall, hcapital⟩ := asciiCapital_spec (c.toNat - 65) (by omega)
      rw [eq_ofNat_of_le hfirst, hsmall] at hlower
      right
      rw [← hlower, hcapital]
      exact eq_ofNat_of_le hfirst
    · left
      rwa [asciiLower_of_not_capital hc] at hlower
  · rintro (rfl | rfl)
    · exact asciiLower_of_not_capital h
    · by_cases hsmall : 97 ≤ letter.toNat ∧ letter.toNat ≤ 122
      · obtain ⟨hlower, hcapital⟩ := asciiCapital_spec (letter.toNat - 97) (by omega)
        rw [eq_ofNat_of_le hsmall.1, hcapital, hlower]
      · -- Only the letters from a to z have a capital letter.
        have hsame : letter.toUpper = letter := dif_neg hsmall
        rw [hsame]
        exact asciiLower_of_not_capital h

/-- `afterWord?` takes a word away in letters of either case. -/
theorem afterWord?_eq_some_iff {word text rest : List Char} (h : NoCapitals word) :
    afterWord? word text = some rest ↔ ∃ written, InAnyCase word written ∧ text = written ++ rest := by
  -- The case is ignored letter by letter.
  have hmap (written : List Char) : written.map asciiLower = word ↔ InAnyCase word written := by
    induction word generalizing written with
    | nil => simp [InAnyCase]
    | cons letter word ih =>
      simp only [NoCapitals, List.forall_mem_cons] at h
      cases written with
      | nil => simp [InAnyCase]
      | cons c written =>
        simpa [InAnyCase, asciiLower_eq_iff h.1] using fun _ => ih h.2 written
  simp only [afterWord?, Option.ite_none_right_eq_some, Option.some.injEq, hmap]
  constructor
  · rintro ⟨hword, rfl⟩
    exact ⟨_, hword, (List.take_append_drop word.length text).symm⟩
  · rintro ⟨written, hword, rfl⟩
    have hlength : written.length = word.length := hword.length_eq
    rw [List.take_left' hlength, List.drop_left' hlength]
    exact ⟨hword, rfl⟩

end Georef

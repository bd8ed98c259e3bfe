import Georef.Direction.Search
import Georef.Proofs.Text.Words
import Mathlib.Data.List.SplitBy

/-!
# What an acronym is

An acronym of a name consists of pieces, one for each word of the name in order. A piece is a start of its word
and not empty; how long it is, is free. So the search for the pieces cannot take as much as it can for each of
them: in EASE, an acronym of EAST_SOUTH_EAST, the S fits into the first piece but is the second one. Here the
search is shown to find pieces if and only if there are any.

## Key results

- `words_iff`: the words of a text are its maximal runs of letters and digits
- `anyStart_iff`, `spells_cons`: one step of the search, over all pieces that the first word allows
- `spells_iff`: the search finds pieces if there are any
- `isAcronym_iff_pieces`: what the texts that are acronyms of a name are
-/

namespace Georef

/-! ## Words -/

/-- The words of a text in order. Each is a run of letters and digits between gaps without any; only a gap at
the start or at the end may be empty. -/
inductive Words : List Char → List (List Char) → Prop
  | none {gap : List Char} (hgap : ∀ c ∈ gap, isAlphanumeric c = false) : Words gap []
  | word {gap word rest : List Char} {words : List (List Char)}
      (hgap : ∀ c ∈ gap, isAlphanumeric c = false) (hne : word ≠ [])
      (hword : ∀ c ∈ word, isAlphanumeric c = true) (hrest : StopsAt isAlphanumeric rest)
      (h : Words rest words) : Words (gap ++ (word ++ rest)) (word :: words)

section Words

variable {text word gap rest : List Char} {words : List (List Char)} {c : Char}

/-- `List.splitBy` splits a run of characters, which are all letters and digits or all none, off
    where it ends. -/
theorem splitBy_run_append {run : List Char} {kind : Bool} (hne : run ≠ [])
    (hrun : ∀ c ∈ run, isAlphanumeric c = kind) (hrest : StopsAt (isAlphanumeric · == kind) rest) :
    (run ++ rest).splitBy (fun a b => isAlphanumeric a == isAlphanumeric b) =
      run :: rest.splitBy fun a b => isAlphanumeric a == isAlphanumeric b := by
  have hends : ∀ x ∈ run.getLast?, ∀ y ∈ rest.head?, (isAlphanumeric x == isAlphanumeric y) = false := by
    intro x hx y hy
    rw [hrun x (List.mem_of_mem_getLast? hx), BEq.comm]
    exact hrest y hy
  have hchain : run.IsChain fun x y => (isAlphanumeric x == isAlphanumeric y) = true :=
    (List.pairwise_of_forall_mem_list fun x hx y hy => by simp [hrun x hx, hrun y hy]).isChain
  rw [List.splitBy_append hends, List.splitBy_of_isChain hne hchain, List.singleton_append]

/-- A gap is no word of `wordsOf`. -/
theorem wordsOf_gap_append (hgap : ∀ c ∈ gap, isAlphanumeric c = false)
    (hrest : StopsAt (isAlphanumeric · == false) rest) : wordsOf (gap ++ rest) = wordsOf rest := by
  obtain rfl | hne := eq_or_ne gap []
  · rfl
  · have hhead : gap.head?.any isAlphanumeric = false := by
      obtain ⟨c, gap, rfl⟩ := List.exists_cons_of_ne_nil hne
      exact hgap c List.mem_cons_self
    simp [wordsOf, splitBy_run_append hne hgap hrest, hhead]

/-- A run of letters and digits that ends is a word of `wordsOf`. -/
theorem wordsOf_word_append (hne : word ≠ []) (hword : ∀ c ∈ word, isAlphanumeric c = true)
    (hrest : StopsAt isAlphanumeric rest) : wordsOf (word ++ rest) = word :: wordsOf rest := by
  have hhead : word.head?.any isAlphanumeric = true := by
    obtain ⟨c, word, rfl⟩ := List.exists_cons_of_ne_nil hne
    exact hword c List.mem_cons_self
  have hstops : StopsAt (isAlphanumeric · == true) rest := fun c hc => by simp [hrest c hc]
  simp [wordsOf, splitBy_run_append hne hword hstops, hhead]

/-- `wordsOf` finds the words. -/
theorem Words.wordsOf_eq (h : Words text words) : wordsOf text = words := by
  induction h with
  | @none gap hgap =>
    rw [← List.append_nil gap, wordsOf_gap_append hgap (stopsAt_nil _)]
    rfl
  | @word gap word rest words hgap hne hword hrest h ih =>
    have hstops : StopsAt (isAlphanumeric · == false) (word ++ rest) := by
      rw [stopsAt_append hne]
      exact stopsAt_of_forall fun c hc => by simp [hword c hc]
    rw [wordsOf_gap_append hgap hstops, wordsOf_word_append hne hword hrest, ih]

/-- Another character that is no letter or digit at the start makes the gap there longer. -/
theorem Words.cons_gap (hc : isAlphanumeric c = false) (h : Words text words) : Words (c :: text) words := by
  cases h with
  | none hgap => exact .none (List.forall_mem_cons.mpr ⟨hc, hgap⟩)
  | word hgap hne hword hrest h => exact .word (List.forall_mem_cons.mpr ⟨hc, hgap⟩) hne hword hrest h

/-- Another letter or digit at the start is a word of its own before a gap and belongs to the word
    otherwise, so the text still has `Words`. -/
theorem Words.cons_letter (hc : isAlphanumeric c = true) (h : Words text words) :
    ∃ words', Words (c :: text) words' := by
  by_cases hstops : StopsAt isAlphanumeric text
  · exact ⟨_, .word (List.forall_mem_nil _) (List.cons_ne_nil c []) (List.forall_mem_singleton.mpr hc) hstops h⟩
  · -- The text after the character starts with a gap, which may be empty.
    cases h with
    | none hgap => exact absurd (stopsAt_of_forall hgap) hstops
    | @word gap word rest words hgap hne hword hrest h =>
      cases gap with
      | nil => exact ⟨_, .word (List.forall_mem_nil _) (List.cons_ne_nil c word)
          (List.forall_mem_cons.mpr ⟨hc, hword⟩) hrest h⟩
      | cons b gap => exact absurd (stopsAt_cons.mpr (hgap b List.mem_cons_self)) hstops

/-- Every text has `Words`, if only none. -/
theorem exists_words (text : List Char) : ∃ words, Words text words := by
  induction text with
  | nil => exact ⟨[], .none (List.forall_mem_nil _)⟩
  | cons c text ih =>
    obtain ⟨words, h⟩ := ih
    cases hc : isAlphanumeric c with
    | false => exact ⟨words, h.cons_gap hc⟩
    | true => exact h.cons_letter hc

/-- The words of a text that `wordsOf` finds are its maximal runs of letters and digits. -/
theorem words_iff : Words text words ↔ wordsOf text = words := by
  constructor
  · exact Words.wordsOf_eq
  · rintro rfl
    obtain ⟨words, h⟩ := exists_words text
    rwa [h.wordsOf_eq]

end Words

/-! ## Pieces -/

/-- Each piece is a start of its word and not empty. -/
def StartWords (pieces words : List (List Char)) : Prop :=
  List.Forall₂ (fun piece word => piece ≠ [] ∧ piece <+: word) pieces words

/-- `anyStart` tries the starts that the text and the word share one after the other, and none is
    left out. -/
theorem anyStart_iff {accepts : List Char → Bool} {text word : List Char} :
    anyStart accepts text word = true ↔
      ∃ piece rest, text = piece ++ rest ∧ piece ≠ [] ∧ piece <+: word ∧ accepts rest = true := by
  constructor
  · intro h
    fun_induction anyStart accepts text word with
    | case1 c text d word ih =>
      obtain ⟨rfl, hrest⟩ : c = d ∧ (accepts text = true ∨ anyStart accepts text word = true) := by simpa using h
      obtain haccepts | hlonger := hrest
      · exact ⟨[c], text, rfl, List.cons_ne_nil c [], by simp, haccepts⟩
      · -- A longer start of the word begins with the letter that both have.
        obtain ⟨piece, rest, rfl, -, hstart, haccepts⟩ := ih hlonger
        exact ⟨c :: piece, rest, rfl, List.cons_ne_nil c piece, by simpa using hstart, haccepts⟩
    | case2 => cases h
  · rintro ⟨piece, rest, rfl, hne, ⟨behind, rfl⟩, haccepts⟩
    -- The start is reached letter by letter.
    induction piece with
    | nil => exact absurd rfl hne
    | cons c piece ih =>
      rw [List.cons_append, List.cons_append, anyStart, beq_self_eq_true, Bool.true_and, Bool.or_eq_true]
      obtain rfl | hpiece := eq_or_ne piece []
      · exact .inl haccepts
      · exact .inr (ih hpiece)

/-- One step of `spells`: all starts of the first word are tried. -/
theorem spells_cons {text word : List Char} {words : List (List Char)} :
    spells text (word :: words) = true ↔
      ∃ piece rest, text = piece ++ rest ∧ piece ≠ [] ∧ piece <+: word ∧ spells rest words = true :=
  anyStart_iff

/-- `spells` finds pieces if there are any. -/
theorem spells_iff {text : List Char} {words : List (List Char)} :
    spells text words = true ↔ ∃ pieces, StartWords pieces words ∧ pieces.flatten = text := by
  induction words generalizing text with
  | nil =>
    simp only [spells, StartWords, List.isEmpty_iff, List.forall₂_nil_right_iff, exists_eq_left, List.flatten_nil]
    exact eq_comm
  | cons word words ih =>
    simp only [spells_cons, ih]
    constructor
    · rintro ⟨piece, rest, rfl, hne, hstart, pieces, hpieces, rfl⟩
      exact ⟨piece :: pieces, .cons ⟨hne, hstart⟩ hpieces, List.flatten_cons⟩
    · rintro ⟨pieces, hpieces, rfl⟩
      cases hpieces with
      | @cons piece _ pieces _ hpiece hpieces =>
        exact ⟨piece, pieces.flatten, List.flatten_cons, hpiece.1, hpiece.2, pieces, hpieces, rfl⟩

/-! ## Acronyms -/

/-- A text is an acronym of a name if, trimmed and with case ignored, it is not empty, has nothing but letters
and digits, and consists of starts of all words of the name in order. -/
theorem isAcronym_iff_pieces {acronym name : List Char} :
    isAcronym acronym name = true ↔
      foldCase (trimBlanks acronym) ≠ [] ∧ (∀ c ∈ foldCase (trimBlanks acronym), isAlphanumeric c = true) ∧
        ∃ words, Words name words ∧ words ≠ [] ∧
          ∃ pieces, StartWords pieces (words.map foldCase) ∧
            pieces.flatten = foldCase (trimBlanks acronym) := by
  simp only [isAcronym, Bool.and_eq_true, Bool.not_eq_true', List.isEmpty_eq_false_iff, List.all_eq_true,
    spells_iff, words_iff, exists_eq_left', ne_eq, List.map_eq_nil_iff, and_assoc]

example : isAcronym " Ease".toList "EAST_SOUTH_EAST".toList = true := by decide

end Georef

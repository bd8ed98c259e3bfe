import Georef.Direction.Registry
import Georef.Text.Alphanumeric
import Georef.Text.Blank
import Georef.Text.CaseFold

/-!
# Lenient search for directions

A text matches a direction if both have the same letters and digits, case apart, or if the text is
an acronym of the words of the direction's name: a non-empty start of each word, in order. The first
matching candidate wins.
-/

namespace Georef

/-- The letters and digits of a text, case folded. -/
def significantChars (text : List Char) : List Char := foldCase (text.filter isAlphanumeric)

/-- The maximal runs of letters and digits. -/
def wordsOf (text : List Char) : List (List Char) :=
  (text.splitBy fun a b => isAlphanumeric a == isAlphanumeric b).filter fun run =>
    run.head?.any isAlphanumeric

/-- A start of the text is one of the word, not empty, and `accepts` takes the rest of the text.
    Longer and longer starts are tried, as far as the text and the word are the same. -/
def anyStart (accepts : List Char → Bool) : List Char → List Char → Bool
  | c :: text, d :: word => c == d && (accepts text || anyStart accepts text word)
  | _, _ => false

/-- The text is a non-empty start of the first word by `anyStart`, followed by one of the second,
    and so on to the last word. -/
def spells : List Char → List (List Char) → Bool
  | text, [] => text.isEmpty
  | text, word :: words => anyStart (fun rest => spells rest words) text word

/-- The trimmed text consists of letters and digits only and `spells` the words. -/
def isAcronym (acronym words : List Char) : Bool :=
  let folded := foldCase (trimBlanks acronym)
  let parts := (wordsOf words).map foldCase
  !folded.isEmpty && folded.all isAlphanumeric && !parts.isEmpty && spells folded parts

/-- The text matches the direction, by its `significantChars` or as an acronym. -/
def Direction.matches (d : Direction) (name : List Char) : Bool :=
  significantChars name == significantChars d.name.toList || isAcronym name d.name.toList

/-- The first candidate that the text `matches`. -/
def findDirection (name : List Char) (candidates : List Direction) : Option Direction :=
  candidates.find? (·.matches name)

end Georef

import Georef.Direction.Search
import Georef.Text.DecimalDigit

/-!
# Geocentric directions by description

The three geocentric directions may be described by where their axis leaves the Earth, for instance
`Geocentre > equator/90°E` or `Geocentre > north pole`. `Registry.lookup` tries names first and such
descriptions second.
-/

namespace Georef

/-- An ASCII letter in lower case; all other characters stay. -/
def asciiLower (c : Char) : Char :=
  if 'A' ≤ c ∧ c ≤ 'Z' then Char.ofNat (c.toNat + 32) else c

/-- What follows the given lower-case word, ASCII case apart. -/
def afterWord? (word text : List Char) : Option (List Char) :=
  if (text.take word.length).map asciiLower = word then some (text.drop word.length) else none

/-- One to six digits, perhaps white space, `°` or the letter d, and the letter E. -/
def eastDegrees? (text : List Char) : Option Nat :=
  let digits := text.takeWhile isDecimalDigit
  let rest := dropBlanks (text.dropWhile isDecimalDigit)
  if 1 ≤ digits.length ∧ digits.length ≤ 6 ∧
      (rest.map asciiLower = ['°', 'e'] ∨ rest.map asciiLower = ['d', 'e']) then
    some (digitsValue digits)
  else none

/-- The axis that leaves the Earth at the equator, at the given longitude by `eastDegrees?`. -/
def equatorAxis? (longitude : List Char) : Option Direction :=
  if foldCase longitude = ['p', 'm'] then some .geocentricX
  else
    match eastDegrees? longitude with
    | some 0 => some .geocentricX
    | some 90 => some .geocentricY
    | _ => none

/-- The geocentric direction of a description. -/
def geocentricDirection? (text : List Char) : Option Direction :=
  match afterWord? "geocentre".toList text with
  | none => none
  | some afterCentre =>
    match dropBlanks afterCentre with
    | '>' :: afterSign =>
      let place := dropBlanks afterSign
      if '\n' ∈ place then none
      else if '/' ∈ place then
        let latitude := place.takeWhile (· != '/')
        let longitude := (place.dropWhile (· != '/')).drop 1
        if foldCase (trimBlanks latitude) = "equator".toList then
          equatorAxis? (trimBlanks longitude)
        else none
      else if foldCase (trimBlanks place) = "north pole".toList then some .geocentricZ
      else none
    | _ => none

/-- The direction that a text names by `findDirection` or describes by `geocentricDirection?`. An
    underscore counts as a space. -/
def Registry.lookup (r : Registry) (name : String) : Option Direction :=
  let text := trimBlanks (name.toList.map fun c => if c = '_' then ' ' else c)
  -- A name comes before a description, even a name that is only an acronym.
  match findDirection text r.values with
  | some d => some d
  | none => geocentricDirection? text

end Georef

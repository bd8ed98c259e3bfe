import Georef.Direction.Geocentric
import Georef.Meridian.Basic

/-!
# Reading directions along a meridian

The accepted texts are a base word, the word `along`, a number, a degree mark and perhaps a side:
`South along 90 deg East`, `north along 45°W`. The base word must lead to NORTH or SOUTH and the side
to EAST or WEST by the lenient search. The result never has the longitude -180 or a negative zero.
-/

namespace Georef

/-- What follows leading white space, which must be there. -/
def afterBlanks? : List Char → Option (List Char)
  | c :: rest => if isBlank c then some (dropBlanks rest) else none
  | [] => none

/-- The character may stand in a written longitude. -/
def isNumberChar (c : Char) : Bool := c == '-' || c == '.' || isDecimalDigit c

/-- Reads a number without exponent: perhaps one minus sign, then digits with at most one point and
at least one digit. The result is correctly rounded. -/
def readNumber? (text : List Char) : Option Double :=
  let (negative, unsigned) := match text with
    | '-' :: rest => (true, rest)
    | _ => (false, text)
  let whole := unsigned.takeWhile isDecimalDigit
  let fraction? : Option (List Char) := match unsigned.dropWhile isDecimalDigit with
    | [] => some []
    | '.' :: fraction => if fraction.all isDecimalDigit then some fraction else none
    | _ => none
  match fraction? with
  | none => none
  | some fraction =>
    if whole.isEmpty && fraction.isEmpty then none
    else some (Double.ofDecimal negative (digitsValue (whole ++ fraction)) (-(fraction.length : Int)))

/-- A text split into its parts, none of them understood yet. -/
structure MeridianParts where
  base : List Char
  number : List Char
  /-- Empty if no side is given. -/
  side : List Char
deriving DecidableEq

/-- What follows the degree mark: the word `deg` after white space, or the sign `°`. -/
def afterDegreeMark? (text : List Char) : Option (List Char) :=
  match (afterBlanks? text).bind (afterWord? "deg".toList) with
  | some rest => some rest
  | none => afterWord? ['°'] (dropBlanks text)

/-- Splits a text at `along` and at the degree mark, each behind white space that may be of any
    length. -/
def splitMeridian? (text : List Char) : Option MeridianParts := do
  let base := text.takeWhile fun c => !isBlank c
  let afterBase ← afterBlanks? (text.dropWhile fun c => !isBlank c)
  let afterAlong ← (afterWord? "along".toList afterBase).bind afterBlanks?
  let number := afterAlong.takeWhile isNumberChar
  let side ← (afterDegreeMark? (afterAlong.dropWhile isNumberChar)).map dropBlanks
  if !base.isEmpty && !number.isEmpty && side.all (fun c => !isBlank c) then
    some ⟨base, number, side⟩
  else none

/-- The directions that the base and side words may lead to. -/
def cardinalDirections : List Direction := [.north, .south, .east, .west]

/-- Whether the side turns the longitude to the west; no side means east. Any other side must lead
    to `east` or its opposite. -/
def westward? (side : List Char) : Option Bool :=
  if side.isEmpty then some false
  else
    match findDirection side cardinalDirections with
    | some d => if d.absolute = .east then some (d ≠ .east) else none
    | none => none

/-- The same meridian without a negative zero and with 180 in place of -180. -/
def canonicalLongitude (meridian : Double) : Double :=
  if meridian == 0 then 0
  else if meridian == MeridianDirection.leastLongitude then MeridianDirection.greatestLongitude
  else meridian

namespace MeridianDirection

/-- Reads a direction along a meridian from the parts of `splitMeridian?`. -/
def parse? (text : List Char) : Option MeridianDirection := do
  let parts ← splitMeridian? text
  let base ← findDirection parts.base cardinalDirections
  -- The base word may be any text that leads to a pole, the number any in range.
  if base.absolute ≠ .north then none
  let written ← readNumber? parts.number
  if !inRange written then none
  let westward ← westward? parts.side
  some ⟨base, canonicalLongitude (if westward then -written else written), none⟩

/-- Reads the name of an axis direction by `parse?` and remembers that direction. -/
def ofDirection? (d : Direction) : Option MeridianDirection :=
  (parse? d.name.toList).map fun m => { m with origin := some d }

end MeridianDirection

end Georef

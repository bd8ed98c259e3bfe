import Georef.Tensor.ScalarArray
import Georef.Text.Labelled

/-!
# Arrays as text

An array is written as rows in brackets, with all its elements in columns of one width. Numbers are
written all of them without an exponent or all of them with one. The shortest digits of the numbers,
rounded to a few decimals, tell how many decimals there are.
-/

namespace Georef

namespace ArrayText

/-- How arrays are written. -/
structure Style where
  /-- The most decimals that an element is written with. -/
  maxDecimals : Nat
  /-- What stands between two elements of a line. -/
  separator : List Char
  /-- How many columns in front of the array are taken. -/
  indent : Nat
  /-- How many columns a line has. -/
  width : Nat

/-- The mark behind an element or a row, without the space that follows it. -/
def Style.mark (style : Style) : List Char := style.separator.filter (· != ' ')

/-- How the elements of one array are written. -/
structure Layout where
  /-- Every element has an exponent. -/
  scientific : Bool
  /-- Width in front of the point. -/
  left : Nat
  /-- Decimals behind the point. -/
  decimals : Nat
  /-- Digits of the exponent. -/
  exponentDigits : Nat

/-- Elements spread so widely that they are written with exponents. -/
def isSpread (elements : List Double) : Bool :=
  let sizes := (elements.filter fun x => x.isFinite && !x.isZero).map (·.abs)
  match sizes with
  | [] => false
  | first :: rest =>
    let largest := rest.foldl (fun a x => if a < x then x else a) first
    let smallest := rest.foldl (fun a x => if x < a then x else a) first
    (100000000.0 : Double) ≤ largest || smallest < (0.0001 : Double) ||
      (1000.0 : Double) < largest / smallest

/-- The digits of an element without an exponent. -/
def positionalDecimal (maxDecimals : Nat) (x : Double) : Decimal :=
  let shortest := Double.shortest x.magnitude
  if -(maxDecimals : Int) ≤ shortest.exponent then shortest
  -- The double itself is rounded, not its shortest digits, which may lie on the other side of a tie.
  else
    let scaled := roundHalfEven (Double.unitsOfMagnitude x.magnitude * powerOfTen maxDecimals)
      Double.unitsPerOne
    if scaled = 0 then ⟨0, 0⟩ else Decimal.dropTrailingZeros ⟨scaled, -(maxDecimals : Int)⟩

/-- The digits of an element with an exponent. -/
def scientificDecimal (maxDecimals : Nat) (x : Double) : Decimal :=
  let shortest := Double.shortest x.magnitude
  if (digitChars shortest.significand).length ≤ maxDecimals + 1 then shortest
  else (x.roundedTo (maxDecimals + 1)).dropTrailingZeros

/-- The text in front of the point, the decimals, and the power of ten. -/
def parts (maxDecimals : Nat) (scientific : Bool) (x : Double) : List Char × List Char × Int :=
  if scientific then
    let d := scientificDecimal maxDecimals x
    let digits := digitChars d.significand
    (x.signChars ++ digits.take 1, digits.drop 1, if d.significand = 0 then 0 else d.leadingExponent)
  else
    let d := positionalDecimal maxDecimals x
    (x.signChars ++ d.wholeDigits, d.fractionDigits, 0)

/-- The largest of some lengths. -/
def longest (lengths : List Nat) : Nat := lengths.foldl max 0

/-- At least two digits of the power of ten. -/
def exponentLength (e : Int) : Nat := max 2 (digitChars e.natAbs).length

/-- Width behind the point: decimals, and the exponent with its letter and sign. -/
def Layout.right (layout : Layout) : Nat :=
  if layout.scientific then layout.decimals + 2 + layout.exponentDigits else layout.decimals

/-- The layout in which all elements fit; an infinity or a NaN needs as many columns as it has
letters. -/
def layoutOf (maxDecimals : Nat) (elements : List Double) : Layout :=
  let scientific := isSpread elements
  let finite := (elements.filter (·.isFinite)).map (parts maxDecimals scientific)
  let layout : Layout :=
    { scientific
      left := longest (finite.map fun (whole, _, _) => whole.length)
      decimals := longest (finite.map fun (_, fraction, _) => fraction.length)
      exponentDigits := longest (finite.map fun (_, _, e) => exponentLength e) }
  if elements.all (·.isFinite) then layout
  else
    -- Letters may also stand in the column of the point and in those behind it.
    let needed := if elements.any fun x => x.isInfinite && x.negative then 4 else 3
    { layout with left := max layout.left (needed - (layout.right + 1)) }

/-- The given count of spaces. -/
def spaces (count : Nat) : List Char := List.replicate count ' '

/-- The digits of a number with an exponent and the given count of decimals, and the power of ten. It is
the number itself that is rounded: digits behind the shortest ones are its own, not zeros. -/
def scientificDigits (decimals : Nat) (x : Double) : List Char × Int :=
  if x.isZero then (List.replicate (decimals + 1) '0', 0)
  else
    let d := x.roundedTo (decimals + 1)
    (digitChars d.significand, d.leadingExponent)

/-- A finite element in its columns. -/
def finiteChars (maxDecimals : Nat) (layout : Layout) (x : Double) : List Char :=
  if layout.scientific then
    let (digits, e) := scientificDigits layout.decimals x
    let whole := x.signChars ++ digits.take 1
    let power := digitChars e.natAbs
    spaces (layout.left - whole.length) ++ whole ++ '.' :: digits.drop 1 ++
      'e' :: (if e < 0 then '-' else '+') ::
        List.replicate (layout.exponentDigits - power.length) '0' ++ power
  else
    let (whole, fraction, _) := parts maxDecimals false x
    spaces (layout.left - whole.length) ++ whole ++
      '.' :: fraction ++ spaces (layout.decimals - fraction.length)

/-- A number in its columns. -/
def numberChars (maxDecimals : Nat) (layout : Layout) (x : Double) : List Char :=
  if x.isFinite then finiteChars maxDecimals layout x
  else
    let letters := x.nonFiniteText.toList
    spaces (layout.left + 1 + layout.right - letters.length) ++ letters

/-- A truth value in its columns. -/
def truthChars (b : Bool) : List Char := if b then " True".toList else "False".toList

/-- An integer in columns of the given width. -/
def integerChars (width : Nat) (n : Int) : List Char :=
  let digits := (integerText n).toList
  spaces (width - digits.length) ++ digits

/-- The width of the columns of integers. -/
def integerWidth (elements : List Int) : Nat :=
  longest (elements.map fun n => (integerText n).length)

/-- The text without the spaces at its end. -/
def dropTrailingSpaces (line : List Char) : List Char :=
  (line.reverse.dropWhile (· == ' ')).reverse

/-- The elements of a row from `line` on, which starts with the given columns of indent; a line that
would reach beyond the last column is broken. -/
def rowChars (separator : List Char) (indent lastColumn : Nat) (line : List Char) :
    List (List Char) → List Char
  | [] => line
  | element :: rest =>
    let separated := element ++ if rest.isEmpty then [] else separator
    -- A line with nothing but its indent takes an element of any length.
    if lastColumn < line.length + element.length ∧ indent < line.length then
      dropTrailingSpaces line ++
        '\n' :: rowChars separator indent lastColumn (spaces indent ++ separated) rest
    else rowChars separator indent lastColumn (line ++ separated) rest

/-- An array in brackets, from a column on, in lines of the given width. Rows stand on lines of their
own, with an empty line between tables. -/
def nestedChars (style : Style) : List Nat → Nat → Nat → List (List Char) → List Char
  | [], _, _, elements => elements.flatten
  | [_], indent, width, elements =>
    let lastColumn := width - max style.mark.length 1
    let line := rowChars style.separator indent lastColumn (spaces indent) elements
    '[' :: line.drop indent ++ [']']
  | count :: shape, indent, width, elements =>
    let parts := (Tensor.chunks (shapeSize shape) count elements).map
      (nestedChars style shape (indent + 1) (width - 1))
    let border := style.mark ++ List.replicate shape.length '\n' ++ spaces indent
    '[' :: List.intercalate border parts ++ [']']

/-- An array of elements in their columns, in the given style. -/
def bodyChars (style : Style) (t : Tensor (List Char)) : List Char :=
  if t.elements.isEmpty then ['[', ']']
  else nestedChars style t.shape (style.indent + 1) style.width t.elements

/-- The numbers of an array in their columns. -/
def numberColumns (maxDecimals : Nat) (t : Tensor Double) : Tensor (List Char) :=
  t.map (numberChars maxDecimals (layoutOf maxDecimals t.elements))

/-- The elements of an array in their columns. -/
def columns (style : Style) : ScalarArray → Tensor (List Char)
  | .truths t => t.map truthChars
  | .integers t => t.map (integerChars (integerWidth t.elements))
  | .numbers t => numberColumns style.maxDecimals t

/-- Arrays by themselves, with spaces between the elements. -/
def plainStyle : Style := ⟨8, [' '], 0, 75⟩

/-- What stands in front of an array that is written in full. -/
def heading : List Char := "array(".toList

/-- Arrays behind their heading, with a parenthesis at the end. -/
def fullStyle : Style := ⟨8, [',', ' '], heading.length, 74⟩

end ArrayText

namespace Scalar

/-- The text of an element by itself. -/
def text : Scalar → String
  | truth b => truthText b
  | integer n => integerText n
  | number x => x.text

/-- The text of an element from which its kind can be told. -/
def fullText : Scalar → String
  | truth b => "np." ++ truthText b ++ "_"
  | integer n => "np.int64(" ++ integerText n ++ ")"
  | number x => "np.float64(" ++ x.text ++ ")"

end Scalar

namespace ScalarArray

/-- The name of the kind of the elements. -/
def kindName : ScalarArray → String
  | truths _ => "bool"
  | integers _ => "int64"
  | numbers _ => "float64"

/-- The array has no elements. -/
def isEmpty (a : ScalarArray) : Bool := shapeSize a.shape == 0

/-- The text of an array. An array without axes is written like its element. -/
def text (a : ScalarArray) : String :=
  match a.scalar? with
  | some x => x.text
  | none => String.ofList (ArrayText.bodyChars ArrayText.plainStyle (ArrayText.columns ArrayText.plainStyle a))

/-- The text of an array as such. One without elements is followed by its shape, unless that is a plain
zero, and by the kind of its elements. -/
def fullText (a : ScalarArray) : String :=
  let body := ArrayText.bodyChars ArrayText.fullStyle (ArrayText.columns ArrayText.fullStyle a)
  let start := String.ofList (ArrayText.heading ++ body)
  if !a.isEmpty then start ++ ")"
  else
    let shape := if a.shape = [0] then "" else ", shape=" ++ shapeText a.shape
    start ++ shape ++ ", dtype=" ++ a.kindName ++ ")"

end ScalarArray

end Georef

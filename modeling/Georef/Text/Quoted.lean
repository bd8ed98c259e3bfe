import Georef.Text.Printable

/-!
# Quoted text

`quoted` writes a text so that it stands on one line and shows every character: in single quotes,
or in double quotes if it holds a single one and no double one. The backslash, the enclosing quote
and the characters that cannot be printed are escaped.
-/

namespace Georef

/-- A hexadecimal digit in lower case. -/
def hexDigit (d : Nat) : Char := if d < 10 then Char.ofNat (48 + d) else Char.ofNat (87 + d)

/-- The low `width` hexadecimal digits of a number, the leading one first. -/
def hexChars : Nat → Nat → List Char
  | 0, _ => []
  | width + 1, n => hexDigit (n / Nat.pow 16 width % 16) :: hexChars width n

/-- One character between quotes of the given kind. -/
def escaped (quote c : Char) : List Char :=
  if c = quote ∨ c = '\\' then ['\\', c]
  else if c = '\n' then ['\\', 'n']
  else if c = '\r' then ['\\', 'r']
  else if c = '\t' then ['\\', 't']
  else if isPrintable c then [c]
  else if c.toNat < 0x100 then '\\' :: 'x' :: hexChars 2 c.toNat
  else if c.toNat < 0x10000 then '\\' :: 'u' :: hexChars 4 c.toNat
  else '\\' :: 'U' :: hexChars 8 c.toNat

/-- The quote that encloses a text. -/
def enclosingQuote (text : List Char) : Char :=
  if '\'' ∈ text ∧ '"' ∉ text then '"' else '\''

/-- The text in quotes, with escapes. -/
def quoted (text : String) : String :=
  let quote := enclosingQuote text.toList
  String.ofList (quote :: text.toList.flatMap (escaped quote) ++ [quote])

end Georef

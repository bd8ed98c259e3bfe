import Georef.Direction.Basic
import Georef.Text.Identifier
import Georef.Text.Quoted

/-!
# The text of a direction

A direction whose name is an identifier is written like a member of its type, any other with its name
in quotes.
-/

namespace Georef

/-- The unambiguous text of a direction. -/
def Direction.text (d : Direction) : String :=
  if isIdentifier d.name.toList then "AxisDirection." ++ d.name
  else "AxisDirection(" ++ quoted d.name ++ ")"

end Georef

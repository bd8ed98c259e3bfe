import Georef.Meridian.Basic

/-!
# The unambiguous text of a direction along a meridian

Other than the canonical text, it keeps the exact longitude.
-/

namespace Georef

/-- Base and meridian in parentheses. -/
def MeridianDirection.fullText (m : MeridianDirection) : String :=
  "DirectionAlongMeridian(" ++ m.base.name ++ ", " ++ m.meridian.text ++ ")"

end Georef

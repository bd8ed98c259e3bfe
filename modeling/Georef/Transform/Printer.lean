import Georef.Transform.Basic

/-!
# The text of a transform

A linear transform is written with its matrix, a mapping with its dimensions, and a chain with its
steps on lines of their own.
-/

namespace Georef

/-- The name with the matrix in parentheses. -/
def LinearTransform.text (t : LinearTransform Double) : String :=
  t.className ++ "(" ++ t.matrix.text "Matrix" ++ ")"

/-- The name with the two dimensions in parentheses. -/
def Mapping.text (m : Mapping Double) : String :=
  m.name ++ "(" ++ integerText m.source ++ "D -> " ++ integerText m.target ++ "D)"

/-- The text of a step. -/
def Step.text : Step Double → String
  | .linear t => t.text
  | .managed m | .foreign m => m.text

/-- The text of a transform. -/
def Transform.text (t : Transform Double) : String :=
  match t with
  | .step s => s.text
  | .chain steps =>
    t.className ++ "(\n  " ++ ",\n  ".intercalate (steps.map Step.text) ++ "\n)"

end Georef

import Georef.Matrix.System
import Georef.Session.Basic

/-!
# Inverses in a session

Matrices and transforms have inverses. The inverse of an identity is that identity itself, also inside
a chain; every other inverse is a new object.
-/

namespace Georef

namespace Procedure

/-- A new step. -/
def newStep (s : Step Double) : Procedure StepObject := return ⟨s, ← freshMark, ← freshMark⟩

/-- The inverse of a step as an object. Only the identity is its own. -/
def invertStep (s : StepObject) : Procedure StepObject := do
  let inverse ← s.step.inverse
  match s.step with
  | .linear (.identity _) => return s
  | _ => newStep inverse

/-- The inverse of a transform as an object, step by step by `invertStep`. -/
def invertTransform (t : TransformObject) : Procedure TransformObject := do
  match t with
  | .step s => return .step (← invertStep s)
  | .chain _ steps =>
    -- The last step is inverted first, so it is the first one to fail.
    let inverses ← steps.reverse.mapM invertStep
    return .chain (← freshMark) inverses

/-- The inverse of a matrix or of a transform, by `invertTransform`. -/
def invertValue (v : Value) : Procedure Value := do
  match v with
  | .transform t => return .transform (← invertTransform t)
  | v => newMatrix (← (← matrix v).inverse)

end Procedure

end Georef

import Georef.Transform.Basic

/-!
# Squaring

The map `x * x` of the line is the standard example of a transform that is not linear. It comes as a
managed and as a foreign mapping.
-/

namespace Georef

namespace Mapping

/-- The mapping `x * x` of the line, under the given name. -/
def squaring (name : String) (mark : Mark) : Mapping Double where
  name := name
  mark := mark
  source := 1
  target := 1
  map p := p.map fun x => x * x
  jacobian p := .ofRows 1 1 [[(2.0 : Double) * p.getD 0 0]]

end Mapping

namespace Transform

/-- Squaring as a managed mapping. -/
def managedSquaring (mark : Mark) : Transform Double :=
  step (.managed (.squaring "SquareTransform" mark))

/-- Squaring as a foreign mapping. -/
def foreignSquaring (mark : Mark) : Transform Double :=
  step (.foreign (.squaring "Square" mark))

end Transform

end Georef

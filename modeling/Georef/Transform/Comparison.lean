import Georef.Transform.Basic

/-!
# Comparing transforms

Linear transforms are equal if they have the same form and equal matrices, mappings only if they are
the same one, and chains if their steps are equal one by one. The hash of a transform depends on its
`hashKey` alone, which does not tell the forms of linear transforms apart.
-/

namespace Georef

namespace LinearTransform

/-- Same form by `className`, and equal matrices. -/
def sameAs (a b : LinearTransform Double) : Bool :=
  a.className == b.className && a.matrix.sameAs b.matrix

end LinearTransform

namespace Step

/-- Equal linear steps, or the same mapping. -/
def sameAs : Step Double → Step Double → Bool
  | linear a, linear b => a.sameAs b
  | managed a, managed b | foreign a, foreign b => a.mark == b.mark
  | _, _ => false

/-- What a hash of the step depends on. -/
def hashKey : Step Double → HashKey
  | linear t => t.matrix.hashKey
  | managed m | foreign m => .object m.mark

end Step

namespace Transform

/-- Equal steps, or chains with equal steps. -/
def sameAs : Transform Double → Transform Double → Bool
  | step a, step b => a.sameAs b
  | chain as, chain bs =>
    as.length == bs.length && (List.zip as bs).all fun (a, b) => a.sameAs b
  | _, _ => false

/-- What a hash of the transform depends on. -/
def hashKey : Transform Double → HashKey
  | step s => s.hashKey
  | chain steps => .tuple (steps.map Step.hashKey)

end Transform

end Georef

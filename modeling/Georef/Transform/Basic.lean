import Georef.Transform.Linear

/-!
# Transforms

A transform is a single step or a chain of at least two steps, applied one after the other. A step is
linear, or a mapping given by functions. Managed mappings answer every question about a transform, if
only to say that they have no matrix and no inverse; foreign mappings have nothing to offer but
images and derivatives.

`Transform.concatenate` joins the steps of two transforms that fit together, so no chain ever holds
another chain.
-/

namespace Georef

/-- A mapping of points given by functions. -/
structure Mapping (α : Type) where
  name : String
  /-- Tells apart mappings that were made separately. -/
  mark : Mark
  source : Int
  target : Int
  /-- The image of a point. -/
  map : List α → List α
  /-- The matrix of partial derivatives at a point. -/
  jacobian : List α → Matrix α

/-- A transform that is not put together from others. -/
inductive Step (α : Type) where
  | linear (t : LinearTransform α)
  | managed (m : Mapping α)
  | foreign (m : Mapping α)

/-- A step or a chain of steps. -/
inductive Transform (α : Type) where
  | step (s : Step α)
  | chain (steps : List (Step α))

variable {α : Type}

namespace Step

/-- Dimension of the points that are transformed. -/
def source : Step α → Int
  | linear t => t.source
  | managed m | foreign m => m.source

/-- Dimension of the images. -/
def target : Step α → Int
  | linear t => t.target
  | managed m | foreign m => m.target

/-- The name of the kind of step. -/
def className : Step α → String
  | linear t => t.className
  | managed m | foreign m => m.name

/-- The step offers everything that a transform can be asked for. -/
def isManaged : Step α → Bool
  | foreign _ => false
  | _ => true

/-- The step offers the operations of the line. -/
def isUnivariate : Step α → Bool
  | linear t => t.isUnivariate
  | managed m => m.source == 1 && m.target == 1
  | foreign _ => false

/-- The step offers the operations of the plane. -/
def isPlanar : Step α → Bool
  | linear t => t.isPlanar
  | managed m => m.source == 2 && m.target == 2
  | foreign _ => false

variable [Zero α] [One α]

/-- The homogeneous matrix, which only linear steps have. -/
def matrix? : Step α → Option (Matrix α)
  | linear t => some t.matrix
  | _ => none

/-- The step is known to leave every point where it is. -/
def isIdentity [BEq α] : Step α → Bool
  | linear t => t.isIdentity
  | _ => false

variable [Add α] [Mul α] [Sub α] [Div α]

/-- The matrix of partial derivatives at a point. -/
def jacobian : Step α → List α → Matrix α
  | linear t => t.jacobian
  | managed m | foreign m => m.jacobian

/-- The inverse step. Managed mappings have none (`noInverse`), foreign ones cannot be asked
    (`unsupported`). -/
def inverse [BEq α] [Neg α] [Solver α] : Step α → Except Failure (Step α)
  | linear t => return linear (← t.inverse)
  | managed _ => .error .noInverse
  | foreign _ => .error .unsupported

end Step

namespace Transform

/-- The elementary steps in the order in which they are applied. -/
def steps : Transform α → List (Step α)
  | step s => [s]
  | chain steps => steps

/-- Dimension of the points that are transformed, which is that of the first of the `steps`. -/
def source (t : Transform α) : Int := (t.steps.head?.map Step.source).getD 0

/-- Dimension of the images, which is that of the last of the `steps`. -/
def target (t : Transform α) : Int := (t.steps.getLast?.map Step.target).getD 0

/-- The name of the kind of transform; chains of the line and of the plane have names of their own. -/
def className (t : Transform α) : String :=
  match t with
  | step s => s.className
  | chain _ =>
    if t.source = 1 ∧ t.target = 1 then "ConcatenatedTransform1D"
    else if t.source = 2 ∧ t.target = 2 then "ConcatenatedTransform2D"
    else "ConcatenatedTransform"

/-- The transform offers the operations of the line. -/
def isUnivariate (t : Transform α) : Bool :=
  match t with
  | step s => s.isUnivariate
  | chain _ => t.source == 1 && t.target == 1

/-- The transform offers the operations of the plane. -/
def isPlanar (t : Transform α) : Bool :=
  match t with
  | step s => s.isPlanar
  | chain _ => t.source == 2 && t.target == 2

/-- The transform is not a foreign mapping. Chains are managed whatever their steps. -/
def isManaged : Transform α → Bool
  | step s => s.isManaged
  | chain _ => true

/-- The transform that does `a` first and `b` second. Its chain holds the `steps` of both, not the
    two transforms. -/
def concatenate (a b : Transform α) : Except Failure (Transform α) :=
  if a.target = b.source then .ok (chain (a.steps ++ b.steps))
  else .error (.chainDimensions a.target b.source)

variable [Zero α] [One α]

/-- All `steps` are known to leave every point where it is. -/
def isIdentity [BEq α] (t : Transform α) : Bool := t.steps.all Step.isIdentity

variable [Add α] [Mul α]

/-- The product of the matrices along the steps, each of them put in front of the product so far by
    `multiply`, if there is one already. The first step without a matrix ends it: then there is no
    product at all. -/
def multiplyAlong : Option (Matrix α) → List (Step α) → Except Failure (Option (Matrix α))
  | product, [] => .ok product
  | product, s :: rest =>
    match s.matrix?, product with
    | none, _ => .ok none
    | some m, none => multiplyAlong (some m) rest
    | some m, some product => do multiplyAlong (some (← m.multiply product)) rest

/-- The homogeneous matrix of the whole transform by `multiplyAlong`, the last step leftmost; there
    is none as soon as one step has none. -/
def matrix? (t : Transform α) : Except Failure (Option (Matrix α)) := multiplyAlong none t.steps

variable [Sub α] [Div α]

/-- The inverse transform: the inverse `steps` in reverse order. -/
def inverse [BEq α] [Neg α] [Solver α] : Transform α → Except Failure (Transform α)
  | step s => return step (← s.inverse)
  | chain steps => return chain (← steps.reverse.mapM Step.inverse)

end Transform

end Georef

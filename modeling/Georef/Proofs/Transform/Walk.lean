import Georef.Transform.Basic

/-!
# Walks along a chain, without arrays

What a transform does with a point, apart from the arrays that points and images are in and from all checks of
their shapes. `Transform.apply` follows a point along the steps, `Transform.applyWithJacobian` takes the
derivative along, and `Transform.product?` multiplies the matrices of the steps. The laws of transforms are
proved about these three, and for steps that fit together they are what the checked operations give.

## Key results

- `fst_applyWithJacobian`: the image that comes with a derivative is the image
- `cols_foldl_advance`: the columns of the product that a walk takes along
-/

namespace Georef

variable {α : Type} [Zero α] [One α] [Add α] [Mul α] [Sub α] [Div α]

omit [One α] [Sub α] in
/-- The image of a point under a step: what `LinearTransform.apply` or the map of a `Mapping` gives. -/
def Step.apply : Step α → List α → List α
  | linear t => t.apply
  | managed m | foreign m => m.map

namespace Transform

omit [One α] [Sub α] in
/-- The image of a point: each step is applied to the image under the steps before it. -/
def apply (t : Transform α) (p : List α) : List α := t.steps.foldl (fun x s => s.apply x) p

/-- One step of a walk along a chain: the derivative of the step is taken at the point reached so far
and put in front of the product. -/
def advance (reached : List α × Matrix α) (s : Step α) : List α × Matrix α :=
  (s.apply reached.1, (s.jacobian reached.1).product reached.2)

/-- The image of a point together with the matrix of partial derivatives there, in a single pass. -/
def applyWithJacobian (t : Transform α) (p : List α) : List α × Matrix α :=
  match t with
  | step s => (s.apply p, s.jacobian p)
  | chain steps => steps.foldl advance (p, .eye t.source.toNat t.source.toNat)

/-- The matrix of partial derivatives at a point. -/
def jacobian (t : Transform α) (p : List α) : Matrix α := (t.applyWithJacobian p).2

/-- The product of the matrices of all steps, the last step leftmost; there is none as soon as one step has no
matrix. -/
def product? (t : Transform α) : Option (Matrix α) := do
  match ← t.steps.mapM Step.matrix? with
  | [] => none
  | first :: rest => some (rest.foldl (fun product m => m.product product) first)

/-- The images along a walk of `advance` do not depend on the derivatives. -/
theorem fst_foldl_advance (steps : List (Step α)) (reached : List α × Matrix α) :
    (steps.foldl advance reached).1 = steps.foldl (fun x s => s.apply x) reached.1 := by
  induction steps generalizing reached with
  | nil => rfl
  | cons s steps ih => exact ih (advance reached s)

/-- The image that comes with the derivative is that of `apply`. -/
theorem fst_applyWithJacobian (c : Transform α) (p : List α) :
    (c.applyWithJacobian p).1 = c.apply p := by
  cases c with
  | step s => rfl
  | chain steps => exact fst_foldl_advance steps _

/-- The product of a walk has as many columns as the one that the walk has started with: `advance`
    multiplies from the left. -/
theorem cols_foldl_advance (steps : List (Step α)) (reached : List α × Matrix α) :
    (steps.foldl advance reached).2.cols = reached.2.cols := by
  induction steps generalizing reached with
  | nil => rfl
  | cons s steps ih => exact ih (advance reached s)

end Transform

end Georef

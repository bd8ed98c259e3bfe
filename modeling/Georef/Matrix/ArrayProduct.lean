import Georef.Matrix.Basic
import Georef.Tensor.Broadcast

/-!
# Products of arrays

The product of two arrays is that of matrices. An array with one axis counts as a row on the left and
as a column on the right, and the axis that this adds is not part of the result. An array with more
than two axes is a stack of matrices; two stacks are multiplied matrix by matrix, once they are brought
to the same shape.
-/

namespace Georef

/-- A stack of matrices of one size. -/
structure MatrixStack (α : Type) where
  /-- How the matrices are arranged. -/
  shape : List Nat
  rows : Nat
  cols : Nat
  matrices : List (Matrix α)

namespace MatrixStack

variable {α : Type}

/-- The matrix of the given size with the given elements, if there are as many as it takes. -/
def matrixOfList? (rows cols : Nat) (elements : List α) : Option (Matrix α) :=
  if h : elements.toArray.size = rows * cols then some ⟨rows, cols, elements.toArray, h⟩ else none

/-- The stack of the given arrangement and size. -/
def ofElements (shape : List Nat) (rows cols : Nat) (elements : List α) : MatrixStack α :=
  let parts := Tensor.chunks (rows * cols) (shapeSize shape) elements
  ⟨shape, rows, cols, parts.filterMap (matrixOfList? rows cols)⟩

/-- The stack that an array with at least two axes is. -/
def ofTensor? (t : Tensor α) : Option (MatrixStack α) :=
  match t.shape.reverse with
  | cols :: rows :: others => some (ofElements others.reverse rows cols t.elements)
  | _ => none

/-- An array as the left factor of a product. -/
def ofLeftFactor? (t : Tensor α) : Option (MatrixStack α) :=
  match t.shape with
  | [count] => some (ofElements [] 1 count t.elements)
  | _ => ofTensor? t

/-- An array as the right factor of a product. -/
def ofRightFactor? (t : Tensor α) : Option (MatrixStack α) :=
  match t.shape with
  | [count] => some (ofElements [] count 1 t.elements)
  | _ => ofTensor? t

/-- The matrices repeated so as to fill the given arrangement. -/
def fill (s : MatrixStack α) (shape : List Nat) : List (Matrix α) :=
  Tensor.fillElements s.shape shape s.matrices

/-- The arrangement of the product of two stacks, if they fit together. -/
def productShape? {β : Type} (a : MatrixStack α) (b : MatrixStack β) : Option (List Nat) :=
  if a.cols = b.rows then Tensor.jointShape? a.shape b.shape else none

end MatrixStack

namespace Tensor

variable {α : Type}

/-- The shape of the product of two arrays, if they have one. -/
def productShape? {β : Type} (a : Tensor α) (b : Tensor β) : Option (List Nat) := do
  let left ← MatrixStack.ofLeftFactor? a
  let right ← MatrixStack.ofRightFactor? b
  let shape ← left.productShape? right
  let rows := if a.shape.length = 1 then [] else [left.rows]
  let cols := if b.shape.length = 1 then [] else [right.cols]
  return shape ++ rows ++ cols

/-- The elements of the product of two arrays. -/
def productElements [Zero α] [Add α] [Mul α] (a b : Tensor α) : Option (List α) := do
  let left ← MatrixStack.ofLeftFactor? a
  let right ← MatrixStack.ofRightFactor? b
  let shape ← left.productShape? right
  let products := List.zipWith Matrix.product (left.fill shape) (right.fill shape)
  return products.flatMap (·.elements.toList)

/-- The product of two arrays, if they have one. -/
def product? [Zero α] [Add α] [Mul α] (a b : Tensor α) : Option (Tensor α) := do
  ofElements? (← a.productShape? b) (← a.productElements b)

end Tensor

end Georef

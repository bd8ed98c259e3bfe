import Georef.Failure

/-!
# Arrays of numbers

A `Tensor` is a rectangular array with any number of axes, its elements in row-major order. Points are
arrays with one axis, sequences of points arrays with two. `Nested` is a number or a list of such
values, as they are written down; only one whose lists all have the same shape is an array.
-/

namespace Georef

/-- How many elements an array of the given shape has. -/
def shapeSize (shape : List Nat) : Nat := shape.foldr (· * ·) 1

/-- The last axis holds so many elements for each place along the others. -/
theorem shapeSize_eq (shape : List Nat) :
    shapeSize shape = shapeSize shape.dropLast * shape.getLastD 1 := by
  induction shape with
  | nil => rfl
  | cons n shape ih =>
    cases shape with
    | nil => simp [shapeSize]
    | cons m shape =>
      have htail : shapeSize (n :: m :: shape) = n * shapeSize (m :: shape) := rfl
      have hfront : shapeSize (n :: m :: shape).dropLast = n * shapeSize (m :: shape).dropLast := rfl
      rw [htail, hfront, ih, Nat.mul_assoc]
      rfl

/-- A rectangular array. -/
structure Tensor (α : Type) where
  /-- The size along each axis. -/
  shape : List Nat
  /-- The elements in row-major order. -/
  elements : List α
  length_eq : elements.length = shapeSize shape
deriving DecidableEq

/-- A number, or a list of such values. -/
inductive Nested (α : Type) where
  | scalar (value : α)
  | list (items : List (Nested α))

namespace Tensor

variable {α : Type}

/-- The greatest number of axes that an array has. -/
def greatestAxisCount : Nat := 64

/-- An array with no axis. -/
def scalar (value : α) : Tensor α := ⟨[], [value], rfl⟩

/-- An array with one axis. -/
def ofList (elements : List α) : Tensor α := ⟨[elements.length], elements, by simp [shapeSize]⟩

/-- An array of the given shape, if the shape leaves no room for elements. -/
def empty? (shape : List Nat) : Option (Tensor α) :=
  if h : shapeSize shape = 0 then some ⟨shape, [], by simp [h]⟩ else none

/-- The array whose elements are `f 0`, `f 1`, … in row-major order. -/
def generate (shape : List Nat) (f : Nat → α) : Tensor α :=
  ⟨shape, (List.range (shapeSize shape)).map f, by simp⟩

/-- The same shape with a function applied to every element. -/
def map {β : Type} (f : α → β) (t : Tensor α) : Tensor β :=
  ⟨t.shape, t.elements.map f, by simp [t.length_eq]⟩

/-- The elements cut into consecutive rows of the given width. -/
def chunks (width count : Nat) (elements : List α) : List (List α) :=
  (List.range count).map fun i => (elements.drop (i * width)).take width

/-- The size along the last axis; a single number counts as a row of one. -/
def width (t : Tensor α) : Nat := t.shape.getLastD 1

/-- How many rows there are if the array is cut along its last axis. -/
def rowCount (t : Tensor α) : Nat := shapeSize t.shape.dropLast

/-- Each `row`, from the first to the last, cut out by `chunks`. -/
def rowList (t : Tensor α) : List (List α) := chunks t.width t.rowCount t.elements

/-- Row `i`. -/
def row (t : Tensor α) (i : Nat) : List α := (t.elements.drop (i * t.width)).take t.width

/-- The same rows as an array with two axes. -/
def asTable (t : Tensor α) : Tensor α :=
  ⟨[t.rowCount, t.width], t.elements, by
    rw [t.length_eq, shapeSize_eq]
    simp [shapeSize, rowCount, width]⟩

/-- The array of the given shape with the given rows; a short row is filled with zeros. -/
def ofRowList [Zero α] (shape : List Nat) (rows : List (List α)) : Tensor α :=
  let width := shape.getLastD 1
  generate shape fun k => (rows.getD (k / width) []).getD (k % width) 0

/-! ### Writing into an array -/

/-- An array whose elements do not matter yet. -/
def blank [Zero α] (shape : List Nat) : Tensor α := generate shape fun _ => 0

/-- The array with one element replaced. -/
def put (t : Tensor α) (place : Nat) (x : α) : Tensor α :=
  ⟨t.shape, t.elements.set place x, by rw [List.length_set, t.length_eq]⟩

/-- Writes row `i` from its first element to its last. -/
def putRow (t : Tensor α) (i : Nat) (xs : List α) : Tensor α :=
  xs.zipIdx.foldl (fun t (x, j) => t.put (i * t.width + j) x) t

/-- Writes the elements of column `j` from the first row to the last. -/
def putColumn (t : Tensor α) (j : Nat) (xs : List α) : Tensor α :=
  xs.zipIdx.foldl (fun t (x, i) => t.put (i * t.width + j) x) t

/-- Writes all rows, one after the other, by `putRow`. -/
def putRows (t : Tensor α) (rows : List (List α)) : Tensor α :=
  rows.zipIdx.foldl (fun t (row, i) => t.putRow i row) t

/-! ### Repeating an array -/

/-- Whether an array of the first shape can fill one of the second: the sizes along each axis are the
same or the first one is one. Both shapes have the same number of axes. -/
def fills (shape larger : List Nat) : Bool :=
  (List.zip shape larger).all fun (n, m) => n == m || n == 1

/-- The elements of an array repeated along the axes on which it has size one. -/
def repeatElements : List Nat → List Nat → List α → List α
  | n :: shape, m :: larger, elements =>
    if n = m then
      (chunks (shapeSize shape) n elements).flatMap (repeatElements shape larger)
    else (List.replicate m (repeatElements shape larger elements)).flatten
  | _, _, elements => elements

/-- The array that results from filling an array of the given shape. The arrays are aligned at their
last axes; axes of size one are added or dropped in front, and repeated elsewhere. -/
def broadcast? [Zero α] (t : Tensor α) (shape : List Nat) : Option (Tensor α) :=
  let extra := t.shape.length - shape.length
  let aligned :=
    List.replicate (shape.length - t.shape.length) 1 ++ t.shape.drop extra
  if (t.shape.take extra).all (· == 1) && fills aligned shape then
    let elements := (repeatElements aligned shape t.elements).toArray
    some (generate shape fun k => elements.getD k 0)
  else none

/-- The array that results from filling an array of the given shape, which must fit by `broadcast?`. -/
def broadcast [Zero α] (t : Tensor α) (shape : List Nat) : Except Failure (Tensor α) :=
  match t.broadcast? shape with
  | some filled => .ok filled
  | none => .error .unusable

/-- The array with one more axis whose parts are the given elements, all of the same shape. -/
def stack (parts : List (Tensor α)) : Option (Tensor α) :=
  let shape := match parts with
    | [] => []
    | first :: _ => first.shape
  let elements := parts.flatMap (·.elements)
  if h : parts.all (fun part => part.shape == shape) ∧
      elements.length = shapeSize (parts.length :: shape) then
    some ⟨parts.length :: shape, elements, h.2⟩
  else none

end Tensor

namespace Nested

variable {α : Type}

mutual

/-- The array that a nested value describes, if all its lists fit together by `stack`. -/
def toTensor? : Nested α → Option (Tensor α)
  | scalar value => some (.scalar value)
  | list items => (toTensors? items).bind Tensor.stack

/-- The arrays that the items of a list describe. -/
def toTensors? : List (Nested α) → Option (List (Tensor α))
  | [] => some []
  | item :: rest => do return (← toTensor? item) :: (← toTensors? rest)

end

mutual

/-- The same nesting with a function applied to every value, from the first to the last. -/
def mapM {β : Type} (f : α → Except Failure β) : Nested α → Except Failure (Nested β)
  | scalar value => return scalar (← f value)
  | list items => return list (← mapItems f items)

/-- A function applied to every value of several nested values. -/
def mapItems {β : Type} (f : α → Except Failure β) :
    List (Nested α) → Except Failure (List (Nested β))
  | [] => return []
  | item :: rest => return (← mapM f item) :: (← mapItems f rest)

end

/-- The array that a nested value describes, if it does not have more axes than `greatestAxisCount`. -/
def toTensor (value : Nested α) : Except Failure (Tensor α) :=
  match value.toTensor? with
  | some t => if t.shape.length ≤ Tensor.greatestAxisCount then .ok t else .error .unusable
  | none => .error .unusable

end Nested

end Georef

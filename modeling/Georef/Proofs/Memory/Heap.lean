import Georef.Session.Run

/-!
# Matrices in memory

In a session a matrix is a value, and only a matrix that is being built is kept in one place for all who
hold it. This file goes one level down. The elements of a matrix are in a block of memory, and whatever has
a matrix refers to an array, that is to a block with a number of rows and columns: a published matrix, a
matrix that is being built, and a projective transform. Several of them may refer to one block. An operation
copies elements into a new block, writes into a block, or passes an array on; and when it fails, whatever it
has done stays done. Nothing in these definitions keeps a matrix that is being built apart from the rest.

The operations are those that publish, copy and change matrices and make transforms of them.

## Key results

- `contents_fresh`: a new array has the elements that were put there
- `contents_setPlace`: a single element that is written
- `contents_swapped`: a row or a column is transposed without being moved
-/

namespace Georef

/-! ## Objects -/

/-- An array: where its elements are, in row-major order, and how many rows and columns they make. -/
structure ArrayRef where
  block : Nat
  rows : Nat
  cols : Nat
deriving DecidableEq

/-- A linear transform in memory. It keeps numbers of its own or the array of the matrix it was made of. -/
inductive HeldTransform where
  | numbers (t : LinearTransform Double)
  | projective (planar : Bool) (array : ArrayRef)
deriving DecidableEq

/-- What a variable refers to. -/
inductive Object where
  /-- A published matrix. -/
  | matrix (array : ArrayRef)
  /-- A matrix that is being built, by its address. -/
  | builder (address : Nat)
  | transform (t : HeldTransform)
deriving DecidableEq

/-- What an object shows. A matrix that is being built only shows where it is. -/
inductive Shown where
  | matrix (m : Matrix Double)
  | builder (address : Nat)
  | transform (t : LinearTransform Double)
deriving DecidableEq

/-- Memory, with the variables that refer to it. -/
structure Heap where
  blocks : List (Array Double)
  /-- The arrays of the matrices that are being built; the place of a matrix is its address. -/
  builders : List ArrayRef
  /-- The variables with their objects; the first entry for a variable counts. -/
  bindings : List (String × Object)

namespace Heap

/-- Nothing is in memory yet. -/
def start : Heap := ⟨[], [], []⟩

/-- The object that a variable refers to. -/
def lookup (h : Heap) (name : String) : Option Object := h.bindings.lookup name

/-- The heap after a variable was made to refer to an object. -/
def assign (h : Heap) (name : String) (o : Object) : Heap :=
  { h with bindings := (name, o) :: h.bindings }

/-- The matrix that an array shows. -/
def contents (h : Heap) (a : ArrayRef) : Matrix Double :=
  -- A place that the block does not have reads as zero.
  .ofFn a.rows a.cols fun i j => (h.blocks.getD a.block #[]).getD (i * a.cols + j) 0

/-- What an object shows. -/
def shown (h : Heap) : Object → Shown
  | .matrix a => .matrix (h.contents a)
  | .builder address => .builder address
  | .transform (.numbers t) => .transform t
  | .transform (.projective planar a) => .transform (.projective planar (h.contents a))

/-- The matrix that is being built at an address. -/
def builderAt? (h : Heap) (address : Nat) : Option (Matrix Double) := h.builders[address]?.map h.contents

/-- The array for a matrix in the next block. -/
def fresh (h : Heap) (m : Matrix Double) : ArrayRef := ⟨h.blocks.length, m.rows, m.cols⟩

/-- The heap with one more block, which holds the elements of a matrix. -/
def allocate (h : Heap) (m : Matrix Double) : Heap := { h with blocks := h.blocks ++ [m.elements] }

/-- The heap after a block was overwritten. -/
def setBlock (h : Heap) (block : Nat) (elements : Array Double) : Heap :=
  { h with blocks := h.blocks.set block elements }

/-- The heap after one place of a block was overwritten. -/
def setPlace (h : Heap) (block place : Nat) (x : Double) : Heap :=
  { h with blocks := h.blocks.modify block (·.setIfInBounds place x) }

/-- The heap with one more matrix being built, at the next address. -/
def addBuilder (h : Heap) (a : ArrayRef) : Heap := { h with builders := h.builders ++ [a] }

/-- The heap after the matrix being built at an address was given another array. -/
def setBuilder (h : Heap) (address : Nat) (a : ArrayRef) : Heap :=
  { h with builders := h.builders.set address a }

/-! ## What arrays show -/

section Contents

variable {h : Heap} {a : ArrayRef} {m : Matrix Double} {i j : Nat}

/-- `contents` has as many rows as the array. -/
@[simp] theorem rows_contents : (h.contents a).rows = a.rows := rfl

/-- `contents` has as many columns as the array. -/
@[simp] theorem cols_contents : (h.contents a).cols = a.cols := rfl

/-- The entries of `contents` are in row-major order in the block. -/
theorem entry_contents (hi : i < a.rows) (hj : j < a.cols) :
    (h.contents a).entry i j = (h.blocks.getD a.block #[]).getD (i * a.cols + j) 0 :=
  Matrix.entry_ofFn hi hj

/-- Only the block of an array matters for its `contents`. -/
theorem contents_congr {h' : Heap} (hblock : h'.blocks[a.block]? = h.blocks[a.block]?) :
    h'.contents a = h.contents a := by
  simp only [contents, List.getD_eq_getElem?_getD, hblock]

/-- The `contents` of an array whose block holds the elements of a matrix are that matrix. -/
theorem contents_eq (hblock : h.blocks[a.block]? = some m.elements) (hrows : a.rows = m.rows)
    (hcols : a.cols = m.cols) : h.contents a = m := by
  refine Matrix.ext_entry hrows hcols fun i j hi hj => ?_
  change i < a.rows at hi
  change j < a.cols at hj
  rw [entry_contents hi hj]
  simp [List.getD_eq_getElem?_getD, hblock, Matrix.entry, hcols ▸ hj, hcols]

/-- `fresh` is a new array with the elements that were put there. -/
@[simp] theorem contents_fresh : (h.allocate m).contents (h.fresh m) = m :=
  contents_eq (by simp [allocate, fresh]) rfl rfl

/-- A published matrix on a new array shows the matrix that was put there. -/
theorem shown_matrix_fresh : (h.allocate m).shown (.matrix (h.fresh m)) = .matrix m :=
  congrArg Shown.matrix contents_fresh

/-- A projective transform on a new array shows the matrix that was put there. -/
theorem shown_projective_fresh {planar : Bool} :
    (h.allocate m).shown (.transform (.projective planar (h.fresh m))) =
      .transform (.projective planar m) :=
  congrArg (fun m => Shown.transform (.projective planar m)) contents_fresh

/-- A new block changes the `contents` of no array that was there. -/
theorem contents_allocate (ha : a.block < h.blocks.length) : (h.allocate m).contents a = h.contents a :=
  contents_congr (List.getElem?_append_left ha)

/-- `setBlock` overwrites a block with the elements of a matrix of the same size. -/
theorem contents_setBlock_self (ha : a.block < h.blocks.length) (hrows : a.rows = m.rows)
    (hcols : a.cols = m.cols) : (h.setBlock a.block m.elements).contents a = m :=
  contents_eq (by simp [setBlock, ha]) hrows hcols

/-- The block of the array is there and has as many elements as the array has. -/
def Fits (h : Heap) (a : ArrayRef) : Prop :=
  ∃ elements, h.blocks[a.block]? = some elements ∧ elements.size = a.rows * a.cols

/-- `setPlace` writes a single element, which changes one entry only. -/
theorem contents_setPlace (ha : h.Fits a) {row col : Nat} (hrow : row < a.rows) (hcol : col < a.cols)
    (x : Double) :
    (h.setPlace a.block (row * a.cols + col) x).contents a = (h.contents a).withEntry row col x := by
  obtain ⟨elements, hblock, hsize⟩ := ha
  refine Matrix.ext_entry rfl rfl fun i j hi hj => ?_
  change i < a.rows at hi
  change j < a.cols at hj
  have hplace : row * a.cols + col < elements.size := hsize ▸ Matrix.index_lt hrow hcol
  -- Two entries are at one place only if they are the same entry.
  have hsame : row * a.cols + col = i * a.cols + j ↔ i = row ∧ j = col := by
    constructor
    · intro heq
      have hdiv := congrArg (· / a.cols) heq
      have hmod := congrArg (· % a.cols) heq
      simp only [Nat.mul_comm _ a.cols, Nat.mul_add_div (show 0 < a.cols by omega), Nat.mul_add_mod,
        Nat.div_eq_of_lt hcol, Nat.div_eq_of_lt hj, Nat.mod_eq_of_lt hcol, Nat.mod_eq_of_lt hj] at hdiv hmod
      omega
    · rintro ⟨rfl, rfl⟩
      rfl
  have hentry : ((h.contents a).withEntry row col x).entry i j =
      if i = row ∧ j = col then x else (h.contents a).entry i j := Matrix.entry_ofFn hi hj
  rw [hentry, entry_contents hi hj, entry_contents hi hj]
  simp only [← hsame, setPlace, List.getD_eq_getElem?_getD, List.getElem?_modify, hblock]
  by_cases hcase : row * a.cols + col = i * a.cols + j
  · simp [hcase, hcase ▸ hplace]
  · simp [hcase]

/-- The elements of a single row are in the order of those of a column, so `transposed` need not
    move them. -/
theorem contents_swapped (ha : a.rows ≤ 1 ∨ a.cols ≤ 1) :
    h.contents ⟨a.block, a.cols, a.rows⟩ = (h.contents a).transposed := by
  refine Matrix.ext_entry rfl rfl fun i j hi hj => ?_
  change i < a.cols at hi
  change j < a.rows at hj
  -- Both indices are the same, as one of the two sizes is one.
  have hplace : i * a.rows + j = j * a.cols + i := by
    obtain hrows | hcols := ha
    · have hrows : a.rows = 1 := by omega
      have hj : j = 0 := by omega
      simp [hrows, hj]
    · have hcols : a.cols = 1 := by omega
      have hi : i = 0 := by omega
      simp [hcols, hi]
  have hentry : (h.contents a).transposed.entry i j = (h.contents a).entry j i := Matrix.entry_ofFn hi hj
  have hswapped : (h.contents ⟨a.block, a.cols, a.rows⟩).entry i j =
      (h.blocks.getD a.block #[]).getD (i * a.rows + j) 0 := Matrix.entry_ofFn hi hj
  rw [hentry, hswapped, entry_contents hj hi, hplace]

end Contents

end Heap

/-! ## Operations -/

/-- Something that is done with memory and may fail. A failure undoes nothing. -/
abbrev HeapAction (α : Type) := Action Heap α

namespace HeapAction

/-- The object that a variable refers to. -/
def object (name : String) : HeapAction Object := do
  match (← get).lookup name with
  | some o => return o
  | none => throw (.unknownVariable name)

/-- The array of a matrix that is being built. -/
def builderArray (address : Nat) : HeapAction ArrayRef := do
  match (← get).builders[address]? with
  | some a => return a
  | none => throw .unsupported

/-- The elements of a matrix in a new array. -/
def newArray (m : Matrix Double) : HeapAction ArrayRef := do
  let h ← get
  set (h.allocate m)
  return h.fresh m

/-- A new matrix that is being built, on an array that is there. -/
def newBuilder (a : ArrayRef) : HeapAction Object := do
  let h ← get
  set (h.addBuilder a)
  return .builder h.builders.length

/-- A copy of an array, which must not be empty if it is made by writing the matrix down. -/
def copyArray (mode : CopyMode) (a : ArrayRef) : HeapAction ArrayRef := do
  -- Serial numbers of copies are for marks, which memory does not have.
  let m : Matrix Double ← Copying.elements ⟨mode, 0⟩ ((← get).contents a)
  newArray m

/-- The address and the array of an object that is a matrix being built. -/
def asBuilder (o : Object) : HeapAction (Nat × ArrayRef) := do
  match o with
  | .builder address => return (address, ← builderArray address)
  | _ => throw .unsupported

/-- The array that a linear transform is made of. A matrix that is being built is published before. -/
def homogeneousArray (o : Object) : HeapAction ArrayRef := do
  match o with
  | .matrix a => return a
  | .builder address => copyArray .shallow (← builderArray address)
  | .transform _ => throw .wrongKind

/-! What the parts of operations do. -/

section Call

open Georef.Action

/-- `object` answers what a variable refers to. -/
theorem call_object {name : String} {h : Heap} {o : Object} (ho : h.lookup name = some o) :
    (object name).call h = (.ok o, h) := by
  simp [object, call_bind, ho]

/-- `object` fails for a variable that refers to nothing. -/
theorem call_object_of_none {name : String} {h : Heap} (hnone : h.lookup name = none) :
    (object name).call h = (.error (.unknownVariable name), h) := by
  simp [object, call_bind, hnone]

/-- `builderArray` answers the array of a matrix that is being built. -/
theorem call_builderArray {address : Nat} {h : Heap} {a : ArrayRef} (ha : h.builders[address]? = some a) :
    (builderArray address).call h = (.ok a, h) := by
  simp [builderArray, call_bind, ha]

/-- `asBuilder` answers its address as well. -/
theorem call_asBuilder {address : Nat} {h : Heap} {a : ArrayRef} (ha : h.builders[address]? = some a) :
    (asBuilder (.builder address)).call h = (.ok (address, a), h) := by
  simp only [asBuilder, call_bind, call_builderArray ha, call_pure]

/-- `copyArray` takes a new block if the copy is made at all. -/
theorem call_copyArray (mode : CopyMode) (a : ArrayRef) (h : Heap) :
    (copyArray mode a).call h = match Copying.elements ⟨mode, 0⟩ (h.contents a) with
      | .ok m => (.ok (h.fresh m), h.allocate m)
      | .error e => (.error e, h) := by
  simp only [copyArray, call_bind, call_get, call_lift]
  cases Copying.elements ⟨mode, 0⟩ (h.contents a) <;> rfl

end Call

end HeapAction

/-- The ways to make a matrix out of numbers. -/
inductive MatrixSource where
  | elements (rows cols : Int) (given : Option (Nested Numeral))
  | identity (size : Int)
  | zeros (rows cols : Int)
  | table (numbers : Nested Numeral)

/-- The matrix that is made. -/
def MatrixSource.matrix : MatrixSource → Except Failure (Matrix Double)
  | elements rows cols none => Matrix.create rows cols none
  | elements rows cols (some given) => do Matrix.create rows cols (some (← given.mapM Numeral.value))
  | identity size => Matrix.identity size
  | zeros rows cols => Matrix.createZeros rows cols
  | table numbers => do Matrix.ofArray (← numbers.read)

/-- A change of a matrix that is being built, with its numbers as they are written down or as they are. -/
inductive MatrixChange (α : Type) where
  | element (row col : Int) (value : α)
  | elements (given : Nested α)
  | transpose
  | normalizeColumns

namespace MatrixChange

/-- The change with its numbers read. -/
def read : MatrixChange Numeral → Except Failure (MatrixChange Double)
  | element row col x => return element row col (← x.value)
  | elements given => return elements (← given.mapM Numeral.value)
  | transpose => return transpose
  | normalizeColumns => return normalizeColumns

/-- What the change makes of a matrix. -/
def result : MatrixChange Double → Matrix Double → Except Failure (Matrix Double)
  | element row col x, m => m.setElement row col x
  | elements given, m => m.setElements given
  | transpose, m => return m.transposed
  | normalizeColumns, m => return m.normalizedColumns

/-- Carries out the change on the matrix being built at an address, which has the given array. -/
def write (address : Nat) (a : ArrayRef) : MatrixChange Double → HeapAction Unit
  | element row col x => do
    ((← get).contents a).checkIndex row col
    modify (·.setPlace a.block (row.toNat * a.cols + col.toNat) x)
  | elements given => do
    let changed : Matrix Double ← ((← get).contents a).setElements given
    modify (·.setBlock a.block changed.elements)
  | transpose => do
    let transposed := ((← get).contents a).transposed
    if a.rows = a.cols then
      modify (·.setBlock a.block transposed.elements)
    else if a.rows ≤ 1 ∨ a.cols ≤ 1 then
      -- The elements of a single row are in the order of those of a column.
      modify (·.setBuilder address ⟨a.block, a.cols, a.rows⟩)
    else
      let b ← HeapAction.newArray transposed
      modify (·.setBuilder address b)
  | normalizeColumns => do
    modify fun h => h.setBlock a.block (h.contents a).normalizedColumns.elements

end MatrixChange

/-- An operation on matrices in memory. Variables are given by their names. -/
inductive HeapOperation where
  | make (kind : MatrixKind) (source : MatrixSource)
  /-- The object itself, for another variable. -/
  | share (m : String)
  | build (m : String)
  | toBuilder (m : String)
  | copy (m : String) (mode : CopyMode)
  /-- The linear transform with this homogeneous matrix. -/
  | linear (m : String)
  | change (m : String) (c : MatrixChange Numeral)

open HeapAction in
/-- Carries out an operation. -/
def HeapOperation.execute : HeapOperation → HeapAction Object
  | make kind source => do
    let a ← newArray (← source.matrix)
    match kind with
    | .published => return .matrix a
    | .builder => newBuilder a
  | share m => object m
  | build m => do
    let (_, a) ← asBuilder (← object m)
    return .matrix (← copyArray .shallow a)
  | toBuilder m => do
    match ← object m with
    | .matrix a => newBuilder (← copyArray .shallow a)
    | _ => throw .unsupported
  | copy m mode => do
    match ← object m with
    | .matrix a => return .matrix (← copyArray mode a)
    | .builder address => newBuilder (← copyArray mode (← builderArray address))
    | .transform (.numbers t) => return .transform (.numbers t)
    | .transform (.projective planar a) =>
      -- A shallow copy of a transform has the same matrix.
      match mode with
      | .shallow => return .transform (.projective planar a)
      | _ => return .transform (.projective planar (← copyArray mode a))
  | linear m => do
    let a ← homogeneousArray (← object m)
    let t : LinearTransform Double ← LinearTransform.ofMatrix ((← get).contents a)
    match t with
    | .projective planar _ => return .transform (.projective planar a)
    | t => return .transform (.numbers t)
  | change m c => do
    let o ← object m
    let c : MatrixChange Double ← c.read
    let (address, a) ← asBuilder o
    c.write address a
    return o

/-- An operation together with the variable that refers to its result afterwards. -/
structure HeapInstruction where
  operation : HeapOperation
  variableName : Option String

namespace Heap

/-- How an instruction ends, and the memory that it leaves. -/
def perform (h : Heap) (i : HeapInstruction) : Except Failure Object × Heap :=
  match i.operation.execute.call h with
  | (.ok o, h') =>
    (.ok o, match i.variableName with
      | some name => h'.assign name o
      | none => h')
  | (.error f, h') => (.error f, h')

/-- The memory after a sequence of instructions, also if some of them fail. -/
def run (h : Heap) (instructions : List HeapInstruction) : Heap :=
  instructions.foldl (fun h i => (h.perform i).2) h

end Heap

end Georef

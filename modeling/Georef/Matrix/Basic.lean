import Georef.Tensor

/-!
# Matrices

A matrix keeps its elements in row-major order; `entry` is the view through which everything else is
stated. The elements may be of any type: the numbers of the program are `Double`, and the laws of the
theory are about exact numbers.

Main statements: `entry_ofFn` reads back a matrix given by a function, and `ext_entry` says that a
matrix is determined by its size and its entries.
-/

namespace Georef

/-- A matrix with any number of rows and columns. -/
structure Matrix (α : Type) where
  rows : Nat
  cols : Nat
  /-- The elements in row-major order. -/
  elements : Array α
  size_eq : elements.size = rows * cols
deriving DecidableEq

namespace Matrix

variable {α : Type}

/-- The matrix with the entries `f i j`. -/
def ofFn (rows cols : Nat) (f : Nat → Nat → α) : Matrix α :=
  ⟨rows, cols, Array.ofFn fun k : Fin (rows * cols) => f (k / cols) (k % cols), by simp⟩

/-- The entry in row `i` and column `j`; zero outside the matrix. -/
def entry [Zero α] (m : Matrix α) (i j : Nat) : α :=
  if j < m.cols then (m.elements[i * m.cols + j]?).getD 0 else 0

@[simp] theorem rows_ofFn (rows cols : Nat) (f : Nat → Nat → α) : (ofFn rows cols f).rows = rows :=
  rfl

@[simp] theorem cols_ofFn (rows cols : Nat) (f : Nat → Nat → α) : (ofFn rows cols f).cols = cols :=
  rfl

theorem index_lt {rows cols i j : Nat} (hi : i < rows) (hj : j < cols) :
    i * cols + j < rows * cols := by
  have h : (i + 1) * cols ≤ rows * cols := Nat.mul_le_mul_right cols hi
  rw [Nat.succ_mul] at h
  omega

@[simp] theorem entry_ofFn [Zero α] {rows cols : Nat} {f : Nat → Nat → α} {i j : Nat}
    (hi : i < rows) (hj : j < cols) : (ofFn rows cols f).entry i j = f i j := by
  have hk := index_lt hi hj
  have hdiv : (i * cols + j) / cols = i := by
    rw [Nat.mul_comm, Nat.mul_add_div (by omega), Nat.div_eq_of_lt hj, Nat.add_zero]
  have hmod : (i * cols + j) % cols = j := by
    rw [Nat.mul_comm, Nat.mul_add_mod, Nat.mod_eq_of_lt hj]
  simp [entry, ofFn, hj, hk, hdiv, hmod]

/-- Matrices of one size with the same entries are equal. -/
theorem ext_entry [Zero α] {a b : Matrix α} (hrows : a.rows = b.rows) (hcols : a.cols = b.cols)
    (h : ∀ i j, i < a.rows → j < a.cols → a.entry i j = b.entry i j) : a = b := by
  obtain ⟨r, c, ea, ha⟩ := a
  obtain ⟨r', c', eb, hb⟩ := b
  obtain rfl : r = r' := hrows
  obtain rfl : c = c' := hcols
  have helements : ea = eb := by
    apply Array.ext (by rw [ha, hb])
    intro k hk hk'
    have hc : 0 < c := by
      rcases Nat.eq_zero_or_pos c with rfl | hc
      · simp [ha] at hk
      · exact hc
    have hi : k / c < r := by
      rw [ha] at hk
      exact (Nat.div_lt_iff_lt_mul hc).2 hk
    have hj : k % c < c := Nat.mod_lt k hc
    have hkey : k / c * c + k % c = k := by rw [Nat.mul_comm]; exact Nat.div_add_mod k c
    have := h (k / c) (k % c) hi hj
    simpa [entry, hj, hkey, hk, hk'] using this
  subst helements
  rfl

/-- The matrix of the same size with a function applied to every element. -/
def map {β : Type} (f : α → β) (m : Matrix α) : Matrix β :=
  ⟨m.rows, m.cols, m.elements.map f, by simp [m.size_eq]⟩

/-- Row `i` as a list. -/
def row [Zero α] (m : Matrix α) (i : Nat) : List α := (List.range m.cols).map (m.entry i)

/-- Column `j` as a list. -/
def column [Zero α] (m : Matrix α) (j : Nat) : List α :=
  (List.range m.rows).map fun i => m.entry i j

/-- All rows, from the first to the last. -/
def rowList [Zero α] (m : Matrix α) : List (List α) := (List.range m.rows).map m.row

/-- All columns, from the first to the last. -/
def columnList [Zero α] (m : Matrix α) : List (List α) := (List.range m.cols).map m.column

/-- The matrix with the given rows; a short row is filled with zeros. -/
def ofRows [Zero α] (rows cols : Nat) (lists : List (List α)) : Matrix α :=
  ofFn rows cols fun i j => (lists.getD i []).getD j 0

/-- The matrix with the given columns. -/
def ofColumns [Zero α] (rows cols : Nat) (lists : List (List α)) : Matrix α :=
  ofFn rows cols fun i j => (lists.getD j []).getD i 0

/-- Ones on the main diagonal and zeros elsewhere. -/
def eye [Zero α] [One α] (rows cols : Nat) : Matrix α :=
  ofFn rows cols fun i j => if i = j then 1 else 0

/-- All elements zero. -/
def zeros [Zero α] (rows cols : Nat) : Matrix α := ofFn rows cols fun _ _ => 0

/-- The matrix with rows and columns exchanged. -/
def transposed [Zero α] (m : Matrix α) : Matrix α := ofFn m.cols m.rows fun i j => m.entry j i

/-- The matrix with one entry replaced. -/
def withEntry [Zero α] (m : Matrix α) (i j : Nat) (value : α) : Matrix α :=
  ofFn m.rows m.cols fun i' j' => if i' = i ∧ j' = j then value else m.entry i' j'

/-- The matrix as an array with two axes. -/
def toTensor (m : Matrix α) : Tensor α :=
  ⟨[m.rows, m.cols], m.elements.toList, by simp [shapeSize, m.size_eq]⟩

/-- The matrix that an array with two axes is. -/
def ofTensor? (t : Tensor α) : Option (Matrix α) :=
  match t with
  | ⟨[rows, cols], elements, h⟩ => some ⟨rows, cols, elements.toArray, by simpa [shapeSize] using h⟩
  | _ => none

/-! ## Checked construction -/

/-- A matrix needs at least one row and one column. -/
def checkSize (rows cols : Int) : Except Failure Unit :=
  if rows ≤ 0 ∨ cols ≤ 0 then .error (.sizeNotPositive rows cols) else .ok ()

/-- A matrix of the given size with the given elements, in row-major order whatever their nesting.
    Without elements it has ones on the diagonal. The size is checked first, by `checkSize`. -/
def create [Zero α] [One α] (rows cols : Int) (elements : Option (Nested α)) :
    Except Failure (Matrix α) := do
  checkSize rows cols
  match elements with
  | none => return eye rows.toNat cols.toNat
  | some nested =>
    let flat := (← nested.toTensor).elements
    if h : flat.toArray.size = rows.toNat * cols.toNat then
      return ⟨rows.toNat, cols.toNat, flat.toArray, h⟩
    else throw (.elementCount rows cols flat.length)

/-- The identity matrix of the given size. -/
def identity [Zero α] [One α] (size : Int) : Except Failure (Matrix α) := create size size none

/-- A matrix of zeros of a size that passes `checkSize`. -/
def createZeros [Zero α] (rows cols : Int) : Except Failure (Matrix α) := do
  checkSize rows cols
  return zeros rows.toNat cols.toNat

/-- A matrix made of an array, which must have two axes and at least one element (`notTable`). -/
def ofArray (t : Tensor α) : Except Failure (Matrix α) :=
  match ofTensor? t with
  | some m => if m.rows * m.cols = 0 then .error (.notTable t.shape) else .ok m
  | none => .error (.notTable t.shape)

/-- An array that stands for a matrix in an operation; it may be empty, but must have two axes
    (`notTwoAxes`). -/
def operand (t : Tensor α) : Except Failure (Matrix α) :=
  match ofTensor? t with
  | some m => .ok m
  | none => .error (.notTwoAxes t.shape)

/-! ## Elements -/

/-- Row and column lie inside the matrix. -/
def checkIndex (m : Matrix α) (row col : Int) : Except Failure Unit :=
  if 0 ≤ row ∧ row < m.rows ∧ 0 ≤ col ∧ col < m.cols then .ok ()
  else .error (.elementIndex row col m.rows m.cols)

/-- A single element, whose place must pass `checkIndex`. -/
def element [Zero α] (m : Matrix α) (row col : Int) : Except Failure α := do
  m.checkIndex row col
  return m.entry row.toNat col.toNat

/-- The matrix with a single element replaced, whose place must pass `checkIndex`. -/
def setElement [Zero α] (m : Matrix α) (row col : Int) (value : α) : Except Failure (Matrix α) := do
  m.checkIndex row col
  return m.withEntry row.toNat col.toNat value

/-- The matrix with all elements replaced, in row-major order whatever their nesting. -/
def setElements (m : Matrix α) (elements : Nested α) : Except Failure (Matrix α) := do
  let flat := (← elements.toTensor).elements
  if h : flat.toArray.size = m.rows * m.cols then
    return { m with elements := flat.toArray, size_eq := h }
  else throw (.replacementCount (m.rows * m.cols) flat.length)

/-! ## Tests -/

/-- The last row is zero up to a one at its end. -/
def endsAffine [Zero α] [One α] [BEq α] (m : Matrix α) : Bool :=
  m.entry (m.rows - 1) (m.cols - 1) == 1 &&
    (List.range (m.cols - 1)).all fun j => m.entry (m.rows - 1) j == 0

/-- The matrix is square and `endsAffine`. -/
def isAffine [Zero α] [One α] [BEq α] (m : Matrix α) : Bool := m.rows == m.cols && m.endsAffine

/-- Whether the matrix `isAffine`; a matrix without rows and columns has no last row to look at. -/
def affinity [Zero α] [One α] [BEq α] (m : Matrix α) : Except Failure Bool :=
  if m.rows = 0 ∧ m.cols = 0 then .error .positionOutOfRange else .ok m.isAffine

/-- The matrix is square with ones on the diagonal and zeros elsewhere. -/
def isIdentity [Zero α] [One α] [BEq α] (m : Matrix α) : Bool :=
  m.rows == m.cols &&
    (List.range m.rows).all fun i => (List.range m.cols).all fun j =>
      m.entry i j == if i = j then 1 else 0

/-! ## Products -/

/-- The sum of `f 0`, `f 1`, …, `f (n - 1)` added in this order, starting from zero. -/
def sumRange [Zero α] [Add α] (n : Nat) (f : Nat → α) : α :=
  (List.range n).foldl (fun sum k => sum + f k) 0

/-- The product of two matrices that fit together, whose sums are those of `sumRange`. -/
def product [Zero α] [Add α] [Mul α] (a b : Matrix α) : Matrix α :=
  ofFn a.rows b.cols fun i j => sumRange a.cols fun k => a.entry i k * b.entry k j

/-- The `product` of two matrices, whose sizes must fit (`productSize`). -/
def multiply [Zero α] [Add α] [Mul α] (a b : Matrix α) : Except Failure (Matrix α) :=
  if a.cols = b.rows then .ok (a.product b)
  else .error (.productSize a.rows a.cols b.rows b.cols)

/-- The `product` of two matrices as arrays, where sizes that do not fit have no text of their own. -/
def arrayProduct [Zero α] [Add α] [Mul α] (a b : Matrix α) : Except Failure (Matrix α) :=
  if a.cols = b.rows then .ok (a.product b) else .error .unusable

end Matrix

end Georef

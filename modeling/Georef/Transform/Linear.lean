import Georef.Matrix.Comparison
import Georef.Matrix.Printer
import Georef.Matrix.System

/-!
# Linear transforms

A linear transform takes points to points by a homogeneous matrix with one row more than the target
has dimensions and one column more than the source has. The image of a point is the product of the
matrix and the point followed by a one, divided by its last ordinate. Matrices of a simple form are
kept as just the numbers that they consist of, and their transforms need no division.

`LinearTransform.ofMatrix` chooses the simplest form for a matrix, and `LinearTransform.matrix` is the
way back.
-/

namespace Georef

/-- A transform given by a homogeneous matrix, in one of five forms. -/
inductive LinearTransform (α : Type) where
  /-- Every point stays. -/
  | identity (dimension : Nat)
  /-- On the line, `x * scale + offset`. -/
  | scaleOffset (scale offset : α)
  /-- In the plane, `m00 * x + m01 * y + m02` and `m10 * x + m11 * y + m12`. -/
  | affine (m00 m10 m01 m11 m02 m12 : α)
  /-- Ordinate `i` of the image is ordinate `indices[i]` of the point, counted from the end if
  negative. -/
  | selection (source : Nat) (indices : List Int)
  /-- Any homogeneous matrix; `planar` marks the transforms that offer the operations of the plane. -/
  | projective (planar : Bool) (matrix : Matrix α)
deriving DecidableEq

namespace LinearTransform

variable {α : Type}

/-- Dimension of the points that are transformed. A matrix without columns has none to offer, not
even dimension zero. -/
def source : LinearTransform α → Int
  | identity dimension => dimension
  | scaleOffset .. => 1
  | affine .. => 2
  | selection source _ => source
  | projective _ m => (m.cols : Int) - 1

/-- Dimension of the images. -/
def target : LinearTransform α → Int
  | identity dimension => dimension
  | scaleOffset .. => 1
  | affine .. => 2
  | selection _ indices => indices.length
  | projective _ m => (m.rows : Int) - 1

/-- The name of a form; those for one and two dimensions have names of their own. -/
def className : LinearTransform α → String
  | identity 1 => "IdentityTransform1D"
  | identity 2 => "IdentityTransform2D"
  | identity _ => "IdentityTransform"
  | scaleOffset .. => "LinearTransform1D"
  | affine .. => "AffineTransform2D"
  | selection .. => "CopyTransform"
  | projective true _ => "ProjectiveTransform2D"
  | projective false _ => "ProjectiveTransform"

/-- The transform offers the operations of the line. -/
def isUnivariate : LinearTransform α → Bool
  | identity dimension => dimension == 1
  | scaleOffset .. => true
  | _ => false

/-- The transform offers the operations of the plane. -/
def isPlanar : LinearTransform α → Bool
  | identity dimension => dimension == 2
  | affine .. => true
  | projective planar _ => planar
  | _ => false

/-! ## Selections -/

/-- The place that an index means among `count` ordinates; negative ones count from the end. -/
def ordinatePlace (count : Nat) (index : Int) : Nat :=
  if index < 0 then (index + count).toNat else index.toNat

/-- The selection of ordinates by their indices, each of which must mean a place
    (`positionOutOfRange`). -/
def select (source : Int) (indices : List Int) : Except Failure (LinearTransform α) :=
  if source < 0 then .error .unusable
  else if indices.all fun i => -source ≤ i && i < source then .ok (selection source.toNat indices)
  else .error .positionOutOfRange

/-- Every ordinate is taken exactly once, and from the front. -/
def isPermutation (source : Nat) (indices : List Int) : Bool :=
  indices.length == source && (List.range source).all fun (i : Nat) => indices.contains (i : Int)

/-- Where each ordinate went: the first place of `i` among the indices. -/
def inversePermutation (source : Nat) (indices : List Int) : List Int :=
  (List.range source).map fun (i : Nat) => (indices.idxOf (i : Int) : Int)

/-! ## The matrix -/

variable [Zero α] [One α]

/-- The homogeneous matrix of a selection. -/
def selectionMatrix (source : Nat) (indices : List Int) : Matrix α :=
  .ofFn (indices.length + 1) (source + 1) fun i j =>
    match indices[i]? with
    | some index => if ordinatePlace source index = j ∧ j < source then 1 else 0
    | none => if j = source then 1 else 0

/-- The homogeneous matrix, which for a selection is `selectionMatrix`. -/
def matrix : LinearTransform α → Matrix α
  | identity dimension => .eye (dimension + 1) (dimension + 1)
  | scaleOffset scale offset => .ofRows 2 2 [[scale, offset], [0, 1]]
  | affine m00 m10 m01 m11 m02 m12 => .ofRows 3 3 [[m00, m01, m02], [m10, m11, m12], [0, 0, 1]]
  | selection source indices => selectionMatrix source indices
  | projective _ m => m

/-! ## Points and derivatives -/

/-- The ordinate that row `i` picks, if it picks one without an offset. -/
def pickedOrdinate? [BEq α] (m : Matrix α) (i : Nat) : Option Nat :=
  if m.entry i (m.cols - 1) == 0 then
    match (List.range (m.cols - 1)).filter fun j => !(m.entry i j == 0) with
    | [j] => if m.entry i j == 1 then some j else none
    | _ => none
  else none

/-- The selection that a matrix stands for: it ends in an affine row (`endsAffine`), and each other
    row has a single one, zeros elsewhere and no offset. -/
def selection? [BEq α] (m : Matrix α) : Option (LinearTransform α) :=
  if m.endsAffine then
    ((List.range (m.rows - 1)).mapM (pickedOrdinate? m)).map fun places =>
      selection (m.cols - 1) (places.map fun (j : Nat) => (j : Int))
  else none

/-- What `selection?` finds in any matrix, which must have a last row and a last column. -/
def ofSelectionMatrix [BEq α] (m : Matrix α) : Except Failure (Option (LinearTransform α)) :=
  if m.rows = 0 ∨ m.cols = 0 then .error .positionOutOfRange else .ok (selection? m)

/-- The simplest transform with the given homogeneous matrix. A square matrix is looked at as an
    identity first (`isIdentity`), then as affine in one or two dimensions (`isAffine`). -/
def ofMatrix [BEq α] (m : Matrix α) : Except Failure (LinearTransform α) :=
  if m.rows < 2 ∨ m.cols < 2 then .error (.homogeneousSize m.rows m.cols)
  else if m.isIdentity then .ok (identity (m.cols - 1))
  else if m.isAffine && m.cols == 2 then .ok (scaleOffset (m.entry 0 0) (m.entry 0 1))
  else if m.isAffine && m.cols == 3 then
    .ok (affine (m.entry 0 0) (m.entry 1 0) (m.entry 0 1) (m.entry 1 1) (m.entry 0 2) (m.entry 1 2))
  else if m.rows == 3 && m.cols == 3 then .ok (projective true m)
  else .ok ((selection? m).getD (projective false m))

/-- The transform of the line with the given scale and offset. -/
def ofScale [BEq α] (scale offset : α) : LinearTransform α :=
  if scale == 1 && offset == 0 then identity 1 else scaleOffset scale offset

/-- The identity in a number of dimensions, at least one (`dimensionNotPositive`). -/
def ofDimension (dimension : Int) : Except Failure (LinearTransform α) :=
  if dimension < 1 then .error (.dimensionNotPositive dimension)
  else .ok (identity dimension.toNat)

/-- The map leaves every point where it is, as far as its matrix tells. -/
def isIdentity [BEq α] : LinearTransform α → Bool
  | identity _ => true
  | selection source indices => indices == (List.range source).map fun (i : Nat) => (i : Int)
  | t => t.matrix.isIdentity

variable [Add α] [Mul α] [Sub α] [Div α]

/-- Row `i` of a homogeneous matrix times the point `p` followed by a one. The sum starts from the
    offset. -/
def homogeneous (m : Matrix α) (p : List α) (i : Nat) : α :=
  (List.range (m.cols - 1)).foldl (fun sum j => sum + m.entry i j * p.getD j 0)
    (m.entry i (m.cols - 1))

/-- The common divisor of the ordinates of an image: the last `homogeneous` coordinate. -/
def denominator (m : Matrix α) (p : List α) : α := homogeneous m p (m.rows - 1)

/-- The image of a point under a homogeneous matrix, divided by its `denominator`. -/
def project (m : Matrix α) (p : List α) : List α :=
  (List.range (m.rows - 1)).map fun i => homogeneous m p i / denominator m p

/-- The derivative at a point of the transform of a homogeneous matrix, by the quotient rule for
    `project`. -/
def projectJacobian (m : Matrix α) (p : List α) : Matrix α :=
  .ofFn (m.rows - 1) (m.cols - 1) fun i j =>
    (m.entry i j - homogeneous m p i / denominator m p * m.entry (m.rows - 1) j) / denominator m p

/-- The image of the point `p`. -/
def apply : LinearTransform α → List α → List α
  | identity _, p => p
  | scaleOffset scale offset, p => [p.getD 0 0 * scale + offset]
  | affine m00 m10 m01 m11 m02 m12, p =>
    [m00 * p.getD 0 0 + m01 * p.getD 1 0 + m02, m10 * p.getD 0 0 + m11 * p.getD 1 0 + m12]
  | selection source indices, p => indices.map fun i => p.getD (ordinatePlace source i) 0
  | projective _ m, p => project m p

/-- The matrix of partial derivatives at the point `p`, which matters to the general form only. -/
def jacobian : LinearTransform α → List α → Matrix α
  | identity dimension, _ => .eye dimension dimension
  | scaleOffset scale _, _ => .ofRows 1 1 [[scale]]
  | affine m00 m10 m01 m11 _ _, _ => .ofRows 2 2 [[m00, m01], [m10, m11]]
  | selection source indices, _ =>
    .ofFn indices.length source fun i j => (selectionMatrix source indices).entry i j
  | projective _ m, p => projectJacobian m p

/-- The determinant of an affine transform of the plane: by how much it scales areas. -/
def determinant? : LinearTransform α → Option α
  | affine m00 m10 m01 m11 _ _ => some (m00 * m11 - m01 * m10)
  | _ => none

/-- The inverse transform. Only a permutation of ordinates (`isPermutation`), a scale other than
    zero or a matrix with an inverse has one. -/
def inverse [BEq α] [Neg α] [Solver α] :
    LinearTransform α → Except Failure (LinearTransform α)
  | identity dimension => .ok (identity dimension)
  | scaleOffset scale offset =>
    if scale == 0 then .error .zeroScale else .ok (ofScale (1 / scale) (-offset / scale))
  | selection source indices =>
    if isPermutation source indices then .ok (selection source (inversePermutation source indices))
    else .error (.notPermutation indices)
  | t => do ofMatrix (← t.matrix.inverse)

end LinearTransform

end Georef

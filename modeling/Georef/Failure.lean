import Georef.Decimal.Text
import Georef.Text.Labelled

/-!
# Failures

Every operation that can fail does so for a cause listed here. `Failure.message` is the text of a
cause; causes that come without a text have none.
-/

namespace Georef

/-- The sizes of an array along its axes. -/
def shapeText (shape : List Nat) : String := tupleText (shape.map fun (n : Nat) => integerText n)

/-- Row and column count of a matrix. -/
def sizeText (rows cols : Nat) : String := s!"{integerText rows}x{integerText cols}"

/-- Why an operation fails. -/
inductive Failure where
  /-- A matrix was asked for without rows or without columns. -/
  | sizeNotPositive (rows cols : Int)
  /-- A matrix of the given size was given too few or too many elements. -/
  | elementCount (rows cols : Int) (given : Nat)
  /-- The elements that replace all of a matrix are too few or too many. -/
  | replacementCount (expected given : Nat)
  /-- An array that stands for a matrix does not have two axes. -/
  | notTwoAxes (shape : List Nat)
  /-- A matrix cannot be made of an array without elements or without two axes. -/
  | notTable (shape : List Nat)
  /-- Row or column outside the matrix. -/
  | elementIndex (row col : Int) (rows cols : Nat)
  /-- The factors of a product do not fit. -/
  | productSize (rows cols otherRows otherCols : Nat)
  /-- The two sides of a linear system have different row counts. -/
  | systemSize (rows cols otherRows otherCols : Nat)
  /-- A system with more unknowns than equations, or with elements that are not finite. -/
  | noUniqueSolution (rows cols : Nat)
  /-- A matrix whose condition number is too large; the number is not part of the text. -/
  | illConditioned (rows cols : Nat)
  /-- Elimination met a zero pivot. -/
  | zeroPivot
  /-- A matrix without columns has no condition number. -/
  | emptySystem
  /-- A homogeneous matrix with fewer than two rows or columns. -/
  | homogeneousSize (rows cols : Nat)
  /-- Dimension of an identity below one. -/
  | dimensionNotPositive (dimension : Int)
  /-- A scale was given without an offset. -/
  | offsetMissing
  /-- The inverse of a scale that is zero. -/
  | zeroScale
  /-- The inverse of an ordinate selection that drops or repeats ordinates. -/
  | notPermutation (indices : List Int)
  /-- The inverse of a map that has none to offer. -/
  | noInverse
  /-- A point of the wrong shape. -/
  | pointShape (dimension : Int) (shape : List Nat)
  /-- An array of points of the wrong shape. -/
  | pointsShape (dimension : Int) (shape : List Nat)
  /-- A destination of the wrong shape. -/
  | destinationShape (count dimension : Int) (shape : List Nat)
  /-- A destination that is not an array. -/
  | destinationNotArray
  /-- A part of a concatenation is missing. -/
  | missingTransform
  /-- The output of one transform does not fit the input of the next. -/
  | chainDimensions (target source : Int)
  /-- A meridian outside [-180, 180]. -/
  | meridianRange (meridian : Double)
  /-- A text that names no direction. -/
  | unknownDirection (name : String)
  /-- A coordinate system without axes. -/
  | noAxes
  /-- No axis of the system lies on the line of the direction. -/
  | noColinearAxis (system direction : String)
  /-- A flattened sphere with an axis or flattening that is not positive. -/
  | flattenedSphereSize (semiMajor inverseFlattening : Double)
  /-- An ellipsoid with an axis that is not positive. -/
  | ellipsoidSize (semiMajor semiMinor : Double)
  /-- A code without ellipsoid, as it was given. -/
  | unknownEllipsoid (code : String)
  /-- A variable that holds no value. -/
  | unknownVariable (name : String)
  /-- A name under which no direction is known. -/
  | notRegistered (name : String)
  /-- The value does not offer the operation. -/
  | unsupported
  /-- A position outside a sequence. -/
  | positionOutOfRange
  /-- A key that is not there. -/
  | missingKey
  /-- An infinite number where an integer is needed. -/
  | infiniteInteger
  /-- An integer larger than every number. -/
  | integerTooLarge
  /-- An argument of the wrong kind. -/
  | wrongKind
  /-- An argument of the right kind that cannot be used. -/
  | unusable
deriving DecidableEq

namespace Failure

/-- The text that follows the size of a matrix without inverse. -/
def nonInvertibleText (rows cols : Nat) (reason : String) : String :=
  s!"Non-invertible {sizeText rows cols} matrix: {reason}"

/-- The text of a cause, if it has one. -/
def message : Failure → Option String
  | sizeNotPositive rows cols =>
    s!"Matrix size must be strictly positive, got {integerText rows}x{integerText cols}"
  | elementCount rows cols given =>
    some ("Expected " ++ integerText (rows * cols) ++ " elements for a " ++ integerText rows ++ "x" ++
      integerText cols ++ " matrix, got " ++ integerText given)
  | replacementCount expected given =>
    s!"Expected {integerText expected} elements, got {integerText given}"
  | notTwoAxes shape => s!"Expected a 2-D matrix, got shape {shapeText shape}"
  | notTable shape => s!"Expected a non-empty 2-D array, got shape {shapeText shape}"
  | elementIndex row col rows cols =>
    s!"Indices ({integerText row}, {integerText col}) are out of bounds for a {sizeText rows cols} matrix"
  | productSize rows cols otherRows otherCols =>
    s!"Cannot multiply a {sizeText rows cols} matrix by a {sizeText otherRows otherCols} matrix"
  | systemSize rows cols otherRows otherCols =>
    s!"Cannot solve a {sizeText rows cols} system for a {sizeText otherRows otherCols} matrix"
  | noUniqueSolution rows cols => nonInvertibleText rows cols "matrix has no unique solution"
  | illConditioned rows cols => nonInvertibleText rows cols "condition number is *"
  | zeroPivot => "Singular matrix"
  | homogeneousSize rows cols =>
    s!"A homogeneous matrix needs at least 2 rows and 2 columns, got {sizeText rows cols}"
  | dimensionNotPositive dimension =>
    s!"Dimension must be strictly positive, got {integerText dimension}"
  | offsetMissing => "linear(scale, offset) requires an offset"
  | zeroScale => "Scale factor is zero"
  | notPermutation indices =>
    s!"Ordinate selection {tupleText (indices.map integerText)} is not a permutation"
  | noInverse => ""
  | pointShape dimension shape =>
    s!"Expected a point of dimension {integerText dimension}, got shape {shapeText shape}"
  | pointsShape dimension shape =>
    s!"Expected points of dimension {integerText dimension}, got shape {shapeText shape}"
  | destinationShape count dimension shape =>
    some ("Expected a destination of shape " ++ tupleText [integerText count, integerText dimension] ++
      ", got " ++ shapeText shape)
  | destinationNotArray => "Destination must be a numpy array, got list"
  | missingTransform => "Transforms to concatenate must not be None"
  | chainDimensions target source =>
    some ("Cannot concatenate a transform with " ++ integerText target ++
      " target dimensions to a transform with " ++ integerText source ++ " source dimensions")
  | meridianRange meridian => s!"Meridian must be in [-180.0, 180.0], got {meridian.text}"
  | unknownDirection name => s!"Unknown axis direction: {quoted name}"
  | noAxes => "A coordinate system needs at least one axis"
  | noColinearAxis system direction =>
    s!"No axis of {quoted system} is colinear with {direction}"
  | flattenedSphereSize semiMajor inverseFlattening =>
    some ("Axis length and inverse flattening must be positive, got " ++ semiMajor.text ++ ", " ++
      inverseFlattening.text)
  | ellipsoidSize semiMajor semiMinor =>
    s!"Axis lengths must be positive, got {semiMajor.text}, {semiMinor.text}"
  | unknownEllipsoid code => s!"No hardcoded ellipsoid for code {code}"
  | unknownVariable name => name
  | notRegistered name => name
  | emptySystem | unsupported | positionOutOfRange | missingKey | infiniteInteger | integerTooLarge
  | wrongKind | unusable => none

end Failure

end Georef

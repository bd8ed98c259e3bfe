import Georef.Double.Arithmetic
import Georef.Matrix.Bidiagonal

/-!
# Singular values

A bidiagonal matrix is made diagonal by plane rotations of its rows and of its columns. Each sweep turns
every row against the next one; its shift makes the entry beside the last diagonal element small. Where
an entry beside the diagonal has become negligible the matrix falls apart, and what is left of two rows
is made diagonal at once.

The rotations of the columns are collected as directions of the unknowns, those of the rows are applied
to the right sides. The elements of the diagonal are the singular values, up to their signs and order.
-/

namespace Georef

/-- A rotation of the plane. -/
structure Rotation where
  cosine : Double
  sine : Double

namespace Rotation

/-- The two lists turned in their plane. -/
def turn (r : Rotation) (u v : List Double) : List Double × List Double :=
  (List.zipWith (fun x y => r.cosine * x + r.sine * y) u v,
    List.zipWith (fun x y => r.cosine * y - r.sine * x) u v)

/-- The rotation turns nothing. -/
def isTrivial (r : Rotation) : Bool := r.cosine == 1 && r.sine == 0

/-- The two lists turned in their plane, unless there is nothing to turn. -/
def turnIfAny (r : Rotation) (u v : List Double) : List Double × List Double :=
  if r.isTrivial then (u, v) else r.turn u v

/-- One with the sign of a number. -/
def unitOf (sign : Double) : Double := Double.one.withSignOf sign

/-- The rotation that takes a pair of numbers to a number and zero, and that number. -/
def annihilate (f g : Double) : Rotation × Double :=
  if g == 0 then (⟨1, 0⟩, f)
  else if f == 0 then (⟨0, unitOf g⟩, g.abs)
  else
    let length := Double.lengthOf [f, g]
    let image := length.withSignOf f
    (⟨f.abs / length, g / image⟩, image)

end Rotation

/-- The singular values of the triangular matrix with the rows `f, g` and `0, h`, with their signs, and
the rotations that make it diagonal. -/
structure TriangleRotations where
  larger : Double
  smaller : Double
  /-- The rotation of the rows. -/
  left : Rotation
  /-- The rotation of the columns. -/
  right : Rotation

namespace TriangleRotations

/-- The rotations for a diagonal element `f` that is not smaller than `h`, signs apart: left and right
one, and how far the larger singular value exceeds `f`. -/
def ofDescending (f g h : Double) : Rotation × Rotation × Double :=
  let two : Double := 2.0
  let gap := f.abs - h.abs
  let l := gap / f.abs
  let m := g / f
  let t := two - l
  let s := (t * t + m * m).sqrt
  let r := if l == 0 then m.abs else (l * l + m * m).sqrt
  let a := (0.5 : Double) * (s + r)
  let tangent :=
    if m * m == 0 then
      if l == 0 then two.withSignOf f * Rotation.unitOf g else g / gap.withSignOf f + m / t
    else (m / (s + t) + m / (r + l)) * (Double.one + a)
  let secant := (tangent * tangent + (4.0 : Double)).sqrt
  let right : Rotation := ⟨two / secant, tangent / secant⟩
  (⟨(right.cosine + right.sine * m) / a, h / f * right.sine / a⟩, right, a)

/-- The singular values and rotations for `f`, `g` and `h`. -/
def ofEntries (f g h : Double) : TriangleRotations :=
  let swapped := decide (f.abs < h.abs)
  let (first, second, excess) := if swapped then ofDescending h g f else ofDescending f g h
  let left : Rotation := if swapped then ⟨second.sine, second.cosine⟩ else first
  let right : Rotation := if swapped then ⟨first.sine, first.cosine⟩ else second
  let greatest := if swapped then h.abs else f.abs
  let least := if swapped then f.abs else h.abs
  -- The sign is taken from the entries that weigh most.
  let sign :=
    if greatest < g.abs then
      Rotation.unitOf right.sine * Rotation.unitOf left.cosine * Rotation.unitOf g
    else if swapped then
      Rotation.unitOf right.sine * Rotation.unitOf left.sine * Rotation.unitOf h
    else Rotation.unitOf right.cosine * Rotation.unitOf left.cosine * Rotation.unitOf f
  ⟨(greatest * excess).withSignOf sign,
    (least / excess).withSignOf (sign * Rotation.unitOf f * Rotation.unitOf h), left, right⟩

/-- The smaller singular value for `f`, `g` and `h`, without its sign. -/
def leastSingular (f g h : Double) : Double :=
  let one := Double.one
  let size := g.abs
  let least := if f.abs < h.abs then f.abs else h.abs
  let greatest := if f.abs < h.abs then h.abs else f.abs
  let sum := one + least / greatest
  let difference := (greatest - least) / greatest
  if least == 0 then 0
  else if size < greatest then
    let u := size / greatest
    least * ((2.0 : Double) / ((sum * sum + u * u).sqrt + (difference * difference + u * u).sqrt))
  else
    let u := greatest / size
    if u == 0 then least * greatest / size
    else
      let c := one / ((one + sum * u * (sum * u)).sqrt + (one + difference * u * (difference * u)).sqrt)
      least * c * u * (2.0 : Double)

end TriangleRotations

/-- A row of a bidiagonal matrix that is being made diagonal. -/
structure SingularRow where
  diagonal : Double
  /-- The entry beside the diagonal; nothing depends on it in the last row. -/
  above : Double
  /-- A direction of the unknowns. -/
  direction : List Double
  /-- The part of each right side. -/
  values : List Double

namespace SingularRow

/-- Two rows with their directions and their values turned. -/
def turnBoth (turn : Rotation → List Double → List Double → List Double × List Double)
    (right left : Rotation) (p q : SingularRow) : SingularRow × SingularRow :=
  let (first, second) := turn right p.direction q.direction
  let (firstValues, secondValues) := turn left p.values q.values
  (⟨p.diagonal, p.above, first, firstValues⟩, ⟨q.diagonal, q.above, second, secondValues⟩)

end SingularRow

namespace SingularValues

/-- Half the distance from one to the next larger number, 2^-53. -/
def halfPrecision : Double := (1.1102230246251565e-16 : Double)

/-- Entries beside the diagonal are negligible when they are smaller than the diagonal by this factor,
2^(53/8) times half the precision. -/
def tolerance : Double := (98.70149282610821 : Double) * halfPrecision

/-! ## Splitting -/

/-- The rows in the opposite order, with the roles of directions and values exchanged: the transposed
matrix, read from its end. -/
def flip (rows : List SingularRow) : List SingularRow :=
  let reversed := rows.reverse
  List.zipWith (fun r above => ⟨r.diagonal, above, r.values, r.direction⟩) reversed
    ((reversed.map (·.above)).tail ++ [0])

/-- The rows in the order in which they are swept. -/
def orient (upward : Bool) (rows : List SingularRow) : List SingularRow :=
  if upward then flip rows else rows

/-- The longest block of rows at the end that are tied together by entries above the threshold, and the
rows in front of it. -/
def lastBlock (threshold : Double) : List SingularRow → List SingularRow × List SingularRow
  | [] => ([], [])
  | r :: rest =>
    match lastBlock threshold rest with
    | ([], block) =>
      if block.isEmpty || threshold < r.above.abs then ([], r :: block)
      else ([{ r with above := 0 }], block)
    | (before, block) => (r :: before, block)

/-- Lower bounds of the singular values of the leading parts of a block, each one row longer than the one
before; `bound` is that of the first row. -/
def bounds (bound : Double) : List SingularRow → List Double
  | p :: q :: rest =>
    bound :: bounds (q.diagonal.abs * (bound / (bound + p.above.abs))) (q :: rest)
  | _ => [bound]

/-- The smallest bound for a block. -/
def leastBound (block : List SingularRow) : Double :=
  match bounds ((block.head?.map (·.diagonal.abs)).getD 0) block with
  | [] => 0
  | first :: rest => rest.foldl (fun a x => if x < a then x else a) first

/-- The block without the first entry that is negligible beside the bounds, if there is one. -/
def cut? (bound : Double) : List SingularRow → Option (List SingularRow)
  | p :: q :: rest =>
    if p.above.abs ≤ tolerance * bound then some ({ p with above := 0 } :: q :: rest)
    else (cut? (q.diagonal.abs * (bound / (bound + p.above.abs))) (q :: rest)).map (p :: ·)
  | _ => none

/-- The block without its last entry beside the diagonal, if that is negligible beside the last diagonal
element. -/
def cutLast? : List SingularRow → Option (List SingularRow)
  | [p, q] =>
    if p.above.abs ≤ tolerance * q.diagonal.abs then some [{ p with above := 0 }, q] else none
  | p :: rest => (cutLast? rest).map (p :: ·)
  | [] => none

/-- The block without a negligible entry, if there is one. -/
def deflate? (block : List SingularRow) : Option (List SingularRow) :=
  (cutLast? block).or (cut? ((block.head?.map (·.diagonal.abs)).getD 0) block)

/-! ## Sweeps -/

/-- A sweep without shift, from row `p` on: `right` is the rotation of the columns and `left` that of the
rows before, both without meaning at the first row. Also gives the entry in front of `p`. -/
def sweepFrom (right left : Rotation) (p : SingularRow) : List SingularRow → Double × List SingularRow
  | [] =>
    let last := p.diagonal * right.cosine
    (last * left.sine, [{ p with diagonal := last * left.cosine }])
  | q :: rest =>
    let (nextRight, image) := Rotation.annihilate (p.diagonal * right.cosine) p.above
    let (nextLeft, diagonal) :=
      Rotation.annihilate (left.cosine * image) (q.diagonal * nextRight.sine)
    let (p, q) := SingularRow.turnBoth Rotation.turnIfAny nextRight nextLeft p q
    let (above, rows) := sweepFrom nextRight nextLeft q rest
    (left.sine * image, { p with diagonal, above } :: rows)

/-- A sweep with a shift, from row `p` on; `f` and `g` are the pair of numbers that the next rotation of
the columns is made for. Also gives the entry in front of `p`. -/
def shiftedSweepFrom (f g : Double) (p : SingularRow) : List SingularRow → Double × List SingularRow
  | [] => (f, [p])
  | q :: rest =>
    let (right, before) := Rotation.annihilate f g
    let diagonal := right.cosine * p.diagonal + right.sine * p.above
    let above := right.cosine * p.above - right.sine * p.diagonal
    let (left, image) := Rotation.annihilate diagonal (right.sine * q.diagonal)
    let corner := right.cosine * q.diagonal
    let (p, q) := SingularRow.turnBoth Rotation.turnIfAny right left p q
    let next : SingularRow :=
      { q with diagonal := left.cosine * corner - left.sine * above, above := left.cosine * q.above }
    let (entry, rows) :=
      shiftedSweepFrom (left.cosine * above + left.sine * corner) (left.sine * q.above) next rest
    (before, { p with diagonal := image, above := entry } :: rows)

/-- The shift for a block: an estimate of its smallest singular value, or zero where the shift would
spoil a small singular value or make no difference. -/
def shiftOf (size : Nat) (block : List SingularRow) : Double :=
  let sizes := block.map (·.diagonal.abs) ++ block.dropLast.map (·.above.abs)
  let largest := sizes.foldl (fun a x => if a < x then x else a) 0
  if Double.ofInt size * tolerance * (leastBound block / largest) ≤
      (if halfPrecision < (0.01 : Double) * tolerance then (0.01 : Double) * tolerance
        else halfPrecision) then 0
  else
    match block.reverse with
    | q :: p :: _ =>
      let shift := TriangleRotations.leastSingular p.diagonal p.above q.diagonal
      let first := (block.head?.map (·.diagonal.abs)).getD 0
      let ratio := shift / first
      if (0 : Double) < first && ratio * ratio < halfPrecision then 0 else shift
    | _ => 0

/-- One sweep over a block, from its first to its last row. -/
def sweep (size : Nat) (block : List SingularRow) : List SingularRow :=
  match block with
  | [] => []
  | p :: rest =>
    let shift := shiftOf size block
    if shift == 0 then (sweepFrom ⟨1, 0⟩ ⟨1, 0⟩ p rest).2
    else
      let f := (p.diagonal.abs - shift) * (Rotation.unitOf p.diagonal + shift / p.diagonal)
      (shiftedSweepFrom f p.above p rest).2

/-! ## Iteration -/

/-- How the last block was swept: in which direction, and from which place to which. -/
structure Course where
  upward : Bool
  first : Nat
  last : Nat

/-- The direction for a block: from the larger end of the diagonal to the smaller one, and unchanged as
long as the blocks overlap. -/
def directionFor (course : Option Course) (first last : Nat) (block : List SingularRow) : Bool :=
  let rises := match block.head?, block.getLast? with
    | some p, some q => decide (p.diagonal.abs < q.diagonal.abs)
    | _, _ => false
  match course with
  | some c => if c.last < first || last < c.first then rises else c.upward
  | none => rises

/-- Makes two rows diagonal. -/
def settleTwo (p q : SingularRow) : List SingularRow :=
  let r := TriangleRotations.ofEntries p.diagonal p.above q.diagonal
  let (p, q) := SingularRow.turnBoth Rotation.turn r.right r.left p q
  [{ p with diagonal := r.larger, above := 0 }, { q with diagonal := r.smaller }]

/-- Makes the rows diagonal from the last ones on, in at most the given number of steps. -/
def settle (size : Nat) (threshold : Double) :
    Nat → Option Course → List SingularRow → List SingularRow
  | 0, _, rows => rows
  | fuel + 1, course, rows =>
    match lastBlock threshold rows with
    | (_, []) => []
    | (before, [r]) => settle size threshold fuel course before ++ [r]
    | (before, [p, q]) => settle size threshold fuel course before ++ settleTwo p q
    | (before, block) =>
      let first := before.length
      let last := rows.length
      let upward := directionFor course first last block
      let oriented := orient upward block
      match deflate? oriented with
      | some rest =>
        settle size threshold fuel (course.map fun c => { c with upward })
          (before ++ orient upward rest)
      | none =>
        settle size threshold fuel (some ⟨upward, first, last⟩)
          (before ++ orient upward (sweep size oriented))

/-- More than enough steps for a matrix with the given number of rows. -/
def greatestStepCount (size : Nat) : Nat := 40 * (size + 1) * (size + 1)

/-- Entries up to this one are negligible wherever they stand. -/
def thresholdFor (rows : List SingularRow) : Double :=
  let count := Double.ofInt rows.length
  let relative := tolerance * (leastBound rows / count.sqrt)
  let least := (6.0 : Double) * (count * (count * (2.2250738585072014e-308 : Double)))
  if relative < least then least else relative

/-- The rows of a bidiagonal system, made diagonal. -/
def ofBidiagonal (rows : List (BidiagonalRow Double)) : List SingularRow :=
  let size := rows.length
  let start := rows.zipIdx.map fun (r, i) =>
    ⟨r.diagonal, r.above, (List.range size).map fun j => if i = j then 1 else 0, r.values⟩
  settle size (thresholdFor start) (greatestStepCount size) none start

end SingularValues

end Georef

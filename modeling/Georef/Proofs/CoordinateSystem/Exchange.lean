import Georef.Proofs.CoordinateSystem.Swap

/-!
# What an exchange of axes is

The matrix of an exchange has a row for each target axis with a single element other than zero. It is a one in the
column of the first source axis with exactly the direction of the target axis, or else a minus one in the column of
the first source axis with the opposite direction. The last row keeps the last coordinate. Without such a source axis
there is no matrix, and the first target axis without one is named. Nothing is assumed about the axes: directions may
be repeated, be opposite to each other or be their own opposite.

## Key results

- `CoordinateSystem.exists_columnFor_eq_ok`, `CoordinateSystem.columnFor_eq_error`: one target axis
- `CoordinateSystem.exchanges_ofColumns`: the rows of the matrix
- `CoordinateSystem.swapAxes_spec`: the matrix, or the first target axis without source axis
-/

namespace Georef

namespace CoordinateSystem

variable {source target : CoordinateSystem}

/-- The matrix exchanges the axes of the source for the axes of the target. -/
structure Exchanges (source target : CoordinateSystem) (m : Matrix Double) : Prop where
  rows_eq : m.rows = target.dimension + 1
  cols_eq : m.cols = source.dimension + 1
  /-- A row has one element other than zero, a one for the first source axis with the same direction or a minus one for
  the first one with the opposite direction. -/
  row (j : Nat) (y : Axis) : target.axes[j]? = some y → ∃ i < source.dimension,
    (source.FirstAt y.direction i ∧ m.entry j i = 1 ∨
      (∀ axis ∈ source.axes, axis.direction ≠ y.direction) ∧ source.FirstAt y.direction.opposite i ∧
        m.entry j i = -1) ∧
    ∀ k, m.entry j k ≠ 0 ↔ k = i
  last_row (k : Nat) : m.entry target.dimension k = if k = source.dimension then 1 else 0

/-! ## One target axis -/

section Factors

variable {α : Type} [One α] [Neg α] {y : Axis}

/-- Without colinear source axis `columnFor` names the target axis. -/
theorem columnFor_eq_error (h : ∀ x ∈ source.axes, ¬x.direction.Colinear y.direction) :
    source.columnFor (α := α) y = .error (.noColinearAxis source.name y.direction.name) := by
  rw [columnFor, indexOf?_eq_none_iff.mpr h]

/-- With a colinear source axis `columnFor` gives a column. -/
theorem exists_columnFor_eq_ok (h : ∃ x ∈ source.axes, x.direction.Colinear y.direction) :
    ∃ column : Nat × α, source.columnFor y = .ok column := by
  obtain ⟨x, hx, hcolinear⟩ := h
  cases hfound : source.indexOf? y.direction with
  | none => exact absurd hcolinear (indexOf?_eq_none_iff.mp hfound x hx)
  | some i => exact ⟨_, columnFor_eq_ok_iff.mpr ⟨indexOf?_eq_some_iff.mp hfound, rfl⟩⟩

end Factors

/-- The `orientation` of a source axis that is found: a one for the same direction, a minus one for
    the opposite one. -/
theorem FoundAt.orientation_cases {d : Direction} {i : Nat} (h : source.FoundAt d i) :
    source.FirstAt d i ∧ (source.orientation i d : Double) = 1 ∨
      (∀ axis ∈ source.axes, axis.direction ≠ d) ∧ source.FirstAt d.opposite i ∧
        (source.orientation i d : Double) = -1 := by
  obtain hsame | ⟨hnone, hopposite⟩ := h
  · exact .inl ⟨hsame, if_pos hsame.1⟩
  · refine .inr ⟨hnone, hopposite, if_neg fun hsame => ?_⟩
    obtain ⟨axis, haxis, hdirection⟩ := Option.map_eq_some_iff.mp hsame
    exact hnone axis (List.mem_of_getElem? haxis) hdirection

/-! ## All target axes -/

open AxisMatrix

/-- The matrix with the columns of all target axes exchanges the axes. -/
theorem exchanges_ofColumns {columns : List (Nat × Double)}
    (h : List.Forall₂ (fun axis column => source.columnFor axis = .ok column) target.axes columns) :
    source.Exchanges target (ofColumns columns source.dimension) := by
  have hlength : target.dimension = columns.length := h.length_eq
  have hfit := (signed_of_columns h).2
  have hnonzero : (1 : Double) ≠ 0 ∧ (-1 : Double) ≠ 0 := by decide
  refine ⟨congrArg (· + 1) hlength.symm, rfl, fun j y hy => ?_, fun k => ?_⟩
  · obtain ⟨hj, hplace⟩ := List.getElem?_eq_some_iff.mp hy
    have hj' : j < columns.length := h.length_eq ▸ hj
    -- The row of the target axis has the factor of its source axis and nothing else.
    have hcolumn : source.columnFor y = .ok columns[j] := by
      rw [← hplace]
      exact (List.forall₂_iff_get.mp h).2 j hj hj'
    have hrow := row_ofColumns hfit (show j < columns.length + 1 by omega)
    have hat : columnOf columns source.dimension j = columns[j] := by
      rw [columnOf, List.getElem?_eq_getElem hj', Option.getD_some]
    rw [hat] at hrow
    have hlt := hfit _ (List.getElem_mem hj')
    generalize columns[j] = column at hcolumn hrow hlt
    obtain ⟨i, f⟩ := column
    obtain ⟨hfound, rfl⟩ := columnFor_eq_ok_iff.mp hcolumn
    refine ⟨i, hlt, ?_, fun k => ?_⟩
    · simpa [hrow] using hfound.orientation_cases
    · obtain ⟨-, hone⟩ | ⟨-, -, hminus⟩ := hfound.orientation_cases
      · by_cases hk : k = i <;> simp [hrow, hk, hone, hnonzero]
      · by_cases hk : k = i <;> simp [hrow, hk, hminus, hnonzero]
  · -- The last row stands behind those of the target axes, and keeps the last coordinate.
    have hlast : columnOf columns source.dimension columns.length = (source.dimension, 1) := by
      rw [columnOf, List.getElem?_eq_none le_rfl, Option.getD_none]
    rw [hlength, row_ofColumns hfit (Nat.lt_succ_self _), hlast]

/-- `swapAxes` names the first target axis without source axis. -/
theorem swapAxes_eq_error {j : Nat} {y : Axis} (hy : target.axes[j]? = some y)
    (hnone : ∀ x ∈ source.axes, ¬x.direction.Colinear y.direction)
    (hbefore : ∀ k < j, ∀ z, target.axes[k]? = some z → ∃ x ∈ source.axes, x.direction.Colinear z.direction) :
    source.swapAxes (α := Double) target = .error (.noColinearAxis source.name y.direction.name) := by
  have hcolumns := List.mapM_eq_error_of_first hy (columnFor_eq_error (α := Double) hnone)
    fun k hk z hz => exists_columnFor_eq_ok (hbefore k hk z hz)
  rw [swapAxes, hcolumns]
  rfl

/-- A search for a direction finds the first axis with exactly this direction, or else the first one with the opposite
    direction. If each target axis has such a source axis, the exchange is a matrix with the sign of one source axis in
    each row; otherwise the first target axis without one is named. -/
theorem swapAxes_spec (source target : CoordinateSystem) :
    (∀ d : Direction, (∀ i, source.indexOf? d = some i ↔ source.FoundAt d i) ∧
      (source.indexOf? d = none ↔ ∀ x ∈ source.axes, x.direction ≠ d ∧ x.direction ≠ d.opposite)) ∧
    ((∀ y ∈ target.axes, ∃ x ∈ source.axes, x.direction.Colinear y.direction) →
      ∃ m : Matrix Double, source.swapAxes target = .ok m ∧ source.Exchanges target m) ∧
    ((∃ y ∈ target.axes, ∀ x ∈ source.axes, ¬x.direction.Colinear y.direction) →
      ∃ (j : Nat) (y : Axis), target.axes[j]? = some y ∧
        (∀ x ∈ source.axes, ¬x.direction.Colinear y.direction) ∧
        (∀ k < j, ∀ z, target.axes[k]? = some z → ∃ x ∈ source.axes, x.direction.Colinear z.direction) ∧
        source.swapAxes (α := Double) target = .error (.noColinearAxis source.name y.direction.name)) := by
  refine ⟨fun d => ⟨fun i => indexOf?_eq_some_iff, ?_⟩, fun hall => ?_, fun hmissing => ?_⟩
  · have hnone : source.indexOf? d = none ↔ _ := indexOf?_eq_none_iff
    simpa [Direction.Colinear] using hnone
  · obtain ⟨columns, hcolumns⟩ := List.exists_forall₂ fun y hy => exists_columnFor_eq_ok (α := Double) (hall y hy)
    exact ⟨_, swapAxes_eq_ok_iff.mpr ⟨columns, hcolumns, rfl⟩, exchanges_ofColumns hcolumns⟩
  · -- The search for a target axis without source axis stops at the first one.
    let unmatched (y : Axis) : Bool := decide (∀ x ∈ source.axes, ¬x.direction.Colinear y.direction)
    cases hfind : target.axes.findIdx? unmatched with
    | none =>
      obtain ⟨y, hy, hnone⟩ := hmissing
      have hmatched := List.findIdx?_eq_none_iff.mp hfind y hy
      exact absurd hnone (by simpa [unmatched] using hmatched)
    | some j =>
      obtain ⟨hj, hat, hbefore⟩ := List.findIdx?_eq_some_iff_getElem.mp hfind
      have hy : target.axes[j]? = some target.axes[j] := List.getElem?_eq_getElem hj
      have hnone : ∀ x ∈ source.axes, ¬x.direction.Colinear target.axes[j].direction := by
        simpa [unmatched] using hat
      have hfirst (k : Nat) (hk : k < j) (z : Axis) (hz : target.axes[k]? = some z) :
          ∃ x ∈ source.axes, x.direction.Colinear z.direction := by
        obtain ⟨hk', rfl⟩ := List.getElem?_eq_some_iff.mp hz
        simpa [unmatched] using hbefore k hk
      exact ⟨j, _, hy, hnone, hfirst, swapAxes_eq_error hy hnone hfirst⟩

/-- A source with opposite and repeated axes and a direction that is its own opposite, exchanged for axes that it has
and for axes of which it lacks two. -/
theorem swapAxes_spec_repeated :
    ∃ source target other : CoordinateSystem,
      source.axes.map Axis.direction = [.south, .standard 0, .north, .north, .east] ∧
      target.axes.map Axis.direction = [.north, .standard 0, .west, .south] ∧
      other.axes.map Axis.direction = [.west, .geocentricX, .standard 17] ∧
      source.indexOf? .north = some 2 ∧ source.indexOf? .west = some 4 ∧ source.indexOf? .geocentricX = none ∧
      (∃ m : Matrix Double, source.swapAxes target = .ok m ∧ source.Exchanges target m ∧
        m = .ofRows 5 6 [[0, 0, 1, 0, 0, 0], [0, 1, 0, 0, 0, 0], [0, 0, 0, 0, -1, 0], [1, 0, 0, 0, 0, 0],
          [0, 0, 0, 0, 0, 1]]) ∧
      ∃ (j : Nat) (y : Axis), other.axes[j]? = some y ∧ y.direction.name = "GEOCENTRIC_X" ∧
        source.swapAxes (α := Double) other = .error (.noColinearAxis source.name y.direction.name) := by
  let source : CoordinateSystem :=
    ⟨"source", [.south, .standard 0, .north, .north, .east].map Axis.ofDirection, by simp⟩
  let target : CoordinateSystem := ⟨"target", [.north, .standard 0, .west, .south].map Axis.ofDirection, by simp⟩
  let other : CoordinateSystem := ⟨"other", [.west, .geocentricX, .standard 17].map Axis.ofDirection, by simp⟩
  have hcolinear : ∀ y ∈ target.axes, ∃ x ∈ source.axes, x.direction.Colinear y.direction := by decide +kernel
  have hmissing : ∃ y ∈ other.axes, ∀ x ∈ source.axes, ¬x.direction.Colinear y.direction := by decide +kernel
  have hmatrix : source.swapAxes target = .ok (.ofRows 5 6 [[0, 0, 1, 0, 0, 0], [0, 1, 0, 0, 0, 0],
      [0, 0, 0, 0, -1, 0], [1, 0, 0, 0, 0, 0], [0, 0, 0, 0, 0, (1 : Double)]]) := by
    decide +kernel
  have hfailure : source.swapAxes (α := Double) other = .error (.noColinearAxis "source" "GEOCENTRIC_X") := by
    decide +kernel
  have hnorth : source.FirstAt .north 2 := by
    unfold FirstAt
    decide +kernel
  have hwest : (∀ axis ∈ source.axes, axis.direction ≠ .west) ∧ source.FirstAt Direction.west.opposite 4 := by
    unfold FirstAt
    decide +kernel
  have hgeocentric : ∀ x ∈ source.axes, x.direction ≠ .geocentricX ∧
      x.direction ≠ Direction.geocentricX.opposite := by
    decide +kernel
  obtain ⟨hindex, hexchange, -⟩ := swapAxes_spec source target
  obtain ⟨m, hm, hexchanges⟩ := hexchange hcolinear
  obtain ⟨j, y, hy, -, -, herror⟩ := (swapAxes_spec source other).2.2 hmissing
  have hname : y.direction.name = "GEOCENTRIC_X" := (Failure.noColinearAxis.inj
    (Except.error.inj (herror.symm.trans hfailure))).2
  exact ⟨source, target, other, rfl, rfl, rfl, (hindex _).1 2 |>.mpr (.inl hnorth),
    (hindex _).1 4 |>.mpr (.inr hwest), (hindex _).2.mpr hgeocentric,
    ⟨m, hm, hexchanges, Except.ok.inj (hm.symm.trans hmatrix)⟩, j, y, hy, hname, herror⟩

end CoordinateSystem

end Georef

import Georef.CoordinateSystem.Swap
import Georef.Double.Arithmetic
import Georef.Proofs.CoordinateSystem.Search
import Georef.Proofs.Direction.Known
import Georef.Proofs.List
import Georef.Proofs.Matrix.Entries

/-!
# Exchanging axes and composition

Each row of a matrix that exchanges axes has a single element other than zero, a one or a minus one: the
factor of the one source axis that is colinear with a target axis. Two such matrices are multiplied by
following the axes, and the product is exact also for doubles. A source without colinear axes leaves no choice
of the source axis, so going through a system in between leads to the same axis as going there directly; the
two factors multiply to the direct one because the opposite of an opposite is the direction itself.

## Key results

- `Direction.Colinear.trans`: colinear known directions form classes
- `CoordinateSystem.columnFor_comp`: the axis and the factor found through a system in between
- `AxisMatrix.product`: matrices that exchange axes are multiplied by following the axes
- `CoordinateSystem.swapAxes_functorial`: an exchange with itself is the identity, and exchanges compose
-/

namespace Georef

/-! ## Colinear directions -/

namespace Direction.Colinear

variable {r : Registry} {d e f : Direction}

/-- `Colinear` directions are so the other way round if the second one is known. -/
theorem symm (hr : r.Grown) (he : e ∈ r.values) (h : d.Colinear e) : e.Colinear d := by
  obtain rfl | rfl := h
  · exact .inl rfl
  · exact .inr (hr.opposite_opposite he).symm

/-- Directions `Colinear` with the same one are with each other, as the opposite of the opposite of
    a known direction is itself. -/
theorem trans (hr : r.Grown) (hf : f ∈ r.values) (hde : d.Colinear e) (hef : e.Colinear f) :
    d.Colinear f := by
  obtain rfl | rfl := hde
  · exact hef
  · obtain rfl | rfl := hef
    · exact .inr rfl
    · exact .inl (hr.opposite_opposite hf)

end Direction.Colinear

namespace CoordinateSystem

/-- All directions of the axes are known. -/
def KnownTo (r : Registry) (cs : CoordinateSystem) : Prop := ∀ axis ∈ cs.axes, axis.direction ∈ r.values

instance (r : Registry) (cs : CoordinateSystem) : Decidable (cs.KnownTo r) :=
  inferInstanceAs (Decidable (∀ axis ∈ cs.axes, axis.direction ∈ r.values))

/-- No two axes are colinear. -/
def Independent (cs : CoordinateSystem) : Prop :=
  cs.axes.Pairwise fun x y => ¬x.direction.Colinear y.direction

instance (cs : CoordinateSystem) : Decidable cs.Independent :=
  inferInstanceAs (Decidable (cs.axes.Pairwise fun x y => ¬x.direction.Colinear y.direction))

variable {r : Registry} {cs : CoordinateSystem}

/-- Among independent axes, colinear ones stand at one place. -/
theorem Independent.eq_of_colinear (hfree : cs.Independent) (hr : r.Grown) (hcs : cs.KnownTo r)
    {i j : Nat} {x y : Axis} (hx : cs.axes[i]? = some x) (hy : cs.axes[j]? = some y)
    (hxy : x.direction.Colinear y.direction) : i = j := by
  obtain ⟨hi, rfl⟩ := List.getElem?_eq_some_iff.mp hx
  obtain ⟨hj, rfl⟩ := List.getElem?_eq_some_iff.mp hy
  rcases Nat.lt_trichotomy i j with hlt | heq | hlt
  · exact absurd hxy (List.pairwise_iff_getElem.mp hfree i j hi hj hlt)
  · exact heq
  · have hyx := hxy.symm hr (hcs _ (List.getElem_mem hj))
    exact absurd hyx (List.pairwise_iff_getElem.mp hfree j i hj hi hlt)

/-! ## The source axis of a target axis -/

/-- Among independent axes, `indexOf?` finds the one colinear with the direction. -/
theorem Independent.indexOf?_eq_some (hfree : cs.Independent) (hr : r.Grown) (hcs : cs.KnownTo r)
    {d : Direction} (hd : d ∈ r.values) {i : Nat} {x : Axis} (hx : cs.axes[i]? = some x)
    (h : x.direction.Colinear d) : cs.indexOf? d = some i := by
  cases hfound : cs.indexOf? d with
  | none => exact absurd h (indexOf?_eq_none_iff.mp hfound x (List.mem_of_getElem? hx))
  | some j =>
    obtain ⟨y, hy, hyd⟩ := (indexOf?_eq_some_iff.mp hfound).colinear
    have hxknown := hcs x (List.mem_of_getElem? hx)
    have hyx := hyd.trans hr hxknown (h.symm hr hd)
    rw [hfree.eq_of_colinear hr hcs hy hx hyx]

section Factors

variable {α : Type} [One α] [Neg α]

/-- The factor between axes with colinear directions: minus one if the directions differ. -/
def factorBetween (source target : Direction) : α := if source = target then 1 else -1

/-- The `orientation` of an axis is the factor between its direction and the one looked for. -/
theorem orientation_eq {i : Nat} {x : Axis} (hx : cs.axes[i]? = some x) (d : Direction) :
    (cs.orientation i d : α) = factorBetween x.direction d := by
  simp only [orientation, hx, Option.map_some, Option.some.injEq, factorBetween]

/-- `columnFor` gives the axis that is found for the direction of the target axis, with its factor. -/
theorem columnFor_eq_ok_iff {axis : Axis} {i : Nat} {f : α} :
    cs.columnFor axis = .ok (i, f) ↔ cs.FoundAt axis.direction i ∧ f = cs.orientation i axis.direction := by
  rw [← indexOf?_eq_some_iff, columnFor]
  split
  · rename_i j hfound
    simp only [hfound, Except.ok.injEq, Prod.mk.injEq, Option.some.injEq]
    constructor
    · rintro ⟨rfl, rfl⟩
      exact ⟨rfl, rfl⟩
    · rintro ⟨rfl, rfl⟩
      exact ⟨rfl, rfl⟩
  · rename_i hnone
    simp [hnone]

/-- What `columnFor` gives is colinear with the target axis, and the factor is the one between the
    two. -/
theorem of_columnFor_eq_ok {axis : Axis} {i : Nat} {f : α} (h : cs.columnFor axis = .ok (i, f)) :
    ∃ x, cs.axes[i]? = some x ∧ x.direction.Colinear axis.direction ∧
      f = factorBetween x.direction axis.direction := by
  obtain ⟨hfound, rfl⟩ := columnFor_eq_ok_iff.mp h
  obtain ⟨x, hx, hcolinear⟩ := hfound.colinear
  exact ⟨x, hx, hcolinear, orientation_eq hx axis.direction⟩

/-- Among independent axes, `columnFor` gives the colinear one. -/
theorem Independent.columnFor_eq_ok (hfree : cs.Independent) (hr : r.Grown) (hcs : cs.KnownTo r)
    {axis : Axis} (haxis : axis.direction ∈ r.values) {i : Nat} {x : Axis} (hx : cs.axes[i]? = some x)
    (h : x.direction.Colinear axis.direction) :
    cs.columnFor axis = .ok (i, (factorBetween x.direction axis.direction : α)) := by
  have hfound := hfree.indexOf?_eq_some hr hcs haxis hx h
  exact columnFor_eq_ok_iff.mpr ⟨indexOf?_eq_some_iff.mp hfound, (orientation_eq hx axis.direction).symm⟩

end Factors

/-- The factor between three axes, the one in the middle left out. -/
private theorem factorBetween_mul {d e f : Direction} (hr : r.Grown) (hf : f ∈ r.values)
    (hde : d.Colinear e) (hef : e.Colinear f) :
    (factorBetween e f * factorBetween d e : Double) = factorBetween d f := by
  have hone : (1 * 1 : Double) = 1 ∧ (1 * -1 : Double) = -1 ∧ (-1 * 1 : Double) = -1 ∧
      (-1 * -1 : Double) = 1 := by decide +kernel
  obtain ⟨hpp, hpn, hnp, hnn⟩ := hone
  unfold factorBetween
  by_cases hef' : e = f
  · subst hef'
    rw [if_pos rfl]
    split
    · exact hpp
    · exact hpn
  · by_cases hde' : d = e
    · subst hde'
      rw [if_pos rfl, if_neg hef']
      exact hnp
    · -- Turned twice, the direction is the one it started from.
      have hdf : d = f := by
        rw [hde.resolve_left hde', hef.resolve_left hef', hr.opposite_opposite hf]
      rw [if_neg hef', if_neg hde', if_pos hdf]
      exact hnn

/-- What `columnFor` finds through a system in between is found directly, and the factors multiply. -/
theorem columnFor_comp {a b : CoordinateSystem} (hfree : a.Independent) (hr : r.Grown)
    (ha : a.KnownTo r) {x y : Axis} {i k : Nat} {f g : Double} (hx : x.direction ∈ r.values)
    (hy : b.axes[k]? = some y) (hfar : b.columnFor x = .ok (k, f)) (hnear : a.columnFor y = .ok (i, g)) :
    a.columnFor x = .ok (i, f * g) := by
  obtain ⟨y', hy', hyx, rfl⟩ := of_columnFor_eq_ok hfar
  obtain rfl : y = y' := Option.some.inj (hy.symm.trans hy')
  obtain ⟨z, hz, hzy, rfl⟩ := of_columnFor_eq_ok hnear
  rw [factorBetween_mul hr hx hzy hyx]
  exact hfree.columnFor_eq_ok hr ha hx hz (hzy.trans hr hx hyx)

end CoordinateSystem

/-! ## Matrices with one element a row -/

namespace AxisMatrix

section Entries

variable {α : Type} [One α] {columns : List (Nat × α)} {last i j : Nat}

/-- The column and the factor of a row: those of a target axis, and the last column for the last row. -/
def columnOf (columns : List (Nat × α)) (last i : Nat) : Nat × α := columns[i]?.getD (last, 1)

/-- The column of a row lies in the matrix if those of the target axes do. -/
theorem columnOf_lt (h : ∀ column ∈ columns, column.1 < last) (i : Nat) :
    (columnOf columns last i).1 < last + 1 := by
  unfold columnOf
  cases hi : columns[i]? with
  | none => exact Nat.lt_succ_self last
  | some column => exact Nat.lt_succ_of_lt (h column (List.mem_of_getElem? hi))

variable [Zero α]

/-- The homogeneous matrix with one factor in each row. -/
def ofColumns (columns : List (Nat × α)) (last : Nat) : Matrix α :=
  .ofFn (columns.length + 1) (last + 1) fun i j =>
    if j = (columnOf columns last i).1 then (columnOf columns last i).2 else 0

/-- The entries of `ofColumns`: the factor of the row in its column, and zeros. -/
theorem entry_ofColumns (hi : i < columns.length + 1) (hj : j < last + 1) :
    (ofColumns columns last).entry i j =
      if j = (columnOf columns last i).1 then (columnOf columns last i).2 else 0 :=
  Matrix.entry_ofFn hi hj

/-- A whole row of `ofColumns`, also outside of the matrix. -/
theorem row_ofColumns (h : ∀ column ∈ columns, column.1 < last) (hi : i < columns.length + 1) :
    (ofColumns columns last).entry i =
      fun k => if k = (columnOf columns last i).1 then (columnOf columns last i).2 else 0 := by
  have hlt := columnOf_lt h i
  funext k
  by_cases hk : k < last + 1
  · exact entry_ofColumns hi hk
  · rw [Matrix.entry_of_cols_le (Nat.le_of_not_lt hk), if_neg (by omega)]

end Entries

/-- The elements of a matrix that exchanges axes. -/
private def unitElements : List Double := [0, 1, -1]

/-- A sum with at most one term other than zero is that term, also for doubles. -/
private theorem sumRange_select {f : Double} (hf : f ∈ unitElements) {g : Nat → Double}
    (hg : ∀ k, g k ∈ unitElements) (c n : Nat) :
    Matrix.sumRange n (fun k => (if k = c then f else 0) * g k) = if c < n then 0 + f * g c else 0 := by
  have hrest : ∀ x ∈ unitElements, ∀ y ∈ unitElements, ∀ z ∈ unitElements,
      0 + 0 * x = (0 : Double) ∧ 0 + y * z + 0 * x = 0 + y * z := by decide +kernel
  -- The partial sum is zero up to the column, and the selected element from there on.
  induction n with
  | zero => rfl
  | succ n ih =>
    obtain ⟨hbefore, hafter⟩ := hrest (g n) (hg n) f hf (g c) (hg c)
    rw [Matrix.sumRange_succ, ih]
    rcases Nat.lt_trichotomy n c with hlt | rfl | hlt
    · rw [if_neg (by omega), if_neg (by omega), if_neg (by omega)]
      exact hbefore
    · rw [if_neg (by omega), if_pos rfl, if_pos (by omega)]
    · rw [if_pos hlt, if_neg (by omega), if_pos (by omega)]
      exact hafter

variable {outer inner : List (Nat × Double)} {last : Nat}

/-- Every factor is a one or a minus one. -/
def Signed (columns : List (Nat × Double)) : Prop := ∀ column ∈ columns, column.2 = 1 ∨ column.2 = -1

/-- The factor of a row is a one or a minus one, that of the last row included. -/
private theorem columnOf_of_signed (h : Signed inner) (last i : Nat) :
    (columnOf inner last i).2 = 1 ∨ (columnOf inner last i).2 = -1 := by
  unfold columnOf
  cases hi : inner[i]? with
  | none => exact .inl rfl
  | some column => exact h column (List.mem_of_getElem? hi)

/-- The elements of a matrix that is `Signed` are zeros, ones and minus ones. -/
private theorem entry_mem_unitElements (h : Signed inner) (last i j : Nat) :
    (ofColumns inner last).entry i j ∈ unitElements := by
  by_cases hi : i < inner.length + 1
  · by_cases hj : j < last + 1
    · rw [entry_ofColumns hi hj]
      split
      · obtain h | h := columnOf_of_signed h last i <;> simp [h, unitElements]
      · simp [unitElements]
    · rw [Matrix.entry_of_cols_le (Nat.le_of_not_lt hj)]
      simp [unitElements]
  · rw [Matrix.entry_of_rows_le (Nat.le_of_not_lt hi)]
    simp [unitElements]

/-- The columns of the product: the inner column that the outer one leads to, the factors multiplied. -/
def follow (outer inner : List (Nat × Double)) (last : Nat) : List (Nat × Double) :=
  outer.map fun column =>
    ((columnOf inner last column.1).1, column.2 * (columnOf inner last column.1).2)

/-- `follow` leads where the inner matrix leads from where the outer one does. -/
private theorem columnOf_follow (outer inner : List (Nat × Double)) (last i : Nat) :
    columnOf (follow outer inner last) last i =
      ((columnOf inner last (columnOf outer inner.length i).1).1,
        (columnOf outer inner.length i).2 * (columnOf inner last (columnOf outer inner.length i).1).2) := by
  have hone : (1 * 1 : Double) = 1 := by decide +kernel
  simp only [columnOf, follow, List.getElem?_map]
  cases outer[i]? with
  | none => simp [hone]
  | some column => simp

/-- A factor times an element, added to zero, as a choice between two. -/
private theorem zero_add_mul_ite {f g : Double} (hf : f = 1 ∨ f = -1) (hg : g = 1 ∨ g = -1)
    (p : Prop) [Decidable p] : 0 + f * (if p then g else 0) = if p then f * g else 0 := by
  obtain rfl | rfl := hf <;> obtain rfl | rfl := hg <;> split <;> decide +kernel

/-- The `product` of matrices that exchange axes follows the axes. -/
theorem product (houter : Signed outer) (hinner : Signed inner)
    (hfit : ∀ column ∈ outer, column.1 < inner.length) :
    (ofColumns outer inner.length).product (ofColumns inner last) =
      ofColumns (follow outer inner last) last := by
  have hsize : (follow outer inner last).length = outer.length := List.length_map _
  refine Matrix.ext_entry (by simp [Matrix.product, ofColumns, hsize]) rfl fun i j hi hj => ?_
  replace hi : i < outer.length + 1 := hi
  replace hj : j < last + 1 := hj
  have hrow := row_ofColumns hfit hi
  have hlt := columnOf_lt hfit i
  have hf := columnOf_of_signed houter inner.length i
  have hfollow := columnOf_follow outer inner last i
  generalize columnOf outer inner.length i = column at hrow hlt hf hfollow
  obtain ⟨c, f⟩ := column
  have hg := columnOf_of_signed hinner last c
  -- All terms of the sum are products of zeros, ones and minus ones, so it is exact.
  have hfmem : f ∈ unitElements := List.mem_cons_of_mem _ (by simpa using hf)
  have hentry : ((ofColumns outer inner.length).product (ofColumns inner last)).entry i j =
      Matrix.sumRange (inner.length + 1) fun k =>
        (ofColumns outer inner.length).entry i k * (ofColumns inner last).entry k j :=
    Matrix.entry_ofFn hi hj
  rw [hentry, hrow]
  dsimp only
  rw [sumRange_select hfmem (fun k => entry_mem_unitElements hinner last k j), if_pos hlt,
    entry_ofColumns hlt hj, zero_add_mul_ite hf hg, entry_ofColumns (by omega) hj, hfollow]

end AxisMatrix

/-! ## The laws of exchanging axes -/

namespace CoordinateSystem

open AxisMatrix

variable {r : Registry} {a b c : CoordinateSystem}

/-- The matrix is the one of the source axes and factors, which exist for all target axes. -/
theorem swapAxes_eq_ok_iff {α : Type} [Zero α] [One α] [Neg α] {m : Matrix α} :
    a.swapAxes b = .ok m ↔ ∃ columns,
      List.Forall₂ (fun axis column => a.columnFor axis = .ok column) b.axes columns ∧
        m = ofColumns columns a.dimension := by
  -- With columns for all target axes the matrix is made of them.
  have hmatrix {columns : List (Nat × α)}
      (h : List.Forall₂ (fun axis column => a.columnFor axis = .ok column) b.axes columns) :
      a.swapAxes b = .ok (ofColumns columns a.dimension) := by
    rw [swapAxes, List.mapM_eq_ok_iff.mpr h]
    refine congrArg Except.ok ?_
    rw [ofColumns, dimension, h.length_eq]
    congr 1
    funext i j
    rw [columnOf]
    cases columns[i]? <;> rfl
  constructor
  · intro h
    cases hcolumns : b.axes.mapM (a.columnFor (α := α)) with
    | error e =>
      rw [swapAxes, hcolumns] at h
      cases h
    | ok columns =>
      have hall := List.mapM_eq_ok_iff.mp hcolumns
      rw [hmatrix hall] at h
      exact ⟨columns, hall, (Except.ok.inj h).symm⟩
  · rintro ⟨columns, hall, rfl⟩
    exact hmatrix hall

/-- The factors that `columnFor` gives are signs, and the columns lie in the matrix. -/
theorem signed_of_columns {columns : List (Nat × Double)}
    (h : List.Forall₂ (fun axis column => a.columnFor axis = .ok column) b.axes columns) :
    Signed columns ∧ ∀ column ∈ columns, column.1 < a.dimension := by
  have hcolumn {column : Nat × Double} (hmem : column ∈ columns) :
      ∃ axis, a.columnFor axis = .ok column := by
    obtain ⟨axis, -, haxis⟩ := h.flip.exists_of_mem_left hmem
    exact ⟨axis, haxis⟩
  constructor
  · rintro ⟨i, f⟩ hmem
    obtain ⟨axis, haxis⟩ := hcolumn hmem
    obtain ⟨x, -, -, rfl⟩ := of_columnFor_eq_ok haxis
    unfold factorBetween
    split
    · exact .inl rfl
    · exact .inr rfl
  · rintro ⟨i, f⟩ hmem
    obtain ⟨axis, haxis⟩ := hcolumn hmem
    obtain ⟨x, hx, -, -⟩ := of_columnFor_eq_ok haxis
    exact (List.getElem?_eq_some_iff.mp hx).1

/-- `follow` leaves a system in between out. -/
theorem columnFor_follow (hfree : a.Independent) (hr : r.Grown) (ha : a.KnownTo r)
    (hc : c.KnownTo r) {outer inner : List (Nat × Double)}
    (hinner : List.Forall₂ (fun axis column => a.columnFor axis = .ok column) b.axes inner)
    (houter : List.Forall₂ (fun axis column => b.columnFor axis = .ok column) c.axes outer) :
    List.Forall₂ (fun axis column => a.columnFor axis = .ok column) c.axes
      (follow outer inner a.dimension) := by
  unfold follow
  rw [List.forall₂_map_right_iff]
  refine (houter.flip_of_mem fun x hx column hcolumn => ?_).flip
  obtain ⟨k, f⟩ := column
  obtain ⟨y, hy, -, -⟩ := of_columnFor_eq_ok hcolumn
  -- The axis in between has a column of its own.
  obtain ⟨hk, hknear⟩ := List.getElem?_eq_some_iff.mp hy
  have hk' : k < inner.length := hinner.length_eq ▸ hk
  have hnear : a.columnFor y = .ok inner[k] := by
    rw [← hknear]
    exact (List.forall₂_iff_get.mp hinner).2 k hk hk'
  have hbetween : columnOf inner a.dimension k = inner[k] := by
    rw [columnOf, List.getElem?_eq_getElem hk', Option.getD_some]
  show a.columnFor x =
    .ok ((columnOf inner a.dimension k).1, f * (columnOf inner a.dimension k).2)
  rw [hbetween]
  exact columnFor_comp hfree hr ha (hc x hx) hy hcolumn hnear

/-- `swapAxes` of a system with itself is the identity. -/
theorem swapAxes_self (hfree : a.Independent) (hr : r.Grown) (ha : a.KnownTo r) :
    a.swapAxes a = .ok (Matrix.eye (a.dimension + 1) (a.dimension + 1) : Matrix Double) := by
  refine swapAxes_eq_ok_iff.mpr ⟨(List.range a.dimension).map fun i => (i, 1), ?_, ?_⟩
  · refine List.forall₂_iff_get.mpr ⟨by simp [dimension], fun i hi hi' => ?_⟩
    have hx : a.axes[i]? = some a.axes[i] := List.getElem?_eq_getElem hi
    have hknown := ha _ (List.getElem_mem hi)
    have hcolumn := hfree.columnFor_eq_ok (α := Double) hr ha hknown hx (.inl rfl)
    rw [factorBetween, if_pos rfl] at hcolumn
    simpa using hcolumn
  · -- Each axis is its own source axis, so each row has its one on the diagonal.
    have hcolumn {i : Nat} (hi : i < a.dimension + 1) :
        columnOf ((List.range a.dimension).map fun i => (i, (1 : Double))) a.dimension i = (i, 1) := by
      rw [columnOf, List.getElem?_map]
      obtain hlt | rfl := Nat.lt_succ_iff_lt_or_eq.mp hi
      · rw [List.getElem?_range hlt]
        rfl
      · rw [List.getElem?_eq_none (by simp)]
        rfl
    refine Matrix.ext_entry (by simp [ofColumns]) rfl fun i j hi hj => ?_
    replace hi : i < a.dimension + 1 := hi
    replace hj : j < a.dimension + 1 := hj
    rw [Matrix.entry_eye hi hj, entry_ofColumns (by simpa using hi) hj, hcolumn hi]
    simp only [eq_comm]

/-- `swapAxes` through a system in between gives the direct exchange. -/
theorem swapAxes_comp (hfree : a.Independent) (hr : r.Grown) (ha : a.KnownTo r)
    (hc : c.KnownTo r) {m n : Matrix Double} (hm : a.swapAxes b = .ok m) (hn : b.swapAxes c = .ok n) :
    ∃ p, n.multiply m = .ok p ∧ a.swapAxes c = .ok p := by
  obtain ⟨inner, hinner, rfl⟩ := swapAxes_eq_ok_iff.mp hm
  obtain ⟨outer, houter, rfl⟩ := swapAxes_eq_ok_iff.mp hn
  obtain ⟨hsigned, -⟩ := signed_of_columns hinner
  obtain ⟨hsigned', hfit⟩ := signed_of_columns houter
  have hlength : b.dimension = inner.length := hinner.length_eq
  rw [hlength] at hfit ⊢
  refine ⟨ofColumns (follow outer inner a.dimension) a.dimension, ?_, ?_⟩
  · rw [← product hsigned' hsigned hfit]
    exact if_pos rfl
  · exact swapAxes_eq_ok_iff.mpr ⟨_, columnFor_follow hfree hr ha hc hinner houter, rfl⟩

/-- An exchange of independent axes with themselves is the identity, exchanges that follow each other compose
    by the product of their matrices, and so an exchange there and back is the identity. -/
theorem swapAxes_functorial (hr : r.Grown) (ha : a.KnownTo r) (hfree : a.Independent)
    (hc : c.KnownTo r) :
    a.swapAxes a = .ok (Matrix.eye (a.dimension + 1) (a.dimension + 1) : Matrix Double) ∧
      (∀ m n : Matrix Double, a.swapAxes b = .ok m → b.swapAxes c = .ok n →
        ∃ p, n.multiply m = .ok p ∧ a.swapAxes c = .ok p) ∧
      (∀ m n : Matrix Double, a.swapAxes b = .ok m → b.swapAxes a = .ok n →
        n.multiply m = .ok (Matrix.eye (a.dimension + 1) (a.dimension + 1))) := by
  have hself := swapAxes_self hfree hr ha
  refine ⟨hself, fun m n hm hn => swapAxes_comp hfree hr ha hc hm hn, fun m n hm hn => ?_⟩
  obtain ⟨p, hproduct, hp⟩ := swapAxes_comp hfree hr ha ha hm hn
  rw [hproduct, Except.ok.inj (hp.symm.trans hself)]

/-- Two exchanges through a system that has a direction, its opposite and a direction along a meridian. -/
theorem swapAxes_functorial_antonyms :
    ∃ a b c : CoordinateSystem,
      a.axes.map Axis.direction = [.east, .north, ⟨"North along 15°E", 32⟩] ∧
      b.axes.map Axis.direction = [.south, ⟨"North along 15°E", 32⟩, .north, .west] ∧
      c.axes.map Axis.direction = [.south, .east] ∧
      a.swapAxes a = .ok (Matrix.eye 4 4 : Matrix Double) ∧
      ∃ m n p back : Matrix Double, a.swapAxes b = .ok m ∧ b.swapAxes c = .ok n ∧
        n.multiply m = .ok p ∧ a.swapAxes c = .ok p ∧
        p = .ofRows 3 4 [[0, -1, 0, 0], [1, 0, 0, 0], [0, 0, 0, 1]] ∧
        b.swapAxes a = .ok back ∧ back.multiply m = .ok (Matrix.eye 4 4) := by
  let r : Registry := (Registry.standard.intern "North along 15°E").2
  let custom : Direction := ⟨"North along 15°E", 32⟩
  let a : CoordinateSystem := ⟨"a", [.east, .north, custom].map Axis.ofDirection, by simp⟩
  let b : CoordinateSystem := ⟨"b", [.south, custom, .north, .west].map Axis.ofDirection, by simp⟩
  let c : CoordinateSystem := ⟨"c", [.south, .east].map Axis.ofDirection, by simp⟩
  have hr : r.Grown := .intern .standard _
  have ha : a.KnownTo r := by decide +kernel
  have hc : c.KnownTo r := by decide +kernel
  have hfree : a.Independent := by decide +kernel
  have hm : a.swapAxes b = .ok (.ofRows 5 4
      [[0, -1, 0, 0], [0, 0, 1, 0], [0, 1, 0, 0], [-1, 0, 0, 0], [0, 0, 0, (1 : Double)]]) := by decide +kernel
  have hn : b.swapAxes c = .ok (.ofRows 3 5
      [[1, 0, 0, 0, 0], [0, 0, 0, -1, 0], [0, 0, 0, 0, (1 : Double)]]) := by decide +kernel
  have hback : b.swapAxes a = .ok (.ofRows 4 5
      [[0, 0, 0, -1, 0], [0, 0, 1, 0, 0], [0, 1, 0, 0, 0], [0, 0, 0, 0, (1 : Double)]]) := by decide +kernel
  have hdirect : a.swapAxes c = .ok (.ofRows 3 4
      [[0, -1, 0, 0], [1, 0, 0, 0], [0, 0, 0, (1 : Double)]]) := by decide +kernel
  obtain ⟨hself, hcomp, hround⟩ := swapAxes_functorial (b := b) hr ha hfree hc
  obtain ⟨p, hproduct, hp⟩ := hcomp _ _ hm hn
  refine ⟨a, b, c, rfl, rfl, rfl, hself, _, _, p, _, hm, hn, hproduct, hp, ?_, hback, hround _ _ hm hback⟩
  exact Except.ok.inj (hp.symm.trans hdirect)

end CoordinateSystem

end Georef

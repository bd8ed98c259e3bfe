import Georef.Proofs.Matrix.Checks
import Georef.Proofs.Matrix.ExactUnits

/-!
# Elimination of affine systems

The last equation of an affine system with the identity on its right sides gives the last unknown: its coefficients
and its values are zeros up to a one at their ends. A zero is never the largest coefficient of a column, so this
equation stays where it is, and the multiple of a pivot equation that is taken away from it is zero. So nothing of it
changes until it is the only one left, and the last row of the solution is made of zeros and a one, whatever was
rounded in all the others.

## Key results

- `exchangePivot_append`: an equation that starts with a zero is not exchanged
- `LastUnit.reduce`: nothing is taken away from the last equation
- `eliminate_lastUnit`: what elimination finds for the last unknown
-/

namespace Georef

namespace Equation

variable {α : Type} [Zero α] [One α]

/-- Zeros and a one at the end. -/
def unitList (n : Nat) : List α := List.replicate n 0 ++ [1]

@[simp] theorem unitList_zero : (unitList 0 : List α) = [1] := rfl

@[simp] theorem unitList_succ (n : Nat) : (unitList (n + 1) : List α) = 0 :: unitList n := rfl

@[simp] theorem length_unitList (n : Nat) : (unitList n : List α).length = n + 1 := by simp [unitList]

/-- A `unitList` has zeros and ones only. -/
theorem of_mem_unitList {n : Nat} {x : α} (h : x ∈ unitList n) : x = 0 ∨ x = 1 := by
  simp only [unitList, List.mem_append, List.mem_replicate, List.mem_singleton] at h
  exact h.imp And.right id

/-- The one of a `unitList` is at its end. -/
theorem getD_unitList {n j : Nat} (hj : j < n + 1) : (unitList n : List α).getD j 0 = if j = n then 1 else 0 := by
  induction n generalizing j with
  | zero =>
    obtain rfl : j = 0 := by omega
    rfl
  | succ n ih =>
    cases j with
    | zero => simp
    | succ j => simpa using ih (show j < n + 1 by omega)

/-! ## Sizes -/

section Sizes

variable [Sub α] [Mul α] [Div α]

/-- The equation has a coefficient for each of the unknowns and a value for each of the right sides. -/
structure Fits (unknowns sides : Nat) (e : Equation α) : Prop where
  coefficients : e.coefficients.length = unknowns
  values : e.values.length = sides

omit [Zero α] [One α] [Div α] in
/-- `subtractMultiple` stops at the end of the shorter list. -/
@[simp] theorem length_subtractMultiple_min (factor : α) (u v : List α) :
    (subtractMultiple factor u v).length = min u.length v.length := by
  simp [subtractMultiple]

/-- `reduce` takes an unknown out of the equation. -/
theorem Fits.reduce {n r : Nat} {pivot e : Equation α} (hpivot : Fits (n + 1) r pivot) (he : Fits (n + 1) r e) :
    Fits n r (reduce pivot e) where
  coefficients := by simp [Equation.reduce, hpivot.coefficients, he.coefficients]
  values := by simp [Equation.reduce, hpivot.values, he.values]

end Sizes

/-! ## Exchanging pivots -/

section Exchange

variable [Solver α]

omit [One α] in
/-- The search of `pivotPlace` ends at its best place so far or at an equation that is left. -/
theorem pivotPlace_bounds (best : α) (place next : Nat) (es : List (Equation α)) :
    pivotPlace best place next es = place ∨
      next ≤ pivotPlace best place next es ∧ pivotPlace best place next es < next + es.length := by
  induction es generalizing best place next with
  | nil => exact .inl rfl
  | cons e es ih =>
    rw [pivotPlace, List.length_cons]
    split
    · obtain h | h := ih e.leading next (next + 1)
      · omega
      · omega
    · obtain h | h := ih best place (next + 1)
      · exact .inl h
      · omega

omit [One α] in
/-- The pivot of `exchangePivot` and the equations that are left are among the equations. -/
theorem mem_of_exchangePivot {es rest : List (Equation α)} {pivot : Equation α}
    (h : exchangePivot es = some (pivot, rest)) :
    pivot ∈ es ∧ (∀ e ∈ rest, e ∈ es) ∧ rest.length + 1 = es.length := by
  cases es with
  | nil => cases h
  | cons first others =>
    rw [exchangePivot] at h
    split at h
    · cases h
      exact ⟨List.mem_cons_self, fun e he => List.mem_cons_of_mem _ he, rfl⟩
    · -- The first equation has taken the place of the pivot.
      rename_i place _
      obtain ⟨other, hother, heq⟩ := Option.map_eq_some_iff.mp h
      cases heq
      refine ⟨List.mem_cons_of_mem _ (List.mem_of_getElem? hother), fun e he => ?_, by simp⟩
      obtain he | rfl := List.mem_or_eq_of_mem_set he
      · exact List.mem_cons_of_mem _ he
      · exact List.mem_cons_self

end Exchange

/-! ## The last equation -/

section Last

variable [BEq α] {n r : Nat} {last : Equation α}

/-- The equation gives the last unknown: it is one on the last right side, and zero on all others. -/
structure LastUnit (before sides : Nat) (e : Equation α) : Prop where
  coefficients : List.Forall₂ (fun x y => (x == y) = true) e.coefficients (unitList before)
  values : e.values = unitList sides

/-- As long as there are other unknowns, a `LastUnit` equation starts with a zero. -/
theorem LastUnit.leading (h : LastUnit (n + 1) r last) : (last.leading == 0) = true := by
  obtain ⟨coefficients, values⟩ := last
  obtain ⟨hcoefficients, -⟩ := h
  cases hcoefficients with
  | cons hx _ => exact hx

/-- The numbers of an equation that is kept are finite, and so is the reciprocal of its pivot. -/
structure FinitePivot [Div α] [Solver α] (pivot : Equation α) : Prop where
  reciprocal : Solver.finite (1 / pivot.leading) = true
  coefficients : ∀ x ∈ pivot.coefficients, Solver.finite x = true
  values : ∀ x ∈ pivot.values, Solver.finite x = true

/-- All equations that elimination keeps have finite numbers. -/
def FinitePivots [Sub α] [Mul α] [Div α] [Solver α] : Nat → List (Equation α) → Prop
  | 0, _ => True
  | n + 1, es => ∀ pivot rest, exchangePivot es = some (pivot, rest) →
      FinitePivot pivot ∧ FinitePivots n (rest.map (reduce pivot))

end Last

variable [Add α] [Sub α] [Mul α] [Div α] [BEq α] [Solver α] [ExactUnits α]

/-- A zero does not change where the search of `pivotPlace` ends. -/
theorem pivotPlace_append {last : Equation α} (hlast : (last.leading == 0) = true) (best : α) (place next : Nat)
    (es : List (Equation α)) : pivotPlace best place next (es ++ [last]) = pivotPlace best place next es := by
  induction es generalizing best place next with
  | nil =>
    have hsmaller : Solver.smaller best last.leading = false := ExactUnits.not_smaller_zero hlast
    simp [pivotPlace, hsmaller]
  | cons e es ih =>
    rw [List.cons_append, pivotPlace, pivotPlace]
    split
    · exact ih _ _ _
    · exact ih _ _ _

/-- An equation at the end that starts with a zero stays there when `exchangePivot` exchanges the
    pivot. -/
theorem exchangePivot_append {last : Equation α} (hlast : (last.leading == 0) = true) {es : List (Equation α)}
    (hne : es ≠ []) :
    exchangePivot (es ++ [last]) = (exchangePivot es).map fun (pivot, rest) => (pivot, rest ++ [last]) := by
  obtain ⟨first, others, rfl⟩ := List.exists_cons_of_ne_nil hne
  have hbounds := pivotPlace_bounds first.leading 0 1 others
  rw [List.cons_append, exchangePivot, exchangePivot, pivotPlace_append hlast]
  generalize pivotPlace first.leading 0 1 others = place at hbounds
  cases place with
  | zero => rfl
  | succ place =>
    have hplace : place < others.length := by omega
    simp [List.getElem?_append_left hplace, hplace]

/-- Nothing is taken away with a multiple of zero, as comparison sees it. -/
theorem forall₂_subtractMultiple_of_zero {factor : α} {u v w : List α} (hfactor : (factor == 0) = true)
    (hlength : v.length = u.length) (hv : ∀ y ∈ v, Solver.finite y = true) (hw : ∀ y ∈ w, Solver.finite y = true)
    (h : List.Forall₂ (fun x y => (x == y) = true) u w) :
    List.Forall₂ (fun x y => (x == y) = true) (subtractMultiple factor u v) w := by
  induction h generalizing v with
  | nil => exact .nil
  | @cons x y u w hxy _ ih =>
    obtain ⟨z, v, rfl⟩ := List.exists_cons_of_length_eq_add_one hlength
    obtain ⟨hz, hv⟩ := List.forall_mem_cons.mp hv
    obtain ⟨hy, hw⟩ := List.forall_mem_cons.mp hw
    have hx := ExactUnits.finite_of_beq (PartialEquivBEq.symm hxy) hy
    have hproduct := ExactUnits.zero_mul hfactor hz
    exact .cons (PartialEquivBEq.trans (ExactUnits.sub_zero hx hproduct) hxy) (ih (Nat.succ.inj hlength) hv hw)

/-- Zeros and ones are left as they are by a multiple of zero, not only as comparison sees it. -/
theorem subtractMultiple_of_units {factor : α} {u v : List α} (hfactor : (factor == 0) = true)
    (hlength : v.length = u.length) (hv : ∀ y ∈ v, Solver.finite y = true) (hu : ∀ x ∈ u, x = 0 ∨ x = 1) :
    subtractMultiple factor u v = u := by
  induction u generalizing v with
  | nil => rfl
  | cons x u ih =>
    obtain ⟨y, v, rfl⟩ := List.exists_cons_of_length_eq_add_one hlength
    obtain ⟨hy, hv⟩ := List.forall_mem_cons.mp hv
    obtain ⟨hx, hu⟩ := List.forall_mem_cons.mp hu
    have hrest := ih (Nat.succ.inj hlength) hv hu
    rw [subtractMultiple] at hrest ⊢
    rw [List.zipWith_cons_cons, hrest, ExactUnits.unit_sub_zero hx (ExactUnits.zero_mul hfactor hy)]

/-- The elements of `unitList` are finite. -/
theorem finite_of_mem_unitList {n : Nat} {x : α} (h : x ∈ unitList n) : Solver.finite x = true := by
  obtain rfl | rfl := of_mem_unitList h
  · exact ExactUnits.finite_zero
  · exact ExactUnits.finite_one

section Run

variable {n r : Nat} {last pivot : Equation α}

/-- `reduce` takes nothing away from a `LastUnit` equation. -/
theorem LastUnit.reduce (h : LastUnit (n + 1) r last) (hpivot : Fits (n + 2) (r + 1) pivot)
    (hfinite : FinitePivot pivot) : LastUnit n r (reduce pivot last) := by
  have hfactor := ExactUnits.zero_mul h.leading hfinite.reciprocal
  obtain ⟨coefficients, values⟩ := last
  obtain ⟨hcoefficients, rfl⟩ := h
  cases hcoefficients with
  | @cons z _ rest _ hz hrest =>
    have hrest : List.Forall₂ (fun x y => (x == y) = true) rest (unitList n) := hrest
    have hlength : rest.length = n + 1 := by rw [hrest.length_eq, length_unitList]
    constructor
    · refine forall₂_subtractMultiple_of_zero hfactor ?_ ?_ (fun _ => finite_of_mem_unitList) hrest
      · simp [hpivot.coefficients, hlength]
      · exact fun y hy => hfinite.coefficients y (List.mem_of_mem_tail hy)
    · refine subtractMultiple_of_units hfactor ?_ hfinite.values fun _ => of_mem_unitList
      rw [hpivot.values, length_unitList]

/-- `unitList` divided by one stays the same. -/
theorem divideValues_unitList {unit : α} (hunit : (unit == 1) = true) (r : Nat) :
    divideValues unit (unitList r) = unitList r := by
  have hreciprocal := ExactUnits.one_div_one hunit
  cases r with
  | zero => simp [divideValues, hreciprocal]
  | succ r =>
    have hmap : (unitList (r + 1) : List α).map (· * (1 / unit)) = unitList (r + 1) := by
      rw [hreciprocal]
      exact List.map_congr_left (fun x hx => ExactUnits.unit_mul_one (of_mem_unitList hx)) |>.trans (List.map_id _)
    cases r with
    | zero => exact hmap
    | succ r => exact hmap

omit [Add α] [ExactUnits α] in
/-- What `eliminate` does first if it succeeds. -/
theorem exists_of_eliminate_succ {es : List (Equation α)} {solution : List (List α)}
    (h : eliminate (n + 1) es = .ok solution) :
    ∃ pivot rest others, exchangePivot es = some (pivot, rest) ∧ Solver.hasReciprocal pivot.leading = true ∧
      eliminate n (rest.map (reduce pivot)) = .ok others ∧ solution = resolve pivot others :: others := by
  rw [eliminate] at h
  -- Every way to fail is excluded in the order of the checks.
  cases hexchange : exchangePivot es with
  | none =>
    rw [hexchange] at h
    cases h
  | some kept =>
    obtain ⟨pivot, rest⟩ := kept
    simp only [hexchange] at h
    split at h
    · cases h
    split at h
    · cases h
    rename_i hreciprocal
    rw [Bool.not_eq_true', Bool.not_eq_false] at hreciprocal
    cases hrest : eliminate n (rest.map (Equation.reduce pivot)) with
    | error fault =>
      rw [hrest] at h
      cases h
    | ok others =>
      rw [hrest] at h
      cases h
      exact ⟨pivot, rest, others, rfl, hreciprocal, hrest, rfl⟩

/-- `eliminate` finds zeros and a one for the last unknown. -/
theorem eliminate_lastUnit {init : List (Equation α)} {solution : List (List α)} (hlength : init.length = n)
    (hfits : ∀ e ∈ init, Fits (n + 1) (r + 1) e) (hlast : LastUnit n r last)
    (hfinite : FinitePivots (n + 1) (init ++ [last])) (h : eliminate (n + 1) (init ++ [last]) = .ok solution) :
    ∃ front, solution = front ++ [unitList r] ∧ front.length = n := by
  induction n generalizing init last solution with
  | zero =>
    obtain ⟨pivot, rest, others, hexchange, -, hothers, rfl⟩ := exists_of_eliminate_succ h
    obtain rfl := List.length_eq_zero_iff.mp hlength
    -- Only the last equation is left, and its only coefficient is a one.
    obtain ⟨rfl, rfl⟩ : last = pivot ∧ [] = rest := by simpa [exchangePivot, pivotPlace] using hexchange
    obtain rfl : [] = others := by simpa [eliminate] using hothers
    obtain ⟨coefficients, values⟩ := last
    obtain ⟨hcoefficients, rfl⟩ := hlast
    cases hcoefficients with
    | cons hunit hnil =>
      cases hnil
      refine ⟨[], ?_, rfl⟩
      simpa [resolve, leading] using divideValues_unitList hunit r
  | succ n ih =>
    have hne : init ≠ [] := by
      rintro rfl
      cases hlength
    obtain ⟨pivot, rest, others, hexchange, -, hothers, rfl⟩ := exists_of_eliminate_succ h
    obtain ⟨hpivot, hrest⟩ := hfinite pivot rest hexchange
    -- The pivot is another equation, and the last one is still at the end.
    rw [exchangePivot_append hlast.leading hne] at hexchange
    obtain ⟨⟨pivot', before⟩, hbefore, heq⟩ := Option.map_eq_some_iff.mp hexchange
    obtain ⟨rfl, rfl⟩ : pivot' = pivot ∧ before ++ [last] = rest := by simpa using heq
    obtain ⟨hmem, hsub, hcount⟩ := mem_of_exchangePivot hbefore
    rw [List.map_append, List.map_singleton] at hothers hrest
    have hfits' : ∀ e ∈ before.map (Equation.reduce pivot'), Fits (n + 1) (r + 1) e := by
      intro reduced hreduced
      obtain ⟨e, he, rfl⟩ := List.mem_map.mp hreduced
      exact (hfits _ hmem).reduce (hfits _ (hsub e he))
    -- Nothing was taken away from it, so the rest finds zeros and a one.
    obtain ⟨front, rfl, hfront⟩ := ih (by simp; omega) hfits' (hlast.reduce (hfits _ hmem) hpivot) hrest hothers
    exact ⟨resolve pivot' (front ++ [unitList r]) :: front, rfl, by simp [hfront]⟩

end Run

end Equation

namespace Matrix

open Equation

variable {α : Type} [Zero α] [One α]

/-- The matrix is square, and its last row consists of zeros and a one at the end. Here these are the very numbers,
not only numbers that compare equal. -/
structure EndsInUnitRow (m : Matrix α) : Prop where
  pos : 0 < m.rows
  square : m.rows = m.cols
  entry : ∀ j < m.cols, m.entry (m.rows - 1) j = if j = m.rows - 1 then 1 else 0

/-- A matrix that ends in a `unitList` is affine. -/
theorem EndsInUnitRow.isAffine [BEq α] [UnitsApart α] {m : Matrix α} (h : m.EndsInUnitRow) : m.isAffine = true := by
  refine isAffine_iff_unitRow.mpr ⟨h.pos, h.square, fun j hj => ?_⟩
  rw [h.entry j hj]
  split
  · exact UnitsApart.one_beq_one
  · exact UnitsApart.zero_beq_zero

/-- A `unitList` by its places. -/
theorem unitList_eq_map (n : Nat) :
    (unitList n : List α) = (List.range (n + 1)).map fun j => if j = n then 1 else 0 := by
  refine List.ext_getElem (by simp) fun j hj _ => ?_
  rw [length_unitList] at hj
  have hentry := getD_unitList (α := α) hj
  simpa [hj] using hentry

/-- The last row of an identity is a `unitList`. -/
theorem row_eye_last (n : Nat) : (eye (n + 1) (n + 1) : Matrix α).row n = unitList n := by
  rw [unitList_eq_map, row]
  refine List.map_congr_left fun j hj => ?_
  have hj : j < n + 1 := List.mem_range.mp hj
  rw [entry_eye (Nat.lt_succ_self n) hj]
  exact if_congr eq_comm rfl rfl

/-- A matrix given by its rows, of which the last one consists of zeros and a one. -/
theorem endsInUnitRow_ofRows {n : Nat} {front : List (List α)} (hlength : front.length = n) :
    (ofRows (n + 1) (n + 1) (front ++ [unitList n])).EndsInUnitRow where
  pos := Nat.succ_pos n
  square := rfl
  entry j hj := by
    have hj : j < n + 1 := hj
    rw [rows_ofRows, Nat.add_sub_cancel, entry_ofRows (Nat.lt_succ_self n) hj]
    simpa [hlength] using getD_unitList hj

section Equations

variable [BEq α] {a : Matrix α}

/-- The last equation of an affine system is a `LastUnit`. -/
theorem lastUnit_row [UnitsApart α] {n : Nat} (ha : a.isAffine = true) (hrows : a.rows = n + 1) :
    LastUnit n n ⟨a.row n, (eye (n + 1) (n + 1)).row n⟩ := by
  obtain ⟨-, hsquare, hrow⟩ := isAffine_iff_unitRow.mp ha
  rw [hrows, Nat.add_sub_cancel] at hrow
  constructor
  · rw [unitList_eq_map, row, ← hsquare, hrows, List.forall₂_map_left_iff, List.forall₂_map_right_iff]
    exact List.forall₂_same.mpr fun j hj => hrow j (by simpa [← hsquare, hrows] using hj)
  · exact row_eye_last n

omit [BEq α] in
/-- The `equations` of an affine system, the last one apart. -/
theorem equations_eye {n : Nat} (hrows : a.rows = n + 1) :
    a.equations (eye (n + 1) (n + 1)) = ((List.range n).map fun i => ⟨a.row i, (eye (n + 1) (n + 1)).row i⟩) ++
      [⟨a.row n, (eye (n + 1) (n + 1)).row n⟩] := by
  rw [equations, hrows, List.range_succ, List.map_append, List.map_singleton]

end Equations

variable [Add α] [Sub α] [Mul α] [Div α] [BEq α] [Solver α] [ExactUnits α] {a : Matrix α}

/-- `eliminate` finds a last row of zeros and a one. -/
theorem endsInUnitRow_of_eliminate {solution : List (List α)} (ha : a.isAffine = true)
    (hfinite : FinitePivots a.cols (a.equations (eye a.rows a.rows)))
    (h : eliminate a.cols (a.equations (eye a.rows a.rows)) = .ok solution) :
    (ofRows a.cols a.rows solution).EndsInUnitRow := by
  obtain ⟨hpos, hsquare, -⟩ := isAffine_iff_unitRow.mp ha
  obtain ⟨n, hn⟩ := Nat.exists_eq_succ_of_ne_zero hpos.ne'
  have hlast := lastUnit_row ha hn
  rw [← hsquare, hn, Nat.succ_eq_add_one, equations_eye hn] at hfinite h
  rw [← hsquare, hn]
  have hfits : ∀ e ∈ (List.range n).map fun i => (⟨a.row i, (eye (n + 1) (n + 1)).row i⟩ : Equation α),
      Fits (n + 1) (n + 1) e := by
    intro e he
    obtain ⟨i, -, rfl⟩ := List.mem_map.mp he
    exact ⟨by simp [row, ← hsquare, hn], by simp [row]⟩
  obtain ⟨front, rfl, hfront⟩ := eliminate_lastUnit (by simp) hfits hlast hfinite h
  exact endsInUnitRow_ofRows hfront

end Matrix

end Georef

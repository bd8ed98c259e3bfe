import Georef.Proofs.Matrix.Elimination
import Georef.Proofs.Matrix.SignedZeros
import Mathlib.Tactic.IntervalCases

/-!
# Matrices of doubles that have an inverse

Whether a matrix of doubles has an inverse depends on rounded numbers. For two kinds of matrices elimination
comes through without rounding anything that matters: those whose rows are the rows of an identity in any
order, which it only has to find again, and those of the transforms of the line, where it leaves a one as the
second pivot whatever the scale and the offset are. So they have an inverse if their condition is judged to be good.

## Key results

- `Equation.exists_eliminate_unitRows`: elimination solves the equations of a permuted identity
- `Matrix.UnitRows.exists_inverse_of_perm`: so a permuted identity has an inverse
- `Matrix.UnitRows.exists_inverse_of_lt`: if some rows are repeated, there is a least-squares inverse
- `Matrix.exists_inverse_line_iff`: the matrix of a scale and an offset has one exactly if its numbers
  are finite, the scale is not zero and the condition number is not above the threshold
-/

namespace Georef

/-! ## Elimination of a permuted identity -/

namespace Equation

/-- Row `k` of an identity. -/
def unitRow (n k : Nat) : List Double := (List.range n).map fun j => if j = k then 1 else 0

/-- The first `unitRow` starts with its one. -/
theorem unitRow_zero (n : Nat) : unitRow (n + 1) 0 = 1 :: List.replicate n 0 := by
  rw [unitRow, List.range_succ_eq_map, List.map_cons, if_pos rfl, List.map_map]
  simp [Function.comp_def]

/-- Every other `unitRow` starts with a zero, and goes on as one of a smaller identity. -/
theorem unitRow_succ (n k : Nat) : unitRow (n + 1) (k + 1) = 0 :: unitRow n k := by
  rw [unitRow, List.range_succ_eq_map, List.map_cons, if_neg (Nat.succ_ne_zero k).symm, List.map_map]
  simp [unitRow, Function.comp_def]

variable {e pivot : Equation Double}

/-- `reduce` by the row that starts with a one takes nothing from the others. -/
theorem reduce_unitRow {n k : Nat} (hpivot : pivot.coefficients = unitRow (n + 1) 0)
    (he : e.coefficients = unitRow (n + 1) (k + 1)) : (reduce pivot e).coefficients = unitRow n k := by
  have hproduct : (0 : Double) * (1 / 1) * 0 = 0 := by
    rw [Double.one_div_one, Double.zero_mul_one, Double.zero_mul_zero]
  have hleading : pivot.leading = 1 := by rw [leading, hpivot, unitRow_zero]; rfl
  have hleading' : e.leading = 0 := by rw [leading, he, unitRow_succ]; rfl
  show subtractMultiple (e.leading * (1 / pivot.leading)) e.coefficients.tail pivot.coefficients.tail = _
  rw [hleading, hleading', he, hpivot, unitRow_zero, unitRow_succ, List.tail_cons, List.tail_cons,
    subtractMultiple]
  refine List.ext_getElem (by simp [unitRow]) fun j hj hj' => ?_
  simp only [unitRow, List.getElem_zipWith, List.getElem_map, List.getElem_range, List.getElem_replicate]
  rw [hproduct]
  split
  · exact Double.one_sub_signedZero false
  · exact Double.zero_sub_signedZero false

variable [Solver Double] [Solver.DoublePivots]

/-- Among the rows of an identity in some order, `exchangePivot` finds the one that starts with a
    one. -/
theorem exists_exchangePivot_unitRows {n : Nat} {es : List (Equation Double)}
    (h : (es.map coefficients).Perm ((List.range (n + 1)).map (unitRow (n + 1)))) :
    ∃ pivot rest, exchangePivot es = some (pivot, rest) ∧ pivot.coefficients = unitRow (n + 1) 0 ∧
      (rest.map coefficients).Perm ((List.range n).map fun k => unitRow (n + 1) (k + 1)) := by
  rw [List.range_succ_eq_map, List.map_cons, List.map_map] at h
  have hrows (e : Equation Double) (he : e ∈ es) :
      e.coefficients = unitRow (n + 1) 0 ∨ ∃ k, e.coefficients = unitRow (n + 1) (k + 1) := by
    obtain hhead | htail := List.mem_cons.mp (h.subset (List.mem_map_of_mem he))
    · exact .inl hhead
    · obtain ⟨k, -, hk⟩ := List.mem_map.mp htail
      exact .inr ⟨k, hk.symm⟩
  obtain ⟨first, hfirst, hone⟩ := List.mem_map.mp (h.symm.subset List.mem_cons_self)
  have hfinite (e : Equation Double) (he : e ∈ es) : e.leading.Finite := by
    obtain hrow | ⟨k, hrow⟩ := hrows e he
    · rw [leading, hrow, unitRow_zero]; rfl
    · rw [leading, hrow, unitRow_succ]; rfl
  obtain ⟨pivot, rest, hexchange, hperm, hlargest⟩ :=
    exists_exchangePivot_of_size Double.smaller_iff (List.ne_nil_of_mem hfirst) hfinite
  -- Any other row leads with a zero, which is smaller than the one.
  have hpivot : pivot.coefficients = unitRow (n + 1) 0 := by
    obtain hrow | ⟨k, hrow⟩ := hrows pivot (hperm.subset List.mem_cons_self)
    · exact hrow
    · have hle := hlargest first hfirst
      rw [leading, leading, hone, hrow, unitRow_zero, unitRow_succ, List.headD_cons, List.headD_cons] at hle
      exact absurd hle (by decide)
  have hcons := (hperm.map coefficients).trans h
  rw [List.map_cons, hpivot] at hcons
  exact ⟨pivot, rest, hexchange, hpivot, hcons.cons_inv⟩

/-- `eliminate` solves equations whose coefficients are the rows of an identity in some order. -/
theorem exists_eliminate_unitRows {n : Nat} {es : List (Equation Double)}
    (h : (es.map coefficients).Perm ((List.range n).map (unitRow n))) :
    ∃ solution, eliminate n es = .ok solution := by
  induction n generalizing es with
  | zero => exact ⟨[], rfl⟩
  | succ n ih =>
    obtain ⟨pivot, rest, hexchange, hpivot, hrest⟩ := exists_exchangePivot_unitRows h
    have hleading : pivot.leading = 1 := by rw [leading, hpivot, unitRow_zero]; rfl
    -- What is left are the rows of a smaller identity.
    have hreduced : (rest.map (reduce pivot)).map coefficients = (rest.map coefficients).map List.tail := by
      rw [List.map_map, List.map_map]
      refine List.map_congr_left fun e he => ?_
      obtain ⟨k, -, hk⟩ := List.mem_map.mp (hrest.subset (List.mem_map_of_mem he))
      show (reduce pivot e).coefficients = e.coefficients.tail
      rw [reduce_unitRow hpivot hk.symm, ← hk, unitRow_succ, List.tail_cons]
    have hrest' : ((rest.map (reduce pivot)).map coefficients).Perm ((List.range n).map (unitRow n)) := by
      have htails : ((List.range n).map fun k => unitRow (n + 1) (k + 1)).map List.tail =
          (List.range n).map (unitRow n) := by
        simp [Function.comp_def, unitRow_succ]
      rw [hreduced, ← htails]
      exact hrest.map List.tail
    obtain ⟨solution, hsolution⟩ := ih hrest'
    have hnonzero : ((1 : Double) == 0) = false := by decide
    have hnormal : Solver.hasReciprocal (1 : Double) = true := by
      rw [Solver.DoublePivots.hasReciprocal_eq]
      decide
    refine ⟨resolve pivot solution :: solution, ?_⟩
    rw [eliminate, hexchange]
    simp only [hleading, hnonzero, hnormal, hsolution]
    rfl

end Equation

namespace Matrix

/-- `eye` has the rows of an identity in their own order. -/
theorem unitRows_eye (n : Nat) : UnitRows (eye n n) (List.range n) where
  rows_eq := List.length_range.symm
  entry i j hi (hj : j < n) := by
    rw [List.length_range] at hi
    rw [entry_eye hi hj, List.getElem?_range hi]
    simp only [Option.some_inj]

namespace UnitRows

variable {m : Matrix Double} {order : List Nat}

/-- Zeros and ones are finite. -/
theorem all_finite (h : UnitRows m order) : m.elements.toList.all Double.isFinite = true := by
  refine all_elements_iff.mpr fun i j hi hj => ?_
  rw [h.entry i j (h.rows_eq ▸ hi) hj]
  split <;> rfl

/-- If every row was taken once, the equations have the rows of an identity as coefficients. -/
theorem perm_coefficients (h : UnitRows m order) (hperm : order.Perm (List.range m.cols))
    (side : Matrix Double) :
    ((m.equations side).map Equation.coefficients).Perm
      ((List.range m.cols).map (Equation.unitRow m.cols)) := by
  have hrows : (m.equations side).map Equation.coefficients = order.map (Equation.unitRow m.cols) := by
    refine List.ext_getElem (by simp [equations, h.rows_eq]) fun i _ hi => ?_
    rw [List.length_map] at hi
    simp only [equations, List.map_map, List.getElem_map, List.getElem_range, Function.comp, row,
      Equation.unitRow]
    refine List.map_congr_left fun j hj => ?_
    rw [h.entry i j hi (List.mem_range.mp hj), List.getElem?_eq_getElem hi]
    simp only [Option.some_inj, eq_comm]
  rw [hrows]
  exact hperm.map _

variable [Solver Double] [Solver.DoublePivots]

/-- `inverse` succeeds on a matrix whose rows are those of an identity in some order. -/
theorem exists_inverse_of_perm (h : UnitRows m order) (hcols : 1 ≤ m.cols) (hperm : order.Perm (List.range m.cols))
    (hcondition : Solver.wellConditioned m = true) : ∃ x, m.inverse = .ok x := by
  have hsquare : m.rows = m.cols := by rw [h.rows_eq, hperm.length_eq, List.length_range]
  obtain ⟨solution, hsolution⟩ :=
    Equation.exists_eliminate_unitRows (h.perm_coefficients hperm (eye m.rows m.rows))
  refine exists_solve_iff.mpr ⟨rfl, hsquare.ge, Nat.ne_of_gt hcols, h.all_finite, hcondition, fun _ => ?_⟩
  rw [hsolution]
  exact ⟨nofun, nofun⟩

/-- `inverse` succeeds on a matrix with more rows than columns whose rows are those of an identity. -/
theorem exists_inverse_of_lt (h : UnitRows m order) (hcols : 1 ≤ m.cols) (htall : m.cols < m.rows)
    (hcondition : Solver.wellConditioned m = true) : ∃ x, m.inverse = .ok x :=
  exists_solve_iff.mpr ⟨rfl, htall.le, Nat.ne_of_gt hcols, h.all_finite, hcondition,
    fun hsquare => absurd hsquare htall.ne'⟩

end UnitRows

end Matrix

/-! ## Transforms of the line -/

/-- The reciprocal of a number that has all bits of precision is finite. -/
theorem Double.finite_one_div {x : Double} (hx : x.isNormal = true) : (1 / x).Finite := by
  obtain ⟨hlarge, hfinite⟩ := Bool.and_eq_true_iff.mp hx
  rw [decide_eq_true_eq] at hlarge
  have hzero : x.isZero = false := by
    rw [Double.isZero, beq_eq_false_iff_ne]
    unfold fractionCount at hlarge
    omega
  have hquotient : 1 / x = ofRatio (Double.one.negative != x.negative)
      (Double.one.units.natAbs * unitsPerOne) x.units.natAbs := by
    show Double.one.div x = _
    rw [Double.div, Double.Finite.isNaN_eq_false hfinite, Double.Finite.isInfinite_eq_false hfinite, hzero]
    rfl
  have hunits : x.units.natAbs = unitsOfMagnitude x.magnitude := by
    unfold Double.units
    split <;> simp
  -- Rounding keeps the order, and the reciprocal of the least such number is finite.
  have hleast : unitsOfMagnitude fractionCount ≤ x.units.natAbs := by
    rw [hunits]
    exact unitsOfMagnitude_strictMono.monotone hlarge
  have hbound : nearestMagnitude (Double.one.units.natAbs * unitsPerOne) (unitsOfMagnitude fractionCount) <
      infinityMagnitude := by decide +kernel
  have hpos : 0 < unitsOfMagnitude fractionCount := unitsOfMagnitude_strictMono (show 0 < fractionCount by decide)
  rw [hquotient]
  show decide (nearestMagnitude _ _ < infinityMagnitude) = true
  rw [decide_eq_true_eq]
  refine Nat.lt_of_le_of_lt ?_ hbound
  exact nearestMagnitude_mono (hpos.trans_le hleast) hpos (Nat.mul_le_mul_left _ hleast)

section Line

variable [Solver Double] [Solver.DoublePivots] {scale offset : Double} (hscale : scale.Finite) (hoffset : offset.Finite)
  (hne : (scale == 0) = false)

include hscale hoffset hne

/-- `eliminate` keeps the first row of a transform of the line and leaves a one of the second,
    unless it finds the scale to be tiny. -/
theorem Equation.eliminate_line (values values' : List Double) :
    (∃ solution, eliminate 2 [⟨[scale, offset], values⟩, ⟨[0, 1], values'⟩] = .ok solution) ∨
      scale.isNormal = false ∧
        eliminate 2 [⟨[scale, offset], values⟩, ⟨[0, 1], values'⟩] = .error .tiny := by
  -- The scale is the pivot, as the zero below it is not larger.
  have hexchange : exchangePivot [⟨[scale, offset], values⟩, ⟨[0, 1], values'⟩] =
      some (⟨[scale, offset], values⟩, [⟨[0, 1], values'⟩]) := by
    have hsmaller : Solver.smaller scale (0 : Double) = false := by
      rw [Bool.eq_false_iff, ne_eq, Double.smaller_iff scale 0 hscale Double.finite_zero]
      exact Nat.not_lt_zero _
    simp [exchangePivot, pivotPlace, leading, hsmaller]
  have hleading : leading ⟨[scale, offset], values⟩ = scale := rfl
  rw [eliminate, hexchange]
  simp only [hleading, hne, Bool.false_eq_true, if_false]
  cases hnormal : scale.isNormal with
  | false =>
    have hreciprocal := (Solver.DoublePivots.hasReciprocal_eq scale).trans hnormal
    rw [hreciprocal]
    exact .inr ⟨rfl, rfl⟩
  | true =>
    have hreciprocal := (Solver.DoublePivots.hasReciprocal_eq scale).trans hnormal
    have hfactor := (Double.finite_one_div hnormal).zero_mul
    have hreduced : (reduce ⟨[scale, offset], values⟩ ⟨[0, 1], values'⟩).coefficients = [1] := by
      show [1 - 0 * (1 / scale) * offset] = [1]
      rw [Double.one_sub_eq_one ((hfactor.mul (.refl offset)).trans hoffset.zero_mul)]
    have hunit : ([reduce ⟨[scale, offset], values⟩ ⟨[0, 1], values'⟩].map coefficients).Perm
        ((List.range 1).map (unitRow 1)) := by
      rw [List.map_singleton, hreduced]
      rfl
    obtain ⟨solution, hsolution⟩ := exists_eliminate_unitRows hunit
    left
    rw [hreciprocal, List.map_singleton, hsolution]
    exact ⟨_, rfl⟩

end Line

namespace Matrix

/-- The numbers of a transform of the line are its scale and its offset. -/
theorem all_finite_line_iff {scale offset : Double} :
    (ofRows 2 2 [[scale, offset], [0, 1]]).elements.toList.all Double.isFinite = true ↔
      scale.Finite ∧ offset.Finite := by
  have hentry (i j : Nat) (hi : i < 2) (hj : j < 2) :
      (ofRows 2 2 [[scale, offset], [0, 1]]).entry i j =
        ([[scale, offset], [0, 1]].getD i []).getD j 0 := entry_ofRows hi hj
  rw [all_elements_iff]
  constructor
  · intro hall
    have hscale := hall 0 0 Nat.two_pos Nat.two_pos
    have hoffset := hall 0 1 Nat.two_pos Nat.one_lt_two
    rw [hentry _ _ Nat.two_pos Nat.two_pos] at hscale
    rw [hentry _ _ Nat.two_pos Nat.one_lt_two] at hoffset
    exact ⟨hscale, hoffset⟩
  · rintro ⟨hscale, hoffset⟩ i j (hi : i < 2) (hj : j < 2)
    rw [hentry i j hi hj]
    -- The last row is finite whatever the scale and the offset.
    interval_cases i <;> interval_cases j
    · exact hscale
    · exact hoffset
    · rfl
    · rfl

variable [Solver Double]

/-- A scale of zero leaves a column of zeros, so a solver that is `Solver.Discerning` refuses the
    matrix. -/
theorem wellConditioned_line_of_zero (hjudge : Solver.Discerning 2) {scale offset : Double}
    (hzero : (scale == 0) = true) : Solver.wellConditioned (ofRows 2 2 [[scale, offset], [0, 1]]) = false := by
  refine hjudge.zeroColumn (j := 0) rfl Nat.two_pos fun i (hi : i < 2) => ?_
  rw [entry_ofRows hi Nat.two_pos]
  interval_cases i
  · exact hzero
  · exact UnitsApart.zero_beq_zero

variable [Solver.DoublePivots] [Solver.TinyPivots]

/-- `inverse` succeeds on the homogeneous matrix of a transform of the line exactly if its scale is
    not zero, its numbers are finite and its condition number is not above the threshold. -/
theorem exists_inverse_line_iff (hjudge : Solver.Discerning 2) {scale offset : Double} :
    (∃ x, (ofRows 2 2 [[scale, offset], [0, 1]]).inverse = .ok x) ↔ (scale == 0) = false ∧
      scale.Finite ∧ offset.Finite ∧
        Solver.wellConditioned (ofRows 2 2 [[scale, offset], [0, 1]]) = true := by
  constructor
  · intro h
    obtain ⟨-, -, -, hnumbers, hcondition, -⟩ := exists_solve_iff.mp h
    obtain ⟨hscale, hoffset⟩ := all_finite_line_iff.mp hnumbers
    refine ⟨Bool.eq_false_iff.mpr fun hzero => ?_, hscale, hoffset, hcondition⟩
    rw [wellConditioned_line_of_zero hjudge hzero] at hcondition
    cases hcondition
  · rintro ⟨hne, hscale, hoffset, hcondition⟩
    refine exists_solve_iff.mpr ⟨rfl, Nat.le_refl 2, Nat.succ_ne_zero 1,
      all_finite_line_iff.mpr ⟨hscale, hoffset⟩, hcondition, fun _ => ?_⟩
    have hequations (side : Matrix Double) : (ofRows 2 2 [[scale, offset], [0, 1]]).equations side =
        [⟨[scale, offset], side.row 0⟩, ⟨[0, 1], side.row 1⟩] := by
      simp [equations, row, List.range_succ, entry_ofRows]
    rw [hequations, cols_ofRows, rows_ofRows]
    -- Elimination gets through or stops at the scale, in which case the solver steps in.
    obtain ⟨solution, hsolution⟩ | ⟨hnormal, htiny⟩ :=
      Equation.eliminate_line hscale hoffset hne ((eye 2 2).row 0) ((eye 2 2).row 1)
    · rw [hsolution]
      exact ⟨nofun, nofun⟩
    · exact ⟨fun hzero => (nomatch htiny.symm.trans hzero),
        fun _ => Solver.TinyPivots.isSome_line _ hscale hoffset hne hnormal⟩

end Matrix

end Georef

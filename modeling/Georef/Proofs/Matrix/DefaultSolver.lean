import Georef.Proofs.Matrix.ConditionNumber
import Georef.Proofs.Matrix.Invertible
import Mathlib.Algebra.BigOperators.Group.Finset.Piecewise

/-!
# The solver for doubles that comes with the project

What is asked of a solver for doubles holds of the one that is an instance of `Solver`: `TinyPivot.solve?` fails for
zero pivots only, and `Conditioning.wellConditioned` compares exact values, so it judges rightly unless a matrix has an
enormous number of rows.

## Key results

- `Factors.isSome_line`: elimination column by column solves the equations of the line
- `Matrix.UnitRows.wellConditioned`: rows of an identity make a well-conditioned matrix
- `Solver.discerning_of_le`: matrices of up to 2^104 rows are judged rightly
-/

namespace Georef

/-! ## Tiny pivots -/

/-- `isDivisor` holds of exactly the pivots that have all bits of precision. -/
theorem Factors.isDivisor_iff {pivot : Double} (hfinite : pivot.Finite) :
    isDivisor pivot = true ↔ pivot.isNormal = true := by
  have hliteral : Double.ordinal 2.2250738585072014e-308 = fractionCount := by decide +kernel
  have hleast : Double.Finite 2.2250738585072014e-308 := by decide +kernel
  have hfinite' : pivot.isFinite = true := hfinite
  rw [isDivisor, decide_eq_true_eq, hleast.le_iff hfinite.abs, hliteral, Double.ordinal_abs, Double.natAbs_ordinal,
    Int.ofNat_le, Double.isNormal, hfinite', Bool.and_true, decide_eq_true_eq]

section Line

variable {scale offset : Double} (hscale : scale.Finite) (hoffset : offset.Finite)
  (hne : (scale == 0) = false)

include hscale hoffset hne

/-- Elimination column by column finds no zero pivot in the matrix of a transform of the line. -/
theorem Factors.isSome_line (hnormal : scale.isNormal = false) :
    (ofMatrix? (.ofRows 2 2 [[scale, offset], [0, 1]])).isSome = true := by
  have hcolumns : (Matrix.ofRows 2 2 [[scale, offset], [0, 1]]).columnList = [[scale, 0], [offset, 1]] := by
    simp [Matrix.columnList, Matrix.column, List.range_succ, Matrix.entry_ofRows]
  -- The first pivot is the scale. It is tiny, so its column is left undivided.
  have hfirst : (start 2).addColumn [scale, 0] = some ⟨[[scale], [0]], [0]⟩ := by
    have hless : ¬scale.abs < Double.abs 0 := by
      rw [hscale.abs.lt_iff Double.finite_zero.abs, Double.ordinal_abs]
      exact Int.not_lt.mpr (Int.natCast_nonneg _)
    have hdivisor : isDivisor scale = false := by
      rw [Bool.eq_false_iff, ne_eq, isDivisor_iff hscale, hnormal]
      exact Bool.false_ne_true
    simp [addColumn, start, reduce, arrange, largestPlace, append, hless, hne, hdivisor]
  -- The zero below it takes nothing away from the one, which is the second pivot.
  have hsecond : ((⟨[[scale], [0]], [0]⟩ : Factors).addColumn [offset, 1]).isSome = true := by
    have hproduct : LeastSquares.productSum [0] [offset] = 0 + 0 * offset := rfl
    have hzero : Double.SameNumber (0 + 0 * offset) 0 :=
      (Double.SameNumber.refl 0).add hoffset.zero_mul
    have hone : ((1 : Double) == 0) = false := by decide
    have hunit : (1 : Double).Finite := rfl
    have hdivisor : isDivisor 1 = true := (isDivisor_iff hunit).mpr rfl
    simp [addColumn, reduce, arrange, exchange, largestPlace, append, hproduct,
      Double.one_sub_eq_one hzero, hone, hdivisor]
  rw [ofMatrix?, hcolumns, List.foldlM_cons]
  show (((start 2).addColumn [scale, 0]).bind fun f => [[offset, 1]].foldlM addColumn f).isSome = true
  rw [hfirst, Option.bind_some, List.foldlM_cons]
  obtain ⟨f, hf⟩ := Option.isSome_iff_exists.mp hsecond
  rw [hf]
  rfl

end Line

/-- `solve?` finds a solution if elimination column by column finds no zero pivot. -/
theorem TinyPivot.isSome_solve? (a side : Matrix Double) :
    (solve? a side).isSome = (Factors.ofMatrix? a).isSome :=
  Option.isSome_map

instance : Solver.TinyPivots where
  isSome_congr {a b} side h := by
    have hrel := Factors.rel_ofMatrix? h.cols_eq h.columnList
    show (TinyPivot.solve? a side).isSome = (TinyPivot.solve? b side).isSome
    rw [TinyPivot.isSome_solve?, TinyPivot.isSome_solve?]
    generalize Factors.ofMatrix? a = f, Factors.ofMatrix? b = f' at hrel ⊢
    cases hrel <;> rfl
  isSome_line side hscale hoffset hne hnormal :=
    (TinyPivot.isSome_solve? _ side).trans (Factors.isSome_line hscale hoffset hne hnormal)

/-! ## Condition numbers -/

namespace Matrix

/-- `Conditioning.wellConditioned` takes exact values, which have no signs at zeros. -/
theorem SameNumbers.wellConditioned_eq {a b : Matrix Double} (h : SameNumbers a b) :
    Conditioning.wellConditioned a = Conditioning.wellConditioned b := by
  have hcolumns : Conditioning.unitColumns a = Conditioning.unitColumns b := by
    unfold Conditioning.unitColumns
    rw [← h.cols_eq]
    refine List.map_congr_left fun j hj => ?_
    unfold Matrix.column
    rw [← h.rows_eq, List.map_map, List.map_map]
    refine List.map_congr_left fun i hi => ?_
    exact (h.entry i j (List.mem_range.mp hi) (List.mem_range.mp hj)).units_eq
  simp only [Conditioning.wellConditioned, Conditioning.conditionNumber, hcolumns]
  rfl

namespace UnitRows

variable {m : Matrix Double} {order : List Nat}

/-- The columns of `UnitRows` are orthogonal, and the square of the length of a column is how often
    its row was taken. -/
theorem sum_units_mul_units (h : UnitRows m order) {i j : Nat} (hi : i < m.cols) (hj : j < m.cols) :
    ∑ k ∈ Finset.range m.rows, (m.entry k i).units * (m.entry k j).units =
      Conditioning.diagonal (fun i => order.count i * (Double.unitsPerOne * Double.unitsPerOne)) i j := by
  have hone : (1 : Double).units = Double.unitsPerOne := by
    show (Double.unitsOfMagnitude Double.one.magnitude : Int) = _
    rw [Conditioning.unitsOfMagnitude_one]
  have hzero : (0 : Double).units = 0 := rfl
  -- A row of the identity adds to the product of a column with itself only.
  have hterm (k : Nat) (hk : k < order.length) : (m.entry k i).units * (m.entry k j).units =
      if order[k]? = some i then
        Conditioning.diagonal (fun _ => Double.unitsPerOne * Double.unitsPerOne) i j else 0 := by
    rw [h.entry k i hk hi, h.entry k j hk hj]
    by_cases hplace : order[k]? = some i
    · rw [if_pos hplace, if_pos hplace, hplace, hone, Conditioning.diagonal]
      by_cases hij : i = j
      · rw [if_pos (congrArg some hij), if_pos hij, hone]
      · rw [if_neg (fun heq => hij (Option.some_inj.mp heq)), if_neg hij, hzero, mul_zero]
    · rw [if_neg hplace, if_neg hplace, hzero, zero_mul]
  have hcount (order : List Nat) (c : Int) :
      (∑ k ∈ Finset.range order.length, if order[k]? = some i then c else 0) = order.count i * c := by
    induction order with
    | nil => simp
    | cons x order ih =>
      rw [List.length_cons, Finset.sum_range_succ', List.count_cons]
      simp only [List.getElem?_cons_succ, ih, List.getElem?_cons_zero, Option.some_inj, beq_iff_eq]
      split <;> simp [add_mul]
  rw [h.rows_eq, Finset.sum_congr rfl fun k hk => hterm k (Finset.mem_range.mp hk), hcount]
  by_cases hij : i = j
  · simp only [Conditioning.diagonal, if_pos hij]
  · simp only [Conditioning.diagonal, if_neg hij, mul_zero]

/-- `Conditioning.wellConditioned` holds if none of the rows of the identity was left out or taken too often. -/
theorem wellConditioned (h : UnitRows m order) (hcols : 0 < m.cols)
    (hcount : ∀ j, j < m.cols → 1 ≤ order.count j ∧ order.count j ≤ powerOfTwo 52 * powerOfTwo 52) :
    Conditioning.wellConditioned m = true :=
  Conditioning.wellConditioned_of_orthogonal hcols hcount fun _ _ hi hj => h.sum_units_mul_units hi hj

end UnitRows

end Matrix

/-- The default solver judges matrices rightly that do not have more rows than 2^104, which is the
    square of the threshold. -/
theorem Solver.discerning_of_le {rows : Nat} (hrows : rows ≤ powerOfTwo 52 * powerOfTwo 52) :
    Solver.Discerning rows where
  congr _ h := h.wellConditioned_eq
  unitRows hm h hcols hall := h.wellConditioned hcols fun j hj => by
    have hle := (List.count_le_length (a := j)).trans (h.rows_eq.ge.trans (hm.le.trans hrows))
    exact ⟨List.count_pos_iff.mpr (hall j hj), hle⟩
  zeroColumn _ hj hzero := Conditioning.wellConditioned_of_zero_column hj fun i hi =>
    (Double.SameNumber.of_beq_zero (hzero i hi)).units_eq.symm

end Georef

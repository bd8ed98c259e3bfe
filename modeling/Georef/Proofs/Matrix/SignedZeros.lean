import Georef.Proofs.List
import Georef.Proofs.Matrix.Checks
import Georef.Proofs.Matrix.DoubleSolver
import Georef.Proofs.Matrix.Units

/-!
# Signs of zeros in linear systems

A form of a linear transform remembers of a zero only that it is one, so the matrix that comes back may have
other signs at its zeros. This file shows that such matrices are invertible alike, whatever solver is used, as long as
they are judged alike. Elimination divides by pivots only, and these are not zero, so its numbers are the same but for
the signs of zeros from beginning to end.

The values on the right sides take no part in the decision, so nothing is said about them.

## Key results

- `Equation.eliminate_eq_error_iff`: elimination stops for the same reason
- `Factors.rel_ofMatrix?`: so does elimination column by column
- `Matrix.exists_solve_iff`: what it takes for a system of doubles to be solved
- `Matrix.SameNumbers.exists_solve_iff`: of two matrices that are equal but for signs of zeros, both solve
  a system or none
-/

namespace Georef

open Double (SameNumber)

/-- What is `EqUpToUnit` is the same number but for the sign of a zero. -/
theorem EqUpToUnit.sameNumber {x y : Double} (h : EqUpToUnit x y) : SameNumber x y := by
  obtain rfl | ⟨rfl | rfl, hy⟩ := h
  · exact .refl _
  · exact .of_beq_zero hy
  · have hordinal : y.ordinal = Double.ordinal 1 := by
      simp only [BEq.beq, Double.numericEq, Bool.and_eq_true, decide_eq_true_eq] at hy
      exact hy.2
    rw [Double.eq_of_ordinal hordinal (by rw [hordinal]; decide)]
    exact .refl _

/-! ## Elimination row by row -/

namespace Equation

/-- The coefficients are the same numbers. -/
def SameCoefficients (e e' : Equation Double) : Prop :=
  List.Forall₂ SameNumber e.coefficients e'.coefficients

variable [Solver Double] {e e' pivot pivot' : Equation Double} {es es' : List (Equation Double)}

omit [Solver Double] in
/-- Equations with `SameCoefficients` lead with the same number. -/
theorem SameCoefficients.leading (h : SameCoefficients e e') : SameNumber e.leading e'.leading := by
  have hhead {u u' : List Double} (hu : List.Forall₂ SameNumber u u') :
      SameNumber (u.headD 0) (u'.headD 0) := by
    cases hu with
    | nil => exact .refl _
    | cons hx _ => exact hx
  exact hhead h

omit [Solver Double] in
/-- `subtractMultiple` gives the same numbers of the same numbers. -/
theorem forall₂_subtractMultiple {factor factor' : Double} {u u' v v' : List Double}
    (hfactor : SameNumber factor factor') (hu : List.Forall₂ SameNumber u u')
    (hv : List.Forall₂ SameNumber v v') :
    List.Forall₂ SameNumber (subtractMultiple factor u v) (subtractMultiple factor' u' v') :=
  hu.zipWith (fun _ _ _ _ hx hy => hx.sub (hfactor.mul hy)) hv

omit [Solver Double] in
/-- `reduce` keeps `SameCoefficients`, if the pivots lead with equal numbers. -/
theorem SameCoefficients.reduce (hpivot : SameCoefficients pivot pivot')
    (hleading : pivot.leading = pivot'.leading) (h : SameCoefficients e e') :
    SameCoefficients (reduce pivot e) (reduce pivot' e') := by
  have hfactor : SameNumber (e.leading * (1 / pivot.leading)) (e'.leading * (1 / pivot'.leading)) := by
    rw [hleading]
    exact h.leading.mul (.refl _)
  have htails {u u' : List Double} (hu : List.Forall₂ SameNumber u u') :
      List.Forall₂ SameNumber u.tail u'.tail := by
    cases hu with
    | nil => exact .nil
    | cons _ hu => exact hu
  exact forall₂_subtractMultiple hfactor (htails h) (htails hpivot)

variable [Solver.DoublePivots]

/-- `pivotPlace` compares absolute values, which do not show the sign of a zero. -/
theorem pivotPlace_congr {best best' : Double} (hbest : SameNumber best best')
    (h : List.Forall₂ SameCoefficients es es') (place next : Nat) :
    pivotPlace best place next es = pivotPlace best' place next es' := by
  induction h generalizing best best' place next with
  | nil => rfl
  | @cons e e' es es' he _ ih =>
    -- Sizes are compared without signs.
    have hsmaller : Solver.smaller best e.leading = Solver.smaller best' e'.leading := by
      rw [Solver.DoublePivots.smaller_eq, Solver.DoublePivots.smaller_eq, hbest.abs_eq, he.leading.abs_eq]
    rw [pivotPlace, pivotPlace, ← hsmaller]
    split
    · exact ih he.leading next (next + 1)
    · exact ih hbest place (next + 1)

/-- `exchangePivot` makes the same exchange, and leaves the same coefficients. -/
theorem rel_exchangePivot (h : List.Forall₂ SameCoefficients es es') :
    Option.Rel (fun p q => SameCoefficients p.1 q.1 ∧ List.Forall₂ SameCoefficients p.2 q.2)
      (exchangePivot es) (exchangePivot es') := by
  cases h with
  | nil => exact .none
  | @cons first first' rest rest' hfirst hrest =>
    rw [exchangePivot, exchangePivot, ← pivotPlace_congr hfirst.leading hrest]
    -- The first equation stays, or it is exchanged with the one at the place that was found.
    cases pivotPlace first.leading 0 1 rest with
    | zero => exact .some ⟨hfirst, hrest⟩
    | succ place =>
      have hplace := hrest.getElem? place
      dsimp only
      cases hpivot : rest[place]? with
      | none =>
        rw [hpivot] at hplace
        cases hpivot' : rest'[place]? with
        | none => exact .none
        | some pivot' => rw [hpivot'] at hplace; exact nomatch hplace
      | some pivot =>
        rw [hpivot] at hplace
        cases hpivot' : rest'[place]? with
        | none => rw [hpivot'] at hplace; exact nomatch hplace
        | some pivot' =>
          rw [hpivot'] at hplace
          cases hplace with
          | some hpivots => exact .some ⟨hpivots, hrest.set hfirst place⟩

/-- `eliminate` stops at the same fault for equations with the same coefficients. -/
theorem eliminate_eq_error_iff (n : Nat) (h : List.Forall₂ SameCoefficients es es') :
    ∀ fault, eliminate n es = .error fault ↔ eliminate n es' = .error fault := by
  induction n generalizing es es' with
  | zero => exact fun _ => ⟨nofun, nofun⟩
  | succ n ih =>
    intro fault
    have hexchange := rel_exchangePivot h
    rw [eliminate, eliminate]
    generalize exchangePivot es = found at hexchange ⊢
    generalize exchangePivot es' = found' at hexchange ⊢
    cases hexchange with
    | none => exact Iff.rfl
    | @some p p' hp =>
      obtain ⟨pivot, rest⟩ := p
      obtain ⟨pivot', rest'⟩ := p'
      obtain ⟨hpivot, hrest⟩ := hp
      simp only at hpivot hrest ⊢
      rw [← hpivot.leading.beq_eq 0]
      cases hzero : (pivot.leading == 0) with
      | true => exact Iff.rfl
      | false =>
        -- A pivot is not a zero, so both pivots are the same.
        have hleading := hpivot.leading.eq_of_ne_zero hzero
        rw [← hleading]
        simp only [Bool.false_eq_true, if_false]
        split
        · exact Iff.rfl
        · have hreduced : List.Forall₂ SameCoefficients (rest.map (Equation.reduce pivot))
              (rest'.map (Equation.reduce pivot')) :=
            List.rel_map (fun _ _ he => hpivot.reduce hleading he) hrest
          cases hfound : eliminate n (rest.map (Equation.reduce pivot)) with
          | error f =>
            rw [(ih hreduced f).mp hfound]
            exact Iff.rfl
          | ok solution =>
            cases hfound' : eliminate n (rest'.map (Equation.reduce pivot')) with
            | error f => rw [(ih hreduced f).mpr hfound'] at hfound; exact nomatch hfound
            | ok solution' => exact ⟨nofun, nofun⟩

end Equation

/-! ## Elimination column by column -/

namespace Factors

open LeastSquares (productSum)

/-- The same exchanges were made, and the same numbers are left. -/
structure Same (f f' : Factors) : Prop where
  rows : List.Forall₂ (List.Forall₂ SameNumber) f.rows f'.rows
  exchanges : f.exchanges = f'.exchanges

variable {f f' : Factors} {u u' : List Double}

/-- `exchange` keeps lists related element by element. -/
theorem forall₂_exchange {α β : Type} {R : α → β → Prop} {u : List α} {v : List β}
    (h : List.Forall₂ R u v) (i j : Nat) : List.Forall₂ R (exchange u i j) (exchange v i j) := by
  unfold exchange
  have hi := h.getElem? i
  have hj := h.getElem? j
  generalize u[i]? = x, v[i]? = x' at hi ⊢
  generalize u[j]? = y, v[j]? = y' at hj ⊢
  cases hi with
  | none => exact h
  | some hx =>
    cases hj with
    | none => exact h
    | some hy => exact (h.set hy i).set hx j

/-- `arrange` makes the same exchanges in both columns. -/
theorem Same.arrange (h : Same f f') (hu : List.Forall₂ SameNumber u u') :
    List.Forall₂ SameNumber (f.arrange u) (f'.arrange u') := by
  unfold Factors.arrange
  rw [← h.exchanges]
  generalize f.exchanges.zipIdx = exchanges
  induction exchanges generalizing u u' with
  | nil => exact hu
  | cons e exchanges ih => exact ih (forall₂_exchange hu e.2 e.1)

/-- `productSum` gives the same number of the same numbers. -/
theorem sameNumber_productSum {v v' : List Double} (hu : List.Forall₂ SameNumber u u')
    (hv : List.Forall₂ SameNumber v v') : SameNumber (productSum u v) (productSum u' v') := by
  have hproducts : List.Forall₂ SameNumber (List.zipWith (· * ·) u v) (List.zipWith (· * ·) u' v') :=
    hu.zipWith (fun _ _ _ _ hx hy => hx.mul hy) hv
  refine List.rel_foldl (fun sum sum' hsum x x' hx => ?_) (.refl 0) hproducts
  exact SameNumber.add hsum hx

/-- Related lists are empty together. -/
theorem isEmpty_congr {α β : Type} {R : α → β → Prop} {u : List α} {v : List β}
    (h : List.Forall₂ R u v) : u.isEmpty = v.isEmpty := by
  cases h <;> rfl

/-- `reduce` leaves the same numbers of the same columns. -/
theorem Same.reduce (h : Same f f') (hu : List.Forall₂ SameNumber u u') :
    List.Forall₂ SameNumber (f.reduce u) (f'.reduce u') := by
  unfold Factors.reduce
  refine List.rel_foldl (fun above above' habove p p' hp => ?_) .nil (h.rows.zip hu)
  obtain ⟨multiples, x⟩ := p
  obtain ⟨multiples', x'⟩ := p'
  obtain ⟨hmultiples, hx⟩ := hp
  refine List.rel_append habove (.cons ?_ .nil)
  simp only at hmultiples hx ⊢
  rw [← isEmpty_congr hmultiples, ← isEmpty_congr habove]
  split
  · exact hx
  · exact hx.sub (sameNumber_productSum hmultiples habove)

/-- `largestPlace` compares absolute values, which do not show the sign of a zero. -/
theorem largestPlace_congr (best : Double) (place next : Nat) (h : List.Forall₂ SameNumber u u') :
    largestPlace best place next u = largestPlace best place next u' := by
  induction h generalizing best place next with
  | nil => rfl
  | cons hx _ ih =>
    rw [largestPlace, largestPlace, ← hx.abs_eq]
    split
    · exact ih _ _ _
    · exact ih _ _ _

/-- `divideBehind` divides the same numbers by the same pivot. -/
theorem forall₂_divideBehind (place : Nat) (pivot : Double) (h : List.Forall₂ SameNumber u u') :
    List.Forall₂ SameNumber (divideBehind place pivot u) (divideBehind place pivot u') :=
  List.rel_append (List.forall₂_take _ h)
    (List.rel_map (fun _ _ hx => SameNumber.mul hx (.refl _)) (List.forall₂_drop _ h))

/-- `append` puts the same column behind the same rows. -/
theorem same_append {rows rows' : List (List Double)}
    (hrows : List.Forall₂ (List.Forall₂ SameNumber) rows rows') (hu : List.Forall₂ SameNumber u u')
    (exchanges : List Nat) : Same (append rows u exchanges) (append rows' u' exchanges) :=
  ⟨hrows.zipWith (fun _ _ _ _ hrow hx => List.rel_append hrow (.cons hx .nil)) hu, rfl⟩

/-- Behind the ends of both lists stand the same zeros. -/
theorem sameNumber_getD (h : List.Forall₂ SameNumber u u') (i : Nat) :
    SameNumber (u.getD i 0) (u'.getD i 0) := by
  have hi := h.getElem? i
  rw [List.getD_eq_getElem?_getD, List.getD_eq_getElem?_getD]
  generalize u[i]? = x, u'[i]? = x' at hi ⊢
  cases hi with
  | none => exact .refl 0
  | some hx => exact hx

/-- `addColumn` finds a zero pivot in both columns or in none, and leaves the same factors. -/
theorem Same.addColumn (h : Same f f') (hu : List.Forall₂ SameNumber u u') :
    Option.Rel Same (f.addColumn u) (f'.addColumn u') := by
  have hreduced := h.reduce (h.arrange hu)
  unfold Factors.addColumn
  rw [← h.exchanges]
  -- From here on only the reduced columns matter, which differ in the signs of zeros at most.
  generalize f.reduce (f.arrange u) = reduced at hreduced ⊢
  generalize f'.reduce (f'.arrange u') = reduced' at hreduced ⊢
  simp only
  rw [← (sameNumber_getD hreduced f.exchanges.length).abs_eq,
    ← largestPlace_congr _ _ _ (List.forall₂_drop _ hreduced)]
  generalize largestPlace _ _ _ _ = place
  have hpivot := sameNumber_getD hreduced place
  rw [← hpivot.beq_eq 0]
  -- A pivot that is not zero is the same number on both sides, bit for bit.
  cases hzero : (reduced.getD place 0 == 0) with
  | true => exact .none
  | false =>
    rw [← hpivot.eq_of_ne_zero hzero]
    simp only [Bool.false_eq_true, if_false]
    split
    · exact .some (same_append (forall₂_exchange h.rows _ _)
        (forall₂_divideBehind _ _ (forall₂_exchange hreduced _ _)) _)
    · exact .some (same_append h.rows hreduced _)

/-- `ofMatrix?` finds a zero pivot in both matrices or in none. -/
theorem rel_ofMatrix? {a b : Matrix Double} (hcols : a.cols = b.cols)
    (h : List.Forall₂ (List.Forall₂ SameNumber) a.columnList b.columnList) :
    Option.Rel Same (ofMatrix? a) (ofMatrix? b) := by
  have hstart : Same (start a.cols) (start b.cols) := by
    rw [hcols]
    exact ⟨List.forall₂_same.mpr fun row _ => List.forall₂_same.mpr fun x _ => .refl x, rfl⟩
  exact h.foldlM (fun _ _ _ _ hf hu => hf.addColumn hu) hstart

end Factors

/-! ## Matrices -/

namespace Matrix

/-- Matrices that are `EqUpToUnits` are the same, but for signs of zeros. -/
theorem EqUpToUnits.sameNumbers {a b : Matrix Double} (h : a.EqUpToUnits b) : SameNumbers a b where
  rows_eq := h.rows_eq
  cols_eq := h.cols_eq
  entry i j hi hj := (h.entry i j (h.rows_eq ▸ hi) (h.cols_eq ▸ hj)).sameNumber

/-- A property of all elements of a matrix is one of all entries. -/
theorem all_elements_iff {α : Type} [Zero α] {m : Matrix α} {p : α → Bool} :
    m.elements.toList.all p = true ↔ ∀ i j, i < m.rows → j < m.cols → p (m.entry i j) = true := by
  rw [List.all_eq_true]
  constructor
  · intro h i j hi hj
    have hk : i * m.cols + j < m.elements.size := by
      rw [m.size_eq]
      exact index_lt hi hj
    have hentry : m.entry i j = m.elements[i * m.cols + j] := by simp [Matrix.entry, hj, hk]
    rw [hentry]
    exact h _ (Array.mem_toList_iff.mpr (Array.getElem_mem hk))
  · intro h x hx
    -- The place of an element in the list gives its row and its column.
    obtain ⟨k, hk, rfl⟩ := List.getElem_of_mem hx
    have hk' : k < m.rows * m.cols := by
      rw [← m.size_eq]
      simpa using hk
    have hcols : 0 < m.cols := Nat.pos_of_ne_zero fun hzero => by simp [hzero] at hk'
    have hi : k / m.cols < m.rows := (Nat.div_lt_iff_lt_mul hcols).mpr hk'
    have hj : k % m.cols < m.cols := Nat.mod_lt k hcols
    have hback : k / m.cols * m.cols + k % m.cols = k := by
      rw [Nat.mul_comm]
      exact Nat.div_add_mod k m.cols
    have hsize : k < m.elements.size := by simpa using hk
    have hentry : m.entry (k / m.cols) (k % m.cols) = m.elements[k] := by
      simp [Matrix.entry, hj, hback, hsize]
    have := h _ _ hi hj
    rw [hentry] at this
    simpa using this

/-- What it takes for `solve` to solve a system of doubles: enough equations, finite numbers, a
    condition number that is not above the threshold, and in a square system no pivot that is zero. -/
theorem exists_solve_iff [Solver Double] [Solver.DoublePivots] {a side : Matrix Double} :
    (∃ x, a.solve side = .ok x) ↔ side.rows = a.rows ∧ a.cols ≤ a.rows ∧ a.cols ≠ 0 ∧
      a.elements.toList.all Double.isFinite = true ∧ Solver.wellConditioned a = true ∧
      (a.rows = a.cols → Equation.eliminate a.cols (a.equations side) ≠ .error .zero ∧
        (Equation.eliminate a.cols (a.equations side) = .error .tiny →
          (Solver.solveTiny? a side).isSome = true)) := by
  have hnumbers : a.elements.toList.all Solver.finite = a.elements.toList.all Double.isFinite :=
    congrArg _ (funext Solver.DoublePivots.finite_eq)
  constructor
  · rintro ⟨x, hx⟩
    obtain ⟨hchecked, hcondition, hx⟩ := solve_eq_ok_iff.mp hx
    refine ⟨hchecked.rows_eq, hchecked.tall, hchecked.cols_ne, hnumbers ▸ hchecked.finite, hcondition,
      fun hsquare => ?_⟩
    -- How the system was solved says what elimination met.
    cases hx with
    | elimination _ hsolution =>
      rw [hsolution]
      exact ⟨nofun, nofun⟩
    | tinyPivot _ htiny hx =>
      rw [htiny, hx]
      exact ⟨nofun, fun _ => rfl⟩
    | leastSquares hne => exact absurd hsquare hne
  · rintro ⟨hside, htall, hcols, hfinite, hcondition, hpivots⟩
    have hsolved {x : Matrix Double} (hx : SolvedBy a side x) : ∃ x, a.solve side = .ok x :=
      ⟨x, solve_eq_ok_iff.mpr ⟨⟨hside, hcols, htall, hnumbers ▸ hfinite⟩, hcondition, hx⟩⟩
    by_cases hsquare : a.rows = a.cols
    · obtain ⟨hzero, htiny⟩ := hpivots hsquare
      cases heliminate : Equation.eliminate a.cols (a.equations side) with
      | ok solution => exact hsolved (.elimination hsquare heliminate)
      | error fault =>
        cases fault with
        | zero => exact absurd heliminate hzero
        | tiny =>
          obtain ⟨x, hx⟩ := Option.isSome_iff_exists.mp (htiny heliminate)
          exact hsolved (.tinyPivot hsquare heliminate hx)
    · exact hsolved (.leastSquares hsquare)

namespace SameNumbers

variable {a b : Matrix Double}

/-- Columns of `SameNumbers` matrices have the same numbers. -/
theorem column (h : SameNumbers a b) {j : Nat} (hj : j < a.cols) :
    List.Forall₂ SameNumber (a.column j) (b.column j) := by
  unfold Matrix.column
  rw [← h.rows_eq, List.forall₂_map_left_iff, List.forall₂_map_right_iff]
  exact List.forall₂_same.mpr fun i hi => h.entry i j (List.mem_range.mp hi) hj

/-- All columns of `SameNumbers` matrices have the same numbers. -/
theorem columnList (h : SameNumbers a b) :
    List.Forall₂ (List.Forall₂ SameNumber) a.columnList b.columnList := by
  unfold Matrix.columnList
  rw [← h.cols_eq, List.forall₂_map_left_iff, List.forall₂_map_right_iff]
  exact List.forall₂_same.mpr fun j hj => h.column (List.mem_range.mp hj)

/-- The equations of `SameNumbers` matrices have the same coefficients. -/
theorem equations (h : SameNumbers a b) (side : Matrix Double) :
    List.Forall₂ Equation.SameCoefficients (a.equations side) (b.equations side) := by
  unfold Matrix.equations
  rw [← h.rows_eq, List.forall₂_map_left_iff, List.forall₂_map_right_iff]
  refine List.forall₂_same.mpr fun i hi => ?_
  show List.Forall₂ SameNumber (a.row i) (b.row i)
  unfold Matrix.row
  rw [← h.cols_eq, List.forall₂_map_left_iff, List.forall₂_map_right_iff]
  exact List.forall₂_same.mpr fun j hj => h.entry i j (List.mem_range.mp hi) (List.mem_range.mp hj)

/-- `SameNumbers` matrices have finite numbers at the same places. -/
theorem all_finite (h : SameNumbers a b) :
    a.elements.toList.all Double.isFinite = b.elements.toList.all Double.isFinite := by
  rw [Bool.eq_iff_iff, all_elements_iff, all_elements_iff, ← h.rows_eq, ← h.cols_eq]
  refine forall_congr' fun i => forall_congr' fun j => imp_congr_right fun hi =>
    imp_congr_right fun hj => ?_
  rw [(h.entry i j hi hj).isFinite_eq]

section Solve

variable [Solver Double] [Solver.DoublePivots] [Solver.TinyPivots]
  (hcondition : Solver.wellConditioned a = Solver.wellConditioned b)

include hcondition

/-- `solve` succeeds on both systems or on none, if the solver judges them alike. -/
theorem exists_solve_iff (h : SameNumbers a b) (side : Matrix Double) :
    (∃ x, a.solve side = .ok x) ↔ ∃ x, b.solve side = .ok x := by
  have hequations := Equation.eliminate_eq_error_iff a.cols (h.equations side)
  rw [Matrix.exists_solve_iff, Matrix.exists_solve_iff, ← h.rows_eq, ← h.cols_eq, ← h.all_finite,
    ← hcondition, ← Solver.TinyPivots.isSome_congr side h, ne_eq, ne_eq, hequations, hequations]

/-- `inverse` succeeds on both matrices or on none. -/
theorem exists_inverse_iff (h : SameNumbers a b) : (∃ x, a.inverse = .ok x) ↔ ∃ x, b.inverse = .ok x := by
  unfold Matrix.inverse
  rw [← h.rows_eq]
  exact exists_solve_iff hcondition h (eye a.rows a.rows)

end Solve

end SameNumbers

end Matrix

end Georef

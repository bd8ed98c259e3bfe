import Georef.Proofs.Double.Neutral
import Georef.Proofs.Matrix.Invertible

/-!
# The matrix of a translation and its inverse

Below the ones on its diagonal the matrix of a translation has zeros only, so elimination finds every pivot where it
stands and takes nothing away. What is left is back substitution, which multiplies the last unknown by the offsets
and everything else by zero: no number is rounded on the way, and only signs of zeros may change. So all that decides
about the inverse is what the solver says of the condition of the matrix.

## Key results

- `Equation.eliminate_widen`: elimination leaves a unitriangular system as it is
- `Equation.solveTriangular_translationTriangle`: what back substitution finds
- `Matrix.inverse_translation`: the inverse is the translation back, if the matrix is well-conditioned
-/

namespace Georef

open Double (SameNumber)

/-- The homogeneous matrix of a translation: an identity with the offsets in the last column. -/
def translationMatrix {α : Type} [Zero α] [One α] (offsets : List α) : Matrix α :=
  .ofFn (offsets.length + 1) (offsets.length + 1) fun i j =>
    if i = j then 1 else if j = offsets.length then offsets.getD i 0 else 0

namespace Equation

/-! ## Lists of numbers -/

instance : IsTrans Double SameNumber := ⟨fun _ _ _ => SameNumber.trans⟩

variable {factor : Double} {u u' v v' : List Double}

/-- `subtractMultiple` with a factor of zero takes nothing away. -/
theorem subtractMultiple_of_zero (hfactor : SameNumber factor 0) (hlength : u.length = v.length)
    (hu : ∀ x ∈ u, x.Finite) (hv : ∀ y ∈ v, y.Finite) :
    List.Forall₂ SameNumber (subtractMultiple factor u v) u := by
  induction u generalizing v with
  | nil => exact .nil
  | cons x u ih =>
    obtain ⟨y, v, rfl⟩ := List.exists_cons_of_length_eq_add_one hlength.symm
    obtain ⟨hx, hu⟩ := List.forall_mem_cons.mp hu
    obtain ⟨hy, hv⟩ := List.forall_mem_cons.mp hv
    exact .cons (hx.sub_zero ((hfactor.mul (.refl y)).trans hy.zero_mul)) (ih (Nat.succ.inj hlength) hu hv)

/-- `divideValues` by one treats the same numbers alike. -/
theorem forall₂_divideValues_one (h : List.Forall₂ SameNumber u u') :
    List.Forall₂ SameNumber (divideValues 1 u) (divideValues 1 u') := by
  cases h with
  | nil => exact .nil
  | cons hx h =>
    cases h with
    | nil => exact .cons hx.div_one .nil
    | cons hy h =>
      exact .cons (hx.mul (.refl _)) (.cons (hy.mul (.refl _)) (List.rel_map (fun _ _ hz => hz.mul (.refl _)) h))

/-- `divideValues` by one changes nothing. -/
theorem divideValues_one (hu : ∀ x ∈ u, x.Finite) : List.Forall₂ SameNumber (divideValues 1 u) u := by
  unfold divideValues
  split
  · exact .cons (hu _ List.mem_cons_self).div_one .nil
  · rw [Double.one_div_one, List.forall₂_map_left_iff]
    exact List.forall₂_same.mpr fun x hx => (hu x hx).mul_one

/-! ## Unitriangular systems -/

/-- The coefficients and the values are the same numbers. -/
def SameEquation (e e' : Equation Double) : Prop :=
  SameCoefficients e e' ∧ List.Forall₂ SameNumber e.values e'.values

/-- Triangular equations with `r` right sides each, ones as leading coefficients and no number that is not
    finite. -/
inductive UnitTriangular (r : Nat) : List (Equation Double) → Prop
  | nil : UnitTriangular r []
  | cons {u v : List Double} {rest : List (Equation Double)} (hlength : u.length = rest.length)
      (hvalues : v.length = r) (hu : ∀ x ∈ u, x.Finite) (hv : ∀ y ∈ v, y.Finite)
      (hrest : UnitTriangular r rest) : UnitTriangular r (⟨1 :: u, v⟩ :: rest)

/-- A triangular system with the zeros that its equations lack in front. -/
def widen : List (Equation Double) → List (Equation Double)
  | [] => []
  | e :: rest => e :: (widen rest).map fun e => ⟨0 :: e.coefficients, e.values⟩

variable {r : Nat} {e e' pivot : Equation Double} {es triangle : List (Equation Double)}

/-- The equations of `widen` are as long as there are unknowns, and all of their numbers are finite. -/
theorem UnitTriangular.of_mem_widen (h : UnitTriangular r triangle) :
    ∀ e ∈ widen triangle, e.coefficients.length = triangle.length ∧ e.values.length = r ∧
      (∀ x ∈ e.coefficients, x.Finite) ∧ ∀ y ∈ e.values, y.Finite := by
  induction h with
  | nil => exact fun e he => absurd he List.not_mem_nil
  | cons hlength hvalues hu hv _ ih =>
    refine List.forall_mem_cons.mpr ⟨⟨congrArg (· + 1) hlength, hvalues,
      List.forall_mem_cons.mpr ⟨rfl, hu⟩, hv⟩, fun e he => ?_⟩
    obtain ⟨e, he', rfl⟩ := List.mem_map.mp he
    obtain ⟨hlength', hvalues', hu', hv'⟩ := ih e he'
    exact ⟨congrArg (· + 1) hlength', hvalues', List.forall_mem_cons.mpr ⟨rfl, hu'⟩, hv'⟩

/-- An equation that is the same as one that leads with a one leads with a one itself. -/
theorem SameCoefficients.leading_eq_one (h : SameCoefficients e ⟨1 :: u, v⟩) : e.leading = 1 :=
  (SameNumber.eq_of_ne_zero (x := 1) h.leading.symm (by decide)).symm

/-- The coefficients behind the leading one are `SameCoefficients` as well. -/
theorem SameCoefficients.tail {x : Double} (h : SameCoefficients e ⟨x :: u, v⟩) :
    List.Forall₂ SameNumber e.coefficients.tail u := by
  obtain ⟨coefficients, values⟩ := e
  cases h with
  | cons _ hu => exact hu

/-- `reduce` takes nothing but the zero from an equation that starts with one. -/
theorem reduce_of_zero (hpivot : SameEquation pivot ⟨1 :: u, v⟩) (he : SameEquation e ⟨0 :: u', v'⟩)
    (hlength : u'.length = u.length) (hvalues : v'.length = v.length) (hu : ∀ x ∈ u, x.Finite)
    (hv : ∀ y ∈ v, y.Finite) (hu' : ∀ x ∈ u', x.Finite) (hv' : ∀ y ∈ v', y.Finite) :
    SameEquation (reduce pivot e) ⟨u', v'⟩ := by
  have hfactor : SameNumber (e.leading * (1 / pivot.leading)) (0 * 1) := by
    rw [hpivot.1.leading_eq_one, Double.one_div_one]
    exact he.1.leading.mul (.refl 1)
  have hzero : SameNumber (0 * 1) 0 := Double.Finite.zero_mul rfl
  constructor
  · exact .trans (forall₂_subtractMultiple hfactor he.1.tail hpivot.1.tail)
      (subtractMultiple_of_zero hzero hlength hu' hu)
  · exact .trans (forall₂_subtractMultiple hfactor he.2 hpivot.2)
      (subtractMultiple_of_zero hzero hvalues hv' hv)

/-- `resolve` finds the first unknown of equal systems alike. -/
theorem forall₂_resolve {solution solution' : List (List Double)} (h : SameEquation e ⟨1 :: u, v⟩)
    (hsolution : List.Forall₂ (List.Forall₂ SameNumber) solution solution') :
    List.Forall₂ SameNumber (resolve e solution) (resolve ⟨1 :: u, v⟩ solution') := by
  rw [resolve, h.1.leading_eq_one]
  refine forall₂_divideValues_one ?_
  refine List.rel_foldr (fun p p' hp w w' hw => ?_) h.2 (h.1.tail.zip hsolution)
  exact forall₂_subtractMultiple hp.1 hw hp.2

section Elimination

variable [Solver Double] [Solver.DoublePivots]

/-- The search of `pivotPlace` does not leave a one for zeros. -/
theorem pivotPlace_one (place next : Nat) (hes : ∀ e ∈ es, SameNumber e.leading 0) :
    pivotPlace 1 place next es = place := by
  induction es generalizing next with
  | nil => rfl
  | cons e es ih =>
    obtain ⟨he, hes⟩ := List.forall_mem_cons.mp hes
    have hfinite : e.leading.Finite := he.isFinite_eq
    have hsmaller : Solver.smaller 1 e.leading = false := by
      rw [Bool.eq_false_iff, ne_eq, Double.smaller_iff 1 _ rfl hfinite]
      rw [← Double.natAbs_ordinal e.leading, he.congr Double.ordinal fun a => by cases a <;> rfl]
      decide
    rw [pivotPlace, hsmaller]
    exact ih (next + 1) hes

/-- `eliminate` leaves a unitriangular system as it is. -/
theorem eliminate_widen (h : UnitTriangular r triangle) (hes : List.Forall₂ SameEquation es (widen triangle)) :
    ∃ solution, eliminate triangle.length es = .ok solution ∧
      List.Forall₂ (List.Forall₂ SameNumber) solution (solveTriangular triangle) := by
  -- Each step takes the first equation for the pivot and the zeros in front of the others.
  induction h generalizing es with
  | nil => exact ⟨[], rfl, .nil⟩
  | @cons u v rest hlength hvalues hu hv hrest ih =>
    cases hes with
    | @cons pivot _ es _ hpivot hes =>
      rw [List.forall₂_map_right_iff] at hes
      have hleading := hpivot.1.leading_eq_one
      have hzeros : ∀ e ∈ es, SameNumber e.leading 0 := fun e he => by
        obtain ⟨e', -, he'⟩ := hes.exists_of_mem_left he
        exact he'.1.leading
      -- No equation further down has a larger leading coefficient than one.
      have hexchange : exchangePivot (pivot :: es) = some (pivot, es) := by
        rw [exchangePivot, hleading, pivotPlace_one 0 1 hzeros]
      have hreduced : List.Forall₂ SameEquation (es.map (reduce pivot)) (widen rest) := by
        have hback : List.Forall₂ (fun e' e => SameEquation e ⟨0 :: e'.coefficients, e'.values⟩) (widen rest) es :=
          hes.flip
        refine List.forall₂_map_left_iff.mpr (hback.flip_of_mem fun e' he' e he => ?_)
        obtain ⟨hlength', hvalues', hu', hv'⟩ := hrest.of_mem_widen e' he'
        exact reduce_of_zero hpivot he (hlength'.trans hlength.symm) (hvalues'.trans hvalues.symm) hu hv hu' hv'
      obtain ⟨solution, hsolution, hsame⟩ := ih hreduced
      have hnonzero : ((1 : Double) == 0) = false := by decide
      have hnormal : Solver.hasReciprocal (1 : Double) = true := by
        rw [Solver.DoublePivots.hasReciprocal_eq]
        decide
      refine ⟨resolve pivot solution :: solution, ?_, .cons (forall₂_resolve hpivot hsame) hsame⟩
      rw [List.length_cons, eliminate, hexchange]
      simp only [hleading, hnonzero, hnormal, hsolution]
      rfl

end Elimination

/-! ## Translations -/

/-- What elimination leaves of the equations of a translation. -/
def translationTriangle : List Double → (Nat → List Double) → List (Equation Double)
  | [], values => [⟨[1], values 0⟩]
  | x :: offsets, values =>
    ⟨1 :: (List.replicate offsets.length 0 ++ [x]), values 0⟩ ::
      translationTriangle offsets fun i => values (i + 1)

/-- The solution of the equations of a translation: multiples of the last values are taken away from the others. -/
def translationSolution (offsets : List Double) (values : Nat → List Double) : List (List Double) :=
  (List.range offsets.length).map (fun i =>
    subtractMultiple (offsets.getD i 0) (values i) (values offsets.length)) ++ [values offsets.length]

variable {offsets : List Double} {values : Nat → List Double}

/-- `translationTriangle` has an equation for each offset and one for the last unknown. -/
theorem length_translationTriangle (offsets : List Double) (values : Nat → List Double) :
    (translationTriangle offsets values).length = offsets.length + 1 := by
  induction offsets generalizing values with
  | nil => rfl
  | cons x offsets ih => exact congrArg (· + 1) (ih _)

/-- The equations of a translation are a `UnitTriangular` system, if all offsets are finite. -/
theorem unitTriangular_translationTriangle (hoffsets : ∀ x ∈ offsets, x.Finite)
    (hlength : ∀ i, i ≤ offsets.length → (values i).length = r)
    (hvalues : ∀ i, i ≤ offsets.length → ∀ y ∈ values i, y.Finite) :
    UnitTriangular r (translationTriangle offsets values) := by
  induction offsets generalizing values with
  | nil => exact .cons rfl (hlength 0 le_rfl) (fun x hx => absurd hx List.not_mem_nil) (hvalues 0 le_rfl) .nil
  | cons x offsets ih =>
    obtain ⟨hx, hoffsets⟩ := List.forall_mem_cons.mp hoffsets
    refine .cons ?_ (hlength 0 (Nat.zero_le _)) (fun y hy => ?_) (hvalues 0 (Nat.zero_le _))
      (ih hoffsets (fun i hi => hlength (i + 1) (Nat.succ_le_succ hi))
        fun i hi => hvalues (i + 1) (Nat.succ_le_succ hi))
    · rw [length_translationTriangle, List.length_append, List.length_replicate, List.length_singleton]
    · obtain hy | hy := List.mem_append.mp hy
      · obtain rfl := List.eq_of_mem_replicate hy
        exact Double.finite_zero
      · obtain rfl := List.mem_singleton.mp hy
        exact hx

/-- The rows of `translationMatrix`. -/
theorem row_translationMatrix (offsets : List Double) {i : Nat} (hi : i < offsets.length + 1) :
    (translationMatrix offsets).row i = (List.range (offsets.length + 1)).map fun j =>
      if i = j then 1 else if j = offsets.length then offsets.getD i 0 else 0 :=
  List.map_congr_left fun _ hj => Matrix.entry_ofFn hi (List.mem_range.mp hj)

/-- The first row of `translationMatrix` has its offset at the end. -/
theorem row_translationMatrix_zero (x : Double) (offsets : List Double) :
    (translationMatrix (x :: offsets)).row 0 = 1 :: (List.replicate offsets.length 0 ++ [x]) := by
  rw [row_translationMatrix _ (Nat.succ_pos _), List.range_succ_eq_map, List.map_cons, if_pos rfl, List.length_cons,
    List.map_map, List.range_succ, List.map_append, List.map_singleton]
  congr 2
  · refine List.eq_replicate_iff.mpr ⟨by simp, fun y hy => ?_⟩
    obtain ⟨j, hj, rfl⟩ := List.mem_map.mp hy
    have hj := List.mem_range.mp hj
    simp only [Function.comp_apply]
    rw [if_neg (by omega), if_neg (by omega)]
  · simp

/-- The other rows of `translationMatrix` are those of the translation by the other offsets. -/
theorem row_translationMatrix_succ (x : Double) (offsets : List Double) {i : Nat} (hi : i < offsets.length + 1) :
    (translationMatrix (x :: offsets)).row (i + 1) = 0 :: (translationMatrix offsets).row i := by
  rw [row_translationMatrix _ (Nat.succ_lt_succ hi), row_translationMatrix _ hi, List.range_succ_eq_map, List.map_cons,
    if_neg (Nat.succ_ne_zero i), List.length_cons, if_neg (Nat.succ_ne_zero _).symm, List.map_map]
  congr 1
  refine List.map_congr_left fun j _ => ?_
  simp only [Function.comp_apply, Nat.succ_eq_add_one, Nat.add_right_cancel_iff, List.getD_cons_succ]

/-- Widened, `translationTriangle` has the equations of `translationMatrix`. -/
theorem widen_translationTriangle (offsets : List Double) (values : Nat → List Double) :
    widen (translationTriangle offsets values) =
      (List.range (offsets.length + 1)).map fun i => ⟨(translationMatrix offsets).row i, values i⟩ := by
  induction offsets generalizing values with
  | nil => rfl
  | cons x offsets ih =>
    have hrange : List.range (offsets.length + 1 + 1) = 0 :: (List.range (offsets.length + 1)).map Nat.succ :=
      List.range_succ_eq_map
    rw [translationTriangle, widen, ih, List.map_map, List.length_cons, hrange, List.map_cons, List.map_map,
      row_translationMatrix_zero]
    congr 1
    refine List.map_congr_left fun i hi => ?_
    simp only [Function.comp_apply]
    rw [row_translationMatrix_succ x offsets (List.mem_range.mp hi)]

/-- With known unknowns that have the coefficient zero nothing is taken away. -/
theorem foldr_subtractMultiple_zero (v : List Double) {front : List (List Double)} (hv : ∀ y ∈ v, y.Finite)
    (hfront : ∀ w ∈ front, w.length = v.length ∧ ∀ y ∈ w, y.Finite) :
    List.Forall₂ SameNumber
      ((List.zip (List.replicate front.length 0) front).foldr (fun (a, w) v => subtractMultiple a v w) v) v := by
  induction front with
  | nil => exact List.forall₂_same.mpr fun y _ => .refl y
  | cons w front ih =>
    obtain ⟨⟨hlength, hw⟩, hfront⟩ := List.forall_mem_cons.mp hfront
    have hw' : List.Forall₂ SameNumber w w := List.forall₂_same.mpr fun y _ => .refl y
    exact .trans (forall₂_subtractMultiple (.refl 0) (ih hfront) hw')
      (subtractMultiple_of_zero (.refl 0) hlength.symm hv hw)

/-- `resolve` finds the first unknown of a translation: the last one is taken away first, and
    nothing after it. -/
theorem resolve_translation {x : Double} {first last : List Double} {front : List (List Double)}
    (hfirst : ∀ y ∈ subtractMultiple x first last, y.Finite)
    (hfront : ∀ w ∈ front, w.length = (subtractMultiple x first last).length ∧ ∀ y ∈ w, y.Finite) :
    List.Forall₂ SameNumber (resolve ⟨1 :: (List.replicate front.length 0 ++ [x]), first⟩ (front ++ [last]))
      (subtractMultiple x first last) := by
  have hzip : List.zip (List.replicate front.length 0 ++ [x]) (front ++ [last]) =
      List.zip (List.replicate front.length 0) front ++ [(x, last)] :=
    List.zip_append List.length_replicate
  have hzeros := foldr_subtractMultiple_zero _ hfirst hfront
  show List.Forall₂ SameNumber (divideValues 1 _) _
  rw [List.tail_cons, hzip, List.foldr_append]
  exact .trans (forall₂_divideValues_one hzeros) (divideValues_one hfirst)

/-- `translationSolution` has a further unknown in front for a further offset in front. -/
theorem translationSolution_cons (x : Double) (offsets : List Double) (values : Nat → List Double) :
    translationSolution (x :: offsets) values = subtractMultiple x (values 0) (values (offsets.length + 1)) ::
      translationSolution offsets fun i => values (i + 1) := by
  simp [translationSolution, List.range_succ_eq_map, Function.comp_def]

/-- The unknowns of `translationSolution`, of which the last one has the last values. -/
theorem exists_translationSolution_eq (hlength : ∀ i, i ≤ offsets.length → (values i).length = r) :
    ∃ front : List (List Double), translationSolution offsets values = front ++ [values offsets.length] ∧
      front.length = offsets.length ∧ ∀ w ∈ front, w.length = r := by
  refine ⟨_, rfl, by simp, ?_⟩
  intro w hw
  obtain ⟨i, hi, rfl⟩ := List.mem_map.mp hw
  have hi := List.mem_range.mp hi
  rw [subtractMultiple, List.length_zipWith, hlength i hi.le, hlength offsets.length le_rfl, Nat.min_self]

/-- Back substitution finds `translationSolution`. -/
theorem solveTriangular_translationTriangle (hlength : ∀ i, i ≤ offsets.length → (values i).length = r)
    (hvalues : ∀ y ∈ values offsets.length, y.Finite)
    (hsolution : ∀ w ∈ translationSolution offsets values, ∀ y ∈ w, y.Finite) :
    List.Forall₂ (List.Forall₂ SameNumber) (solveTriangular (translationTriangle offsets values))
      (translationSolution offsets values) := by
  induction offsets generalizing values with
  | nil => exact .cons (divideValues_one hvalues) .nil
  | cons x offsets ih =>
    rw [translationSolution_cons] at hsolution ⊢
    obtain ⟨hfirst, hothers⟩ := List.forall_mem_cons.mp hsolution
    have hlengths (i : Nat) (hi : i ≤ offsets.length) : (values (i + 1)).length = r :=
      hlength (i + 1) (Nat.succ_le_succ hi)
    have hrest := ih hlengths hvalues hothers
    refine .cons ?_ hrest
    -- The first unknown may be found from the exact values of the others.
    have hsame : SameEquation ⟨1 :: (List.replicate offsets.length 0 ++ [x]), values 0⟩
        ⟨1 :: (List.replicate offsets.length 0 ++ [x]), values 0⟩ :=
      ⟨List.forall₂_same.mpr fun y _ => .refl y, List.forall₂_same.mpr fun y _ => .refl y⟩
    refine .trans (forall₂_resolve hsame hrest) ?_
    obtain ⟨front, hfront, hcount, hsizes⟩ := exists_translationSolution_eq hlengths
    have hwidth : (subtractMultiple x (values 0) (values (offsets.length + 1))).length = r := by
      rw [subtractMultiple, List.length_zipWith, hlength 0 (Nat.zero_le _), hlengths _ le_rfl, Nat.min_self]
    rw [hfront] at hothers ⊢
    rw [← hcount]
    refine resolve_translation (hcount ▸ hfirst) ?_
    intro w hw
    exact ⟨(hsizes w hw).trans (hcount ▸ hwidth).symm, hothers w (List.mem_append_left _ hw)⟩

end Equation

/-! ## The inverse -/

namespace Matrix

open Equation

variable {a b m : Matrix Double} {offsets : List Double}

/-- Matrices that are `SameNumbers` have the same equations. -/
theorem SameNumbers.sameEquations (h : SameNumbers a b) (side : Matrix Double) :
    List.Forall₂ SameEquation (a.equations side) (b.equations side) := by
  refine List.Forall₂.and_iff.mpr ⟨h.equations side, ?_⟩
  unfold Matrix.equations
  rw [← h.rows_eq, List.forall₂_map_left_iff, List.forall₂_map_right_iff]
  exact List.forall₂_same.mpr fun i _ => List.forall₂_same.mpr fun y _ => .refl y

/-- Matrices with the same rows are `SameNumbers`. -/
theorem SameNumbers.of_rows {solution : List (List Double)}
    (h : List.Forall₂ (List.Forall₂ SameNumber) solution b.rowList) : SameNumbers (ofRows b.rows b.cols solution) b where
  rows_eq := rfl
  cols_eq := rfl
  entry i j hi hj := by
    have hi : i < b.rows := hi
    have hj : j < b.cols := hj
    have hrow := h.getElem? i
    have hentry : (b.row i).getD j 0 = b.entry i j := by simp [row, hj]
    rw [rowList, List.getElem?_map, List.getElem?_range hi] at hrow
    rw [entry_ofRows hi hj, List.getD_eq_getElem?_getD (l := solution), ← hentry]
    generalize solution[i]? = found at hrow ⊢
    cases hrow with
    | some hrow => exact Factors.sameNumber_getD hrow j

/-- The entries of `translationMatrix` by finite offsets are finite. -/
theorem finite_translationMatrix (hfinite : ∀ x ∈ offsets, x.Finite) {i j : Nat} (hi : i < offsets.length + 1)
    (hj : j < offsets.length + 1) : ((translationMatrix offsets).entry i j).Finite := by
  rw [translationMatrix, entry_ofFn hi hj]
  split_ifs with hij hlast
  · rfl
  · have hi : i < offsets.length := by omega
    rw [List.getD_eq_getElem _ _ hi]
    exact hfinite _ (List.getElem_mem hi)
  · rfl

/-- The identity less the multiples of its last row is the translation back. -/
theorem sameNumber_entry_translationBack (hfinite : ∀ x ∈ offsets, x.Finite) {i j : Nat} (hi : i < offsets.length)
    (hj : j < offsets.length + 1) :
    SameNumber ((eye (offsets.length + 1) (offsets.length + 1)).entry i j -
        offsets.getD i 0 * (eye (offsets.length + 1) (offsets.length + 1)).entry offsets.length j)
      ((translationMatrix (offsets.map (-·))).entry i j) := by
  have hlength : (offsets.map (-·)).length = offsets.length := List.length_map _
  have hx : (offsets.getD i 0).Finite := by
    rw [List.getD_eq_getElem _ _ hi]
    exact hfinite _ (List.getElem_mem hi)
  rw [entry_eye (by omega) hj, entry_eye (by omega) hj, translationMatrix, entry_ofFn (by omega) (by omega), hlength]
  -- In the last column the offset is taken away once, elsewhere a zero is.
  by_cases hlast : offsets.length = j
  · have hback : (offsets.map (-·)).getD i 0 = -offsets.getD i 0 := by simp [hi]
    rw [if_pos hlast, if_neg (by omega), if_neg (by omega), if_pos hlast.symm, hback]
    refine ((SameNumber.refl 0).sub hx.mul_one).trans (Double.sameNumber_of_ordinal_eq ?_)
    rw [Double.ordinal_sub_comm hx Double.finite_zero, Double.ordinal_sub_zero hx, Double.ordinal_neg]
  · have hzero : SameNumber (offsets.getD i 0 * 0) 0 := by
      obtain ⟨negative, hproduct⟩ := hx.exists_mul_signedZero false
      exact .inr ⟨negative, false, hproduct, rfl⟩
    rw [if_neg hlast, if_neg (Ne.symm hlast)]
    refine Double.Finite.sub_zero ?_ hzero
    split_ifs <;> rfl

/-- `translationSolution` for the identity is the translation back. -/
theorem translationSolution_eye (hfinite : ∀ x ∈ offsets, x.Finite) :
    List.Forall₂ (List.Forall₂ SameNumber)
      (translationSolution offsets (eye (offsets.length + 1) (offsets.length + 1)).row)
      (translationMatrix (offsets.map (-·))).rowList := by
  have hlength : (offsets.map (-·)).length = offsets.length := List.length_map _
  have hrow (i : Nat) : (translationMatrix (offsets.map (-·))).row i =
      (List.range (offsets.length + 1)).map ((translationMatrix (offsets.map (-·))).entry i) := by
    rw [row, show (translationMatrix (offsets.map (-·))).cols = offsets.length + 1 from congrArg (· + 1) hlength]
  have hrows : (translationMatrix (offsets.map (-·))).rowList =
      (List.range offsets.length).map (translationMatrix (offsets.map (-·))).row ++
        [(translationMatrix (offsets.map (-·))).row offsets.length] := by
    rw [rowList, show (translationMatrix (offsets.map (-·))).rows = offsets.length + 1 from congrArg (· + 1) hlength,
      List.range_succ, List.map_append, List.map_singleton]
  rw [translationSolution, hrows]
  -- The last row has no offset and stays that of the identity; the others get theirs.
  refine List.rel_append ?_ (.cons ?_ .nil)
  · rw [List.forall₂_map_left_iff, List.forall₂_map_right_iff]
    refine List.forall₂_same.mpr fun i hi => ?_
    rw [hrow, subtractMultiple, row, row, List.zipWith_map, List.zipWith_self, List.forall₂_map_left_iff,
      List.forall₂_map_right_iff]
    exact List.forall₂_same.mpr fun j hj =>
      sameNumber_entry_translationBack hfinite (List.mem_range.mp hi) (List.mem_range.mp hj)
  · rw [hrow, row, List.forall₂_map_left_iff, List.forall₂_map_right_iff]
    refine List.forall₂_same.mpr fun j hj => ?_
    have hj : j < offsets.length + 1 := List.mem_range.mp hj
    rw [entry_eye (by omega) hj, translationMatrix, entry_ofFn (by omega) (by omega), hlength]
    split_ifs with hlast
    · exact .refl 1
    · omega
    · exact .refl 0

variable [Solver Double] [Solver.DoublePivots]

/-- `eliminate` finds the rows of the translation back. -/
theorem exists_eliminate_translation (hfinite : ∀ x ∈ offsets, x.Finite)
    (h : SameNumbers m (translationMatrix offsets)) :
    ∃ solution, eliminate (offsets.length + 1) (m.equations (eye (offsets.length + 1) (offsets.length + 1))) =
        .ok solution ∧
      List.Forall₂ (List.Forall₂ SameNumber) solution (translationMatrix (offsets.map (-·))).rowList := by
  have hside (i : Nat) (hi : i ≤ offsets.length) (y : Double)
      (hy : y ∈ (eye (offsets.length + 1) (offsets.length + 1)).row i) : y.Finite := by
    obtain ⟨j, hj, rfl⟩ := List.mem_map.mp hy
    have hj : j < offsets.length + 1 := List.mem_range.mp hj
    rw [entry_eye (Nat.lt_succ_of_le hi) hj]
    split <;> rfl
  have hwidth (i : Nat) (_ : i ≤ offsets.length) :
      ((eye (offsets.length + 1) (offsets.length + 1) : Matrix Double).row i).length = offsets.length + 1 := by
    simp [row]
  have hequations := h.sameEquations (eye (offsets.length + 1) (offsets.length + 1))
  have hwiden : (translationMatrix offsets).equations (eye (offsets.length + 1) (offsets.length + 1)) =
      widen (translationTriangle offsets (eye (offsets.length + 1) (offsets.length + 1)).row) :=
    (widen_translationTriangle offsets _).symm
  rw [hwiden] at hequations
  obtain ⟨solution, hsolution, hsame⟩ :=
    eliminate_widen (unitTriangular_translationTriangle hfinite hwidth hside) hequations
  rw [length_translationTriangle] at hsolution
  -- No number that comes out is infinite, because the offsets of the translation back are not.
  have hback := translationSolution_eye hfinite
  have hbackFinite : ∀ w ∈ translationSolution offsets (eye (offsets.length + 1) (offsets.length + 1)).row,
      ∀ y ∈ w, y.Finite := by
    intro w hw y hy
    obtain ⟨row, hrow, hw⟩ := hback.exists_of_mem_left hw
    obtain ⟨z, hz, hyz⟩ := hw.exists_of_mem_left hy
    obtain ⟨i, hi, rfl⟩ := List.mem_map.mp hrow
    obtain ⟨j, hj, rfl⟩ := List.mem_map.mp hz
    have hfinite' : ∀ x ∈ offsets.map (-·), x.Finite := List.forall_mem_map.mpr fun x hx => (hfinite x hx).neg
    exact hyz.isFinite_eq.trans (finite_translationMatrix hfinite' (List.mem_range.mp hi) (List.mem_range.mp hj))
  have hsolved := solveTriangular_translationTriangle hwidth (hside offsets.length le_rfl) hbackFinite
  exact ⟨solution, hsolution, (hsame.trans hsolved).trans hback⟩

/-- If the solver lets its matrix through, `inverse` turns a translation into the translation back. -/
theorem inverse_translation (hfinite : ∀ x ∈ offsets, x.Finite) (h : SameNumbers m (translationMatrix offsets)) :
    (Solver.wellConditioned m = true →
        ∃ x, m.inverse = .ok x ∧ SameNumbers x (translationMatrix (offsets.map (-·)))) ∧
      (Solver.wellConditioned m = false → m.inverse = .error (.illConditioned m.rows m.cols)) := by
  obtain ⟨hrows, hcols⟩ : m.rows = offsets.length + 1 ∧ m.cols = offsets.length + 1 := ⟨h.rows_eq, h.cols_eq⟩
  have hall : m.elements.toList.all Solver.finite = true := by
    rw [funext Solver.DoublePivots.finite_eq]
    exact h.all_finite.trans (all_elements_iff.mpr fun i j hi hj => finite_translationMatrix hfinite hi hj)
  have hsquare : m.rows = m.cols := hrows.trans hcols.symm
  have hne : m.cols ≠ 0 := by omega
  have hchecked : Checked m (eye m.rows m.rows) := ⟨rfl, hne, hsquare.ge, hall⟩
  refine ⟨fun hcondition => ?_, hchecked.solve_of_illConditioned⟩
  -- Elimination solves for the identity, and the rows of the solution are those of the translation
  -- back.
  obtain ⟨solution, hsolution, hsame⟩ := exists_eliminate_translation hfinite h
  have hfound : eliminate m.cols (m.equations (eye m.rows m.rows)) = .ok solution := by
    rw [hrows, hcols, hsolution]
  have hsize : (translationMatrix (offsets.map (-·))).rows = m.cols ∧
      (translationMatrix (offsets.map (-·))).cols = (eye m.rows m.rows : Matrix Double).cols := by
    rw [hcols, cols_eye, hrows]
    exact ⟨congrArg (· + 1) (List.length_map _), congrArg (· + 1) (List.length_map _)⟩
  have hback := SameNumbers.of_rows hsame
  rw [hsize.1, hsize.2] at hback
  exact ⟨_, hchecked.solve_eq_ok hcondition (.elimination hsquare hfound), hback⟩

end Matrix

end Georef

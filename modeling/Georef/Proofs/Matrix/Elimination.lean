import Georef.Matrix.System
import Georef.Proofs.List
import Mathlib.Algebra.Order.Field.Basic
import Mathlib.Data.List.GetD
import Mathlib.Tactic.FieldSimp
import Mathlib.Tactic.Ring

/-!
# Elimination over exact numbers

Elimination takes the first unknown out of all equations but one, solves what is left, and finds the first
unknown from the equation it has kept. Over exact numbers the equations that are left hold exactly if the
ones they come from do, so the values found solve all equations; and where elimination stops for want of a
pivot, the equations do not determine their unknowns.

## Key results

- `exists_exchangePivot`: the pivot is an equation with a largest leading coefficient, and no equation is
  lost
- `eliminate_sound`: the values found solve every equation for every right side
- `exists_of_eliminate_eq_error`: if there are none, some values other than zero solve all equations with
  zeros on the right
-/

namespace Georef

/-- Numbers are compared by their absolute values, and all of them but zero have a reciprocal. -/
class Solver.ExactPivots (K : Type) [Field K] [LinearOrder K] [Solver K] : Prop where
  smaller_iff (x y : K) : Solver.smaller x y = true ↔ |x| < |y|
  hasReciprocal {x : K} : x ≠ 0 → Solver.hasReciprocal x = true

namespace Equation

/-! ## Sums of products -/

section Dot

variable {K : Type} [Field K]

/-- The sum of the products of coefficients and values. -/
def dot (u x : List K) : K := (List.zipWith (· * ·) u x).sum

/-- `dot` starts with the product of the first elements. -/
@[simp] theorem dot_cons (a y : K) (u x : List K) : dot (a :: u) (y :: x) = a * y + dot u x := by
  simp [dot]

/-- `dot` as a sum over the places of the coefficients. -/
theorem dot_eq_sum (u x : List K) :
    dot u x = ∑ k ∈ Finset.range u.length, u.getD k 0 * x.getD k 0 := by
  induction u generalizing x with
  | nil => simp [dot]
  | cons a u ih =>
    rw [List.length_cons, Finset.sum_range_succ']
    cases x with
    | nil => simp [dot]
    | cons y x => simp [ih x, add_comm]

/-- `subtractMultiple` keeps the length. -/
@[simp] theorem length_subtractMultiple (factor : K) {u v : List K} (h : u.length = v.length) :
    (subtractMultiple factor u v).length = u.length := by
  simp [subtractMultiple, h]

/-- `dot` is linear in the coefficients. -/
theorem dot_subtractMultiple (factor : K) {u v : List K} (h : u.length = v.length) (x : List K) :
    dot (subtractMultiple factor u v) x = dot u x - factor * dot v x := by
  induction u generalizing v x with
  | nil =>
    obtain rfl := List.length_eq_zero_iff.mp h.symm
    simp [dot, subtractMultiple]
  | cons a u ih =>
    obtain ⟨b, v, rfl⟩ := List.exists_cons_of_length_eq_add_one h.symm
    cases x with
    | nil => simp [dot]
    | cons y x =>
      have hrest := ih (Nat.succ.inj h) x
      rw [subtractMultiple] at hrest ⊢
      rw [List.zipWith_cons_cons, dot_cons, dot_cons, dot_cons, hrest]
      ring

/-- `subtractMultiple` place by place. -/
theorem getD_subtractMultiple (factor : K) {u v : List K} (h : u.length = v.length) (c : Nat) :
    (subtractMultiple factor u v).getD c 0 = u.getD c 0 - factor * v.getD c 0 := by
  by_cases hc : c < u.length
  · have hc' : c < v.length := h ▸ hc
    simp [subtractMultiple, hc, hc']
  · have hc' : ¬c < v.length := h ▸ hc
    simp [subtractMultiple, hc, hc']

end Dot

/-! ## The pivot -/

section Pivot

variable {α : Type} [Zero α] [Solver α]

section Size

-- Numbers are compared by their sizes, as long as they have the property `P`.
variable {κ : Type} [LinearOrder κ] {size : α → κ} {P : α → Prop}
  (hsmaller : ∀ x y, P x → P y → (Solver.smaller x y = true ↔ size x < size y))

include hsmaller

/-- The search of `pivotPlace` ends at the best equation so far, or at a better one further on. -/
theorem pivotPlace_spec {best : α} (place next : Nat) {es : List (Equation α)} (hbest : P best)
    (hes : ∀ e ∈ es, P e.leading) :
    (pivotPlace best place next es = place ∧ ∀ e ∈ es, size e.leading ≤ size best) ∨
      ∃ k, ∃ h : k < es.length, pivotPlace best place next es = next + k ∧
        size best ≤ size es[k].leading ∧ ∀ e ∈ es, size e.leading ≤ size es[k].leading := by
  induction es generalizing best place next with
  | nil => exact .inl ⟨rfl, fun e he => absurd he List.not_mem_nil⟩
  | cons e es ih =>
    obtain ⟨he, hes'⟩ := List.forall_mem_cons.mp hes
    rw [pivotPlace]
    split
    -- The search goes on from the better equation `e`, which may stay the best.
    · rename_i hcompared
      have hlt : size best < size e.leading := (hsmaller _ _ hbest he).mp hcompared
      obtain ⟨hplace, hle⟩ | ⟨k, hk, hplace, hbest, hle⟩ := ih next (next + 1) he hes'
      · exact .inr ⟨0, Nat.succ_pos _, hplace, hlt.le, List.forall_mem_cons.mpr ⟨le_rfl, hle⟩⟩
      · refine .inr ⟨k + 1, Nat.succ_lt_succ hk, hplace.trans (Nat.succ_add_eq_add_succ _ _),
          hlt.le.trans hbest, List.forall_mem_cons.mpr ⟨hbest, hle⟩⟩
    -- An equation that is not better changes nothing but the place.
    · rename_i hcompared
      have hge : size e.leading ≤ size best :=
        not_lt.mp fun hlt => hcompared ((hsmaller _ _ hbest he).mpr hlt)
      obtain ⟨hplace, hle⟩ | ⟨k, hk, hplace, hbest, hle⟩ := ih place (next + 1) hbest hes'
      · exact .inl ⟨hplace, List.forall_mem_cons.mpr ⟨hge, hle⟩⟩
      · exact .inr ⟨k + 1, Nat.succ_lt_succ hk, hplace.trans (Nat.succ_add_eq_add_succ _ _), hbest,
          List.forall_mem_cons.mpr ⟨hge.trans hbest, hle⟩⟩

/-- `exchangePivot` finds a pivot in every system with an equation: none of the equations is lost,
    and none has a larger leading coefficient. -/
theorem exists_exchangePivot_of_size {es : List (Equation α)} (hne : es ≠ [])
    (hes : ∀ e ∈ es, P e.leading) :
    ∃ pivot rest, exchangePivot es = some (pivot, rest) ∧ (pivot :: rest).Perm es ∧
      ∀ e ∈ es, size e.leading ≤ size pivot.leading := by
  obtain ⟨first, others, rfl⟩ := List.exists_cons_of_ne_nil hne
  obtain ⟨hfirst, hothers⟩ := List.forall_mem_cons.mp hes
  rw [exchangePivot]
  obtain ⟨hplace, hle⟩ | ⟨k, hk, hplace, hbest, hle⟩ := pivotPlace_spec hsmaller 0 1 hfirst hothers
  · rw [hplace]
    exact ⟨first, others, rfl, .refl _, List.forall_mem_cons.mpr ⟨le_rfl, hle⟩⟩
  · rw [hplace, Nat.add_comm]
    refine ⟨others[k], others.set k first, by simp [hk], ?_, List.forall_mem_cons.mpr ⟨hbest, hle⟩⟩
    -- The pivot and the first equation have exchanged their places.
    calc (others[k] :: others.set k first).Perm (others[k] :: first :: others.eraseIdx k) :=
          (List.set_perm_cons_eraseIdx hk first).cons _
      _ |>.Perm (first :: others[k] :: others.eraseIdx k) := .swap _ _ _
      _ |>.Perm (first :: others) := (List.getElem_cons_eraseIdx_perm hk).cons _

end Size

/-- Exact numbers are compared by their absolute values, so `exchangePivot` finds an equation with
    the largest one. -/
theorem exists_exchangePivot {K : Type} [Field K] [LinearOrder K] [Solver K] [Solver.ExactPivots K]
    {es : List (Equation K)} (hne : es ≠ []) :
    ∃ pivot rest, exchangePivot es = some (pivot, rest) ∧ (pivot :: rest).Perm es ∧
      ∀ e ∈ es, |e.leading| ≤ |pivot.leading| :=
  exists_exchangePivot_of_size (P := fun _ => True)
    (fun x y _ _ => Solver.ExactPivots.smaller_iff x y) hne fun _ _ => trivial

end Pivot

/-! ## One step -/

section Step

variable {K : Type} [Field K] {n r : Nat} {pivot e : Equation K}

/-- Every equation has `n` coefficients and `r` values. -/
def Sized (n r : Nat) (es : List (Equation K)) : Prop :=
  ∀ e ∈ es, e.coefficients.length = n ∧ e.values.length = r

/-- `dot` with the leading coefficient taken apart. -/
private theorem dot_coefficients (he : e.coefficients.length = n + 1) (y : K) (x : List K) :
    dot e.coefficients (y :: x) = e.leading * y + dot e.coefficients.tail x := by
  obtain ⟨a, u, hcons⟩ := List.exists_cons_of_length_eq_add_one he
  simp [leading, hcons]

omit [Field K] in
/-- Equations of one length leave tails of one length. -/
private theorem length_tails (hpivot : pivot.coefficients.length = n + 1)
    (he : e.coefficients.length = n + 1) :
    e.coefficients.tail.length = pivot.coefficients.tail.length := by
  rw [List.length_tail, List.length_tail, hpivot, he]

/-- What `reduce` leaves is the equation less a multiple of the pivot equation; the first unknown
    has dropped out of it. -/
theorem dot_reduce (hleading : pivot.leading ≠ 0) (hpivot : pivot.coefficients.length = n + 1)
    (he : e.coefficients.length = n + 1) (y : K) (x : List K) :
    dot (reduce pivot e).coefficients x = dot e.coefficients (y :: x) -
      e.leading * (1 / pivot.leading) * dot pivot.coefficients (y :: x) := by
  rw [reduce, dot_subtractMultiple _ (length_tails hpivot he), dot_coefficients he,
    dot_coefficients hpivot]
  field_simp
  ring

/-- `reduce` does the same with the values. -/
theorem getD_reduce_values (hvalues : e.values.length = pivot.values.length) (c : Nat) :
    (reduce pivot e).values.getD c 0 =
      e.values.getD c 0 - e.leading * (1 / pivot.leading) * pivot.values.getD c 0 :=
  getD_subtractMultiple _ hvalues c

/-- `reduce` takes an unknown out of every equation and keeps the number of values. -/
theorem Sized.reduce {rest : List (Equation K)} (h : Sized (n + 1) r (pivot :: rest)) :
    Sized n r (rest.map (reduce pivot)) := by
  obtain ⟨⟨hpivot, hvalues⟩, hrest⟩ := List.forall_mem_cons.mp h
  intro e he
  obtain ⟨e', he', rfl⟩ := List.mem_map.mp he
  obtain ⟨hcoefficients, hvalues'⟩ := hrest e' he'
  refine ⟨?_, ?_⟩
  · show (subtractMultiple _ e'.coefficients.tail pivot.coefficients.tail).length = n
    rw [length_subtractMultiple _ (length_tails hpivot hcoefficients), List.length_tail,
      hcoefficients, Nat.add_sub_cancel]
  · exact (length_subtractMultiple _ (hvalues'.trans hvalues.symm)).trans hvalues'

/-! ## Finding the first unknown -/

/-- `divideValues` place by place. -/
private theorem getD_divideValues (a : K) (values : List K) (c : Nat) :
    (divideValues a values).getD c 0 = values.getD c 0 / a := by
  unfold divideValues
  split
  · cases c <;> simp
  · simp only [List.getD_eq_getElem?_getD, List.getElem?_map]
    cases values[c]? <;> simp [div_eq_mul_inv]

/-- `divideValues` keeps the number of values. -/
private theorem length_divideValues (a : K) (values : List K) :
    (divideValues a values).length = values.length := by
  unfold divideValues
  split <;> simp

/-- Taking the known unknowns away from the values of an equation, the last one first. -/
private theorem foldr_subtractMultiple_spec (u : List K) (values : List K) {xs : List (List K)}
    (hxs : ∀ x ∈ xs, x.length = values.length) :
    let remaining := (List.zip u xs).foldr
      (fun (a, x) values => subtractMultiple a values x) values
    remaining.length = values.length ∧
      ∀ c, remaining.getD c 0 = values.getD c 0 - dot u (xs.map (·.getD c 0)) := by
  induction u generalizing xs with
  | nil => simp [dot]
  | cons a u ih =>
    cases xs with
    | nil => simp [dot]
    | cons x xs =>
      obtain ⟨hx, hxs'⟩ := List.forall_mem_cons.mp hxs
      obtain ⟨hlength, hgetD⟩ := ih hxs'
      have hsame := hlength.trans hx.symm
      refine ⟨(length_subtractMultiple a hsame).trans hlength, fun c => ?_⟩
      -- The multiple taken away last is that of the first row.
      refine (getD_subtractMultiple a hsame c).trans ?_
      rw [hgetD, List.map_cons, dot_cons]
      ring

/-- The values that `resolve` finds for the first unknown solve the pivot equation. -/
theorem dot_resolve (hleading : pivot.leading ≠ 0) (hpivot : pivot.coefficients.length = n + 1)
    {solution : List (List K)} (hsolution : ∀ x ∈ solution, x.length = pivot.values.length)
    (c : Nat) :
    dot pivot.coefficients ((resolve pivot solution :: solution).map (·.getD c 0)) =
      pivot.values.getD c 0 := by
  obtain ⟨-, hgetD⟩ := foldr_subtractMultiple_spec pivot.coefficients.tail pivot.values hsolution
  rw [List.map_cons, dot_coefficients hpivot, resolve, getD_divideValues, hgetD]
  field_simp
  ring

/-- `resolve` finds a value for each right side. -/
theorem length_resolve {solution : List (List K)}
    (hsolution : ∀ x ∈ solution, x.length = pivot.values.length) :
    (resolve pivot solution).length = pivot.values.length :=
  (length_divideValues _ _).trans
    (foldr_subtractMultiple_spec pivot.coefficients.tail pivot.values hsolution).1

end Step

/-! ## Elimination -/

section Eliminate

variable {K : Type} [Field K] [LinearOrder K] [IsStrictOrderedRing K] [Solver K]
  [Solver.ExactPivots K] {n r : Nat} {es : List (Equation K)}

/-- What `eliminate` does with at least one unknown: it stops if all leading coefficients are zero,
    else it solves the reduced equations and goes on from there. -/
theorem eliminate_succ (hlength : es.length = n + 1) :
    (eliminate (n + 1) es = .error .zero ∧ ∀ e ∈ es, e.leading = 0) ∨
      ∃ pivot rest, (pivot :: rest).Perm es ∧ rest.length = n ∧ pivot.leading ≠ 0 ∧
        eliminate (n + 1) es = (do
          let solution ← eliminate n (rest.map (reduce pivot))
          return resolve pivot solution :: solution) := by
  have hne : es ≠ [] := by
    rintro rfl
    exact nomatch hlength
  obtain ⟨pivot, rest, hexchange, hperm, hle⟩ := exists_exchangePivot hne
  rw [eliminate, hexchange]
  by_cases hleading : pivot.leading = 0
  · left
    refine ⟨by simp [hleading], fun e he => ?_⟩
    -- A pivot of zero is the largest of the leading coefficients.
    have habs := hle e he
    rw [hleading, abs_zero] at habs
    exact abs_eq_zero.mp (le_antisymm habs (abs_nonneg _))
  · right
    refine ⟨pivot, rest, hperm, Nat.succ.inj (hperm.length_eq.trans hlength), hleading, ?_⟩
    simp [hleading, Solver.ExactPivots.hasReciprocal hleading]

/-- `eliminate` finds values for all unknowns, and they solve every equation. -/
theorem eliminate_sound {solution : List (List K)} (hsized : Sized n r es) (hlength : es.length = n)
    (h : eliminate n es = .ok solution) :
    solution.length = n ∧ (∀ x ∈ solution, x.length = r) ∧
      ∀ e ∈ es, ∀ c, dot e.coefficients (solution.map (·.getD c 0)) = e.values.getD c 0 := by
  induction n generalizing es solution with
  | zero =>
    obtain rfl := List.length_eq_zero_iff.mp hlength
    obtain rfl : [] = solution := Except.ok.inj h
    exact ⟨rfl, fun x hx => absurd hx List.not_mem_nil, fun e he => absurd he List.not_mem_nil⟩
  | succ n ih =>
    obtain ⟨herror, -⟩ | ⟨pivot, rest, hperm, hcount, hleading, hstep⟩ :=
      eliminate_succ hlength
    · rw [herror] at h
      exact nomatch h
    have hsized' : Sized (n + 1) r (pivot :: rest) := fun e he => hsized e (hperm.subset he)
    obtain ⟨⟨hpivot, hvalues⟩, hrest⟩ := List.forall_mem_cons.mp hsized'
    cases hreduced : eliminate n (rest.map (reduce pivot)) with
    | error fault => rw [hstep, hreduced] at h; exact nomatch h
    | ok found =>
      rw [hstep, hreduced] at h
      obtain rfl : resolve pivot found :: found = solution := Except.ok.inj h
      have hlength' : (rest.map (reduce pivot)).length = n := by rw [List.length_map, hcount]
      obtain ⟨hfound, hrows, hsolved⟩ := ih hsized'.reduce hlength' hreduced
      have hrows' : ∀ x ∈ found, x.length = pivot.values.length :=
        fun x hx => (hrows x hx).trans hvalues.symm
      refine ⟨by rw [List.length_cons, hfound], List.forall_mem_cons.mpr
        ⟨(length_resolve hrows').trans hvalues, hrows⟩, fun e he c => ?_⟩
      -- Every other equation is its reduced one plus a multiple of the pivot equation, and both are solved.
      have hpivotSolved := dot_resolve hleading hpivot hrows' c
      obtain rfl | he := List.mem_cons.mp (hperm.symm.subset he)
      · exact hpivotSolved
      · obtain ⟨hcoefficients, hvalues'⟩ := hrest e he
        have hreducedSolved := hsolved _ (List.mem_map_of_mem he) c
        rw [dot_reduce hleading hpivot hcoefficients ((resolve pivot found).getD c 0),
          getD_reduce_values (hvalues'.trans hvalues.symm)] at hreducedSolved
        rw [List.map_cons] at hpivotSolved ⊢
        rw [hpivotSolved] at hreducedSolved
        exact sub_left_injective hreducedSolved

/-- If `eliminate` stops, other values than zero solve all equations with zeros on the right. -/
theorem exists_of_eliminate_eq_error {fault : PivotFault} (hsized : Sized n r es)
    (hlength : es.length = n) (h : eliminate n es = .error fault) :
    ∃ x : List K, x.length = n ∧ (∃ y ∈ x, y ≠ 0) ∧ ∀ e ∈ es, dot e.coefficients x = 0 := by
  induction n generalizing es fault with
  | zero => exact nomatch h
  | succ n ih =>
    obtain ⟨-, hzero⟩ | ⟨pivot, rest, hperm, hcount, hleading, hstep⟩ :=
      eliminate_succ hlength
    · -- Nothing is asked of the first unknown.
      refine ⟨1 :: List.replicate n 0, by simp, ⟨1, List.mem_cons_self, one_ne_zero⟩, fun e he => ?_⟩
      rw [dot_coefficients (hsized e he).1, hzero e he, zero_mul, zero_add, dot_eq_sum]
      exact Finset.sum_eq_zero fun k _ =>
        mul_eq_zero_of_right _ (List.getElem?_getD_replicate_default_eq 0 n k)
    have hsized' : Sized (n + 1) r (pivot :: rest) := fun e he => hsized e (hperm.subset he)
    obtain ⟨⟨hpivot, -⟩, hrest⟩ := List.forall_mem_cons.mp hsized'
    -- It stopped in the reduced equations, whose values give those of all.
    cases hreduced : eliminate n (rest.map (reduce pivot)) with
    | ok found => rw [hstep, hreduced] at h; exact nomatch h
    | error fault' =>
      have hlength' : (rest.map (reduce pivot)).length = n := by rw [List.length_map, hcount]
      obtain ⟨x, hx, ⟨y, hy, hne⟩, hsolved⟩ := ih hsized'.reduce hlength' hreduced
      -- The pivot equation gives the first unknown.
      let first := -dot pivot.coefficients.tail x / pivot.leading
      have hpivotSolved : dot pivot.coefficients (first :: x) = 0 := by
        rw [dot_coefficients hpivot]
        simp only [first]
        field_simp
        ring
      refine ⟨first :: x, by rw [List.length_cons, hx], ⟨y, List.mem_cons_of_mem _ hy, hne⟩,
        fun e he => ?_⟩
      obtain rfl | he := List.mem_cons.mp (hperm.symm.subset he)
      · exact hpivotSolved
      · have hreducedSolved := hsolved _ (List.mem_map_of_mem he)
        rw [dot_reduce hleading hpivot (hrest e he).1 first, hpivotSolved, mul_zero,
          sub_zero] at hreducedSolved
        exact hreducedSolved

end Eliminate

end Equation

end Georef

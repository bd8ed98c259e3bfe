import Georef.Proofs.Double.Bounds
import Georef.Proofs.Matrix.AffineFactors
import Georef.Proofs.Matrix.SingularBounds

/-!
# Bounds for affine systems

An affine matrix takes some column to one that is not longer: one that all rows but the last take to zero. So its
smallest singular value is not above one, and if it is well-conditioned, none of its entries is above the threshold
for condition numbers. What elimination divides by is never smaller than what it divides, so each of its steps doubles
the size of its numbers only a few times, and for matrices that are not very large all of them are finite.

## Key results

- `Matrix.upTo_of_wellConditioned`: the entries of well-conditioned affine matrices are not large
- `Matrix.finitePivots_of_upTo`: the numbers of elimination row by row are finite
- `Matrix.finiteFactors_of_upTo`: the numbers of elimination column by column are finite
-/

namespace Georef

namespace Equation

open Double (UpTo)

variable {a b e n : Nat}

/-- Multiples that are not above two make numbers one bit longer than they are. -/
theorem upTo_subtractMultiple {factor : Double} {u v : List Double} (hfactor : factor.UpTo 1023)
    (hu : ∀ x ∈ u, x.UpTo a) (hv : ∀ y ∈ v, y.UpTo b) (hle : b + 1 ≤ a) (ha : a + 1 < 2046) :
    ∀ x ∈ subtractMultiple factor u v, x.UpTo (a + 1) := by
  intro z hz
  obtain ⟨x, hx, y, hy, rfl⟩ := List.exists_of_mem_zipWith hz
  have hproduct : (factor * y).UpTo a := hfactor.mul (hv y hy) (by omega) (by omega)
  exact (hu x hx).sub hproduct ha

/-- No number of the equation is above a power of two. -/
structure Bounded (e : Nat) (q : Equation Double) : Prop where
  coefficients : ∀ x ∈ q.coefficients, x.UpTo e
  values : ∀ x ∈ q.values, x.UpTo e

/-- The leading coefficient of a `Bounded` equation. -/
theorem Bounded.leading {q : Equation Double} (h : q.Bounded e) (he : e < 2046) : q.leading.UpTo e := by
  obtain ⟨coefficients, values⟩ := q
  cases coefficients with
  | nil => exact .signedZero false he
  | cons x _ => exact h.coefficients x List.mem_cons_self

/-- `reduce` makes numbers two bits longer. -/
theorem Bounded.reduce {pivot q : Equation Double} (hpivot : pivot.Bounded e) (hq : q.Bounded e)
    (hnormal : pivot.leading.isNormal = true) (hle : q.leading.magnitude ≤ pivot.leading.magnitude)
    (he : e + 2 < 2046) : (reduce pivot q).Bounded (e + 2) := by
  have hfactor : (q.leading * (1 / pivot.leading)).UpTo 1023 :=
    (hpivot.leading (by omega)).mul_one_div (by omega) hnormal hle
  constructor
  · refine upTo_subtractMultiple hfactor (a := e + 1) ?_ ?_ le_rfl he
    · exact fun x hx => (hq.coefficients x (List.mem_of_mem_tail hx)).mono (by omega) (by omega)
    · exact fun x hx => hpivot.coefficients x (List.mem_of_mem_tail hx)
  · refine upTo_subtractMultiple hfactor (a := e + 1) ?_ hpivot.values le_rfl he
    exact fun x hx => (hq.values x hx).mono (by omega) (by omega)

/-- All numbers of `eliminate` are finite if there are not too many steps. -/
theorem finitePivots_of_bounded {es : List (Equation Double)} {solution : List (List Double)}
    (hes : ∀ q ∈ es, q.Bounded e) (he : e + 2 * n < 2046) (h : eliminate n es = .ok solution) : FinitePivots n es := by
  induction n generalizing es e solution with
  | zero => trivial
  | succ n ih =>
    obtain ⟨pivot, rest, others, hexchange, hreciprocal, hothers, rfl⟩ := exists_of_eliminate_succ h
    intro pivot' rest' hexchange'
    rw [hexchange] at hexchange'
    cases hexchange'
    have hleading : ∀ q ∈ es, q.leading.Finite := fun q hq => ((hes q hq).leading (by omega)).finite
    have hne : es ≠ [] := by
      rintro rfl
      cases hexchange
    obtain ⟨pivot', rest', hexchange', hperm, hlargest⟩ :=
      exists_exchangePivot_of_size Double.smaller_iff hne hleading
    rw [hexchange] at hexchange'
    cases hexchange'
    -- No leading number is larger than that of the pivot, so no multiple is above two.
    have hpivot := hes pivot (hperm.subset List.mem_cons_self)
    refine ⟨⟨Double.finite_one_div hreciprocal, ?_, ?_⟩, ih (e := e + 2) ?_ (by omega) hothers⟩
    · exact fun x hx => (hpivot.coefficients x hx).finite
    · exact fun x hx => (hpivot.values x hx).finite
    · intro reduced hreduced
      obtain ⟨q, hq, rfl⟩ := List.mem_map.mp hreduced
      have hq := hperm.subset (List.mem_cons_of_mem _ hq)
      exact hpivot.reduce (hes q hq) hreciprocal (hlargest q hq) (by omega)

end Equation

namespace Factors

open Double (UpTo)
open LeastSquares (productSum)

variable {e n : Nat} {f f' : Factors}

/-! ## Lists that grow -/

/-- A list that grows by an element for each element of another one: what holds of an element when
    it is added and goes on holding of it, holds of all elements in the end. -/
theorem forall_mem_foldl_append {α β : Type} {g : List β → α → β} {P : Nat → β → Prop} {Q : Nat → α → Prop}
    (hmono : ∀ k y, P k y → P (k + 1) y)
    (hstep : ∀ above x, (∀ y ∈ above, P above.length y) → Q above.length x → P (above.length + 1) (g above x))
    {l : List α} (above : List β) (hl : ∀ i x, l[i]? = some x → Q (above.length + i) x)
    (habove : ∀ y ∈ above, P above.length y) :
    ∀ y ∈ l.foldl (fun above x => above ++ [g above x]) above, P (above.length + l.length) y := by
  induction l generalizing above with
  | nil => exact habove
  | cons x l ih =>
    have hlength : (above ++ [g above x]).length = above.length + 1 := by simp
    rw [List.foldl_cons, List.length_cons, Nat.add_comm l.length, ← Nat.add_assoc, ← hlength]
    refine ih _ (fun i y hy => ?_) ?_
    · rw [hlength, Nat.add_assoc, Nat.add_comm 1]
      exact hl (i + 1) y (by simpa using hy)
    · rw [hlength, List.forall_mem_append]
      exact ⟨fun y hy => hmono _ y (habove y hy), by simpa using hstep above x habove (hl 0 x rfl)⟩

/-! ## What is left of a column -/

/-- A sum is `UpTo` a bit more for each number added. -/
theorem upTo_foldl_add {l : List Double} {sum : Double} (hsum : sum.UpTo e) (hl : ∀ x ∈ l, x.UpTo e)
    (he : e + l.length < 2046) : (l.foldl (· + ·) sum).UpTo (e + l.length) := by
  induction l generalizing sum e with
  | nil => exact hsum
  | cons x l ih =>
    obtain ⟨hx, hl⟩ := List.forall_mem_cons.mp hl
    rw [List.length_cons] at he ⊢
    rw [List.foldl_cons, Nat.add_comm l.length, ← Nat.add_assoc]
    exact ih (hsum.add hx (by omega)) (fun y hy => (hl y hy).mono (by omega) (by omega)) (by omega)

/-- The multiples of the first entries are not above two. -/
def SmallBefore (place : Nat) (multiples : List Double) : Prop := ∀ c < place, (multiples.getD c 0).UpTo 1023

/-- `remainder` has a bit more for each entry above it, and two for itself. -/
theorem upTo_remainder {multiples above : List Double} {x : Double} (hmultiples : SmallBefore above.length multiples)
    (habove : ∀ y ∈ above, y.UpTo e) (hx : x.UpTo e) (he : e + above.length + 2 < 2046) :
    (remainder multiples above x).UpTo (e + above.length + 2) := by
  unfold remainder
  split
  · exact hx.mono (by omega) he
  · have hlength : (List.zipWith (· * ·) multiples above).length ≤ above.length := by simp
    -- Every product has a multiple that is not above two as its factor.
    have hproducts : ∀ z ∈ List.zipWith (· * ·) multiples above, z.UpTo (e + 1) := by
      intro z hz
      obtain ⟨i, hi⟩ := List.getElem?_of_mem hz
      obtain ⟨m, y, hm, hy, rfl⟩ := List.getElem?_zipWith_eq_some.mp hi
      have hsmall := hmultiples i (List.getElem?_eq_some_iff.mp hy).1
      rw [List.getD_eq_getElem?_getD, hm] at hsmall
      exact hsmall.mul (habove y (List.mem_of_getElem? hy)) (by omega) (by omega)
    have hsum := upTo_foldl_add (.signedZero false (by omega)) hproducts (by omega)
    exact (hx.mono (by omega) (by omega)).sub (hsum.mono (b := e + above.length + 1) (by omega) (by omega)) (by omega)

/-- The multiples found so far are not above two: in each row those before its place. -/
structure SmallMultiples (f : Factors) : Prop where
  length : ∀ row ∈ f.rows, row.length = f.exchanges.length
  multiples : ∀ i, SmallBefore i (f.rows.getD i [])

/-- A pair of elements of two lists at the same place. -/
theorem getElem?_zip_getD {rows : List (List Double)} {β : Type} {u : List β} {i : Nat} {row : List Double} {x : β}
    (h : (List.zip rows u)[i]? = some (row, x)) : row = rows.getD i [] ∧ x ∈ u := by
  obtain ⟨hrow, hx⟩ := List.getElem?_zip_eq_some.mp h
  refine ⟨?_, List.mem_of_getElem? hx⟩
  rw [List.getD_eq_getElem?_getD, hrow]
  rfl

/-- What is computed row by row from multiples and from what was found for the rows above grows by a
    bit for each row above and two for itself, so by as many bits as there are entries in the end. -/
theorem SmallMultiples.forall_mem_rows {β : Type} (h : SmallMultiples f) {P : Nat → β → Prop}
    (hmono : ∀ {a b y}, P a y → a ≤ b → b < 2046 → P b y) {g : List Double → List β → β → β}
    (hstep : ∀ {a multiples above y}, SmallBefore above.length multiples → (∀ z ∈ above, P a z) → P a y →
      a + above.length + 2 < 2046 → P (a + above.length + 2) (g multiples above y))
    {u : List β} (hu : ∀ y ∈ u, P e y) (hrows : f.rows.length = n) (he : e + n * (n + 1) < 2046) :
    ∀ y ∈ (List.zip f.rows u).foldl (fun above p => above ++ [g p.1 above p.2]) [], P (e + n * (n + 1)) y := by
  have hbound {k : Nat} (hk : k ≤ n) : e + k * (n + 1) ≤ e + n * (n + 1) :=
    Nat.add_le_add_left (Nat.mul_le_mul_right _ hk) _
  have hlength : (List.zip f.rows u).length ≤ n := by simp [hrows]
  intro y hy
  -- The invariant of the fold is the bound after as many rows as there are above.
  have hall := forall_mem_foldl_append (g := fun above (p : List Double × β) => g p.1 above p.2)
    (P := fun k y => k ≤ n → P (e + k * (n + 1)) y) (Q := fun t p => SmallBefore t p.1 ∧ P e p.2)
    (l := List.zip f.rows u) ?_ ?_ [] ?_ (by simp) y hy
  · exact hmono (hall (by simpa using hlength)) (hbound (by simpa using hlength)) he
  · intro k y hk hle
    have := hbound hle
    rw [Nat.succ_mul] at this ⊢
    exact hmono (hk (by omega)) (by omega) (by omega)
  · rintro above ⟨multiples, y⟩ habove ⟨hmultiples, hy⟩ hle
    have := hbound hle
    rw [Nat.succ_mul] at this ⊢
    have hentry := hstep (a := e + above.length * (n + 1)) hmultiples (fun z hz => habove z hz (by omega))
      (hmono hy (by omega) (by omega)) (by omega)
    exact hmono hentry (by omega) (by omega)
  · rintro i ⟨row, y⟩ hi
    obtain ⟨rfl, hy⟩ := getElem?_zip_getD hi
    rw [List.length_nil, Nat.zero_add]
    exact ⟨h.multiples i, hu y hy⟩

/-- What `reduce` leaves of a column, if no entry of it was large. -/
theorem SmallMultiples.upTo_reduce (h : SmallMultiples f) {column : List Double} (hcolumn : ∀ x ∈ column, x.UpTo e)
    (hrows : f.rows.length = n) (he : e + n * (n + 1) < 2046) :
    ∀ y ∈ f.reduce (f.arrange column), y.UpTo (e + n * (n + 1)) :=
  h.forall_mem_rows (P := fun a (x : Double) => x.UpTo a) (g := remainder)
    (fun hx hle hb => hx.mono hle hb) upTo_remainder
    (fun x hx => hcolumn x (mem_of_mem_arrange hx)) hrows he

/-! ## One more column -/

/-- `exchange` puts two elements at each other's place. -/
theorem getD_exchange {α : Type} {u : List α} {i j : Nat} (hi : i < u.length) (hj : j < u.length) (k : Nat) (d : α) :
    (exchange u i j).getD k d = if k = j then u.getD i d else if k = i then u.getD j d else u.getD k d := by
  have hexchange : exchange u i j = (u.set i u[j]).set j u[i] := by simp [exchange, hi, hj]
  rw [hexchange, List.getD_eq_getElem?_getD]
  by_cases hkj : k = j
  · rw [if_pos hkj, hkj, List.getElem?_set_self (by simpa using hj), List.getD_eq_getElem _ _ hi]
    rfl
  · rw [if_neg hkj, List.getElem?_set_ne (Ne.symm hkj)]
    by_cases hki : k = i
    · rw [if_pos hki, hki, List.getElem?_set_self hi, List.getD_eq_getElem _ _ hj]
      rfl
    · rw [if_neg hki, List.getElem?_set_ne (Ne.symm hki), List.getD_eq_getElem?_getD]

/-- What is behind a place is one of the entries that are left there, or nothing. -/
theorem magnitude_getD_le {column : List Double} {next bound : Nat} (hle : ∀ x ∈ column.drop next, x.magnitude ≤ bound)
    {i : Nat} (hi : next ≤ i) : (column.getD i 0).magnitude ≤ bound := by
  rw [List.getD_eq_getElem?_getD]
  cases hx : column[i]? with
  | none => exact Nat.zero_le _
  | some x =>
    refine hle x (List.mem_of_getElem? (i := i - next) ?_)
    rw [List.getElem?_drop, Nat.add_sub_cancel' hi, hx]

/-- No entry that `largestPlace` searches is larger than the one that it finds. -/
theorem largestPlace_spec {column : List Double} (hfinite : ∀ x ∈ column, x.Finite) {start place : Nat}
    (hstart : start < column.length)
    (hplace : largestPlace (column.getD start 0).abs start (start + 1) (column.drop (start + 1)) = place) :
    start ≤ place ∧ place < column.length ∧
      ∀ i, start ≤ i → (column.getD i 0).magnitude ≤ (column.getD place 0).magnitude := by
  have hbest : (column.getD start 0).Finite := by
    rw [List.getD_eq_getElem _ _ hstart]
    exact hfinite _ (List.getElem_mem _)
  have hrest : ∀ q ∈ (column.drop (start + 1)).map fun x => (⟨[x], []⟩ : Equation Double), q.leading.Finite := by
    intro q hq
    obtain ⟨x, hx, rfl⟩ := List.mem_map.mp hq
    exact hfinite x (List.mem_of_mem_drop hx)
  -- The search is the one for a pivot among equations with a single coefficient.
  rw [largestPlace_eq_pivotPlace] at hplace
  obtain ⟨hfound, hle⟩ | ⟨k, hk, hfound, hbetter, hle⟩ :=
    Equation.pivotPlace_spec Double.smaller_iff start (start + 1) hbest hrest
  · obtain rfl : start = place := hfound.symm.trans hplace
    refine ⟨le_rfl, hstart, fun i hi => ?_⟩
    obtain rfl | hlt := Nat.eq_or_lt_of_le hi
    · exact le_rfl
    · exact magnitude_getD_le (fun x hx => hle _ (List.mem_map_of_mem hx)) hlt
  · obtain rfl : start + 1 + k = place := hfound.symm.trans hplace
    rw [List.length_map, List.length_drop] at hk
    simp only [List.getElem_map, List.getElem_drop] at hbetter hle
    refine ⟨by omega, by omega, fun i hi => ?_⟩
    rw [List.getD_eq_getElem column _ (show start + 1 + k < column.length by omega)]
    obtain rfl | hlt := Nat.eq_or_lt_of_le hi
    · exact hbetter
    · exact magnitude_getD_le (fun x hx => hle _ (List.mem_map_of_mem hx)) hlt

/-- Fewer entries are `SmallBefore` as well. -/
theorem SmallBefore.mono {place place' : Nat} {multiples : List Double} (h : SmallBefore place multiples)
    (hle : place' ≤ place) : SmallBefore place' multiples := fun c hc => h c (hc.trans_le hle)

/-- `append` adds one more multiple for each row behind the pivot. -/
theorem SmallMultiples.append {rows : List (List Double)} {exchanges : List Nat} {column : List Double} (place : Nat)
    (hrows : ∀ row ∈ rows, row.length = exchanges.length)
    (hbefore : ∀ i, SmallBefore (min i exchanges.length) (rows.getD i []))
    (hcolumn : ∀ i, exchanges.length < i → (column.getD i 0).UpTo 1023) :
    SmallMultiples (append rows column (exchanges ++ [place])) where
  length row hrow := by
    obtain ⟨row, hmem, x, -, rfl⟩ := List.exists_of_mem_zipWith hrow
    simp [Factors.append, hrows row hmem]
  multiples i c hc := by
    show (((List.zipWith (fun row x => row ++ [x]) rows column).getD i []).getD c 0).UpTo 1023
    generalize hextended : (List.zipWith (fun row x => row ++ [x]) rows column).getD i [] = extended
    rw [List.getD_eq_getElem?_getD] at hextended
    cases hi : (List.zipWith (fun row x => row ++ [x]) rows column)[i]? with
    | none =>
      rw [hi] at hextended
      subst hextended
      exact .signedZero false (by decide)
    | some extended' =>
      obtain rfl : extended' = extended := by
        rw [hi] at hextended
        exact hextended
      obtain ⟨row, x, hrow, hx, rfl⟩ := List.getElem?_zipWith_eq_some.mp hi
      have hlength := hrows row (List.mem_of_getElem? hrow)
      have hsmall := hbefore i
      rw [List.getD_eq_getElem?_getD, hrow] at hsmall
      -- An entry before the new one, the new one, and nothing behind it.
      obtain hlt | heq | hgt := Nat.lt_trichotomy c exchanges.length
      · rw [List.getD_append _ _ _ _ (by omega)]
        exact hsmall c (by omega)
      · have hlast := hcolumn i (by omega)
        rw [List.getD_eq_getElem?_getD, hx] at hlast
        simpa [List.getD_append_right, hlength, heq] using hlast
      · rw [List.getD_eq_default _ _ (by simp; omega)]
        exact .signedZero false (by decide)

/-- `divideBehind` divides every entry behind the place. -/
theorem getD_divideBehind {place i : Nat} (hi : place < i) {u : List Double} (hlength : i < u.length) (pivot : Double) :
    (divideBehind place pivot u).getD i 0 = u.getD i 0 * (1 / pivot) := by
  have htake : (u.take (place + 1)).length = place + 1 := by simp; omega
  rw [divideBehind, List.getD_append_right _ _ _ _ (by omega), htake, List.getD_eq_getElem?_getD, List.getElem?_map,
    List.getElem?_drop, show place + 1 + (i - (place + 1)) = i by omega, List.getElem?_eq_getElem hlength,
    List.getD_eq_getElem _ _ hlength]
  rfl

/-- `divideBehind` leaves nothing above two behind an entry that is not smaller. -/
theorem upTo_divideBehind {reduced : List Double} {start place : Nat} (hpivot : (reduced.getD place 0).UpTo e)
    (he : e < 2045) (hnormal : (reduced.getD place 0).isNormal = true) (hstart : start ≤ place)
    (hplace : place < reduced.length)
    (hlargest : ∀ i, start ≤ i → (reduced.getD i 0).magnitude ≤ (reduced.getD place 0).magnitude) {i : Nat}
    (hi : start < i) :
    ((divideBehind start (reduced.getD place 0) (exchange reduced start place)).getD i 0).UpTo 1023 := by
  by_cases hbehind : i < (exchange reduced start place).length
  · rw [getD_divideBehind hi hbehind]
    refine hpivot.mul_one_div he hnormal ?_
    rw [getD_exchange (by omega) hplace]
    split
    · exact hlargest _ le_rfl
    split
    · exact le_rfl
    · exact hlargest i hi.le
  · rw [List.getD_eq_default _ _ (by simp [divideBehind] at hbehind ⊢; omega)]
    exact .signedZero false (by decide)

/-- Adding a column keeps `SmallMultiples`, whether it was divided or not. -/
theorem SmallMultiples.adds (h : SmallMultiples f) {reduced : List Double} (hreduced : ∀ y ∈ reduced, y.UpTo e)
    (he : e < 2045) {place : Nat} (hstart : f.exchanges.length ≤ place) (hplace : place < reduced.length)
    (hlargest : ∀ i, f.exchanges.length ≤ i → (reduced.getD i 0).magnitude ≤ (reduced.getD place 0).magnitude)
    (hlength : reduced.length = f.rows.length) (hadds : Adds f reduced place f') :
    SmallMultiples f' ∧ f'.rows.length = f.rows.length ∧ f'.exchanges.length = f.exchanges.length + 1 := by
  have hpivot : (reduced.getD place 0).UpTo e := by
    rw [List.getD_eq_getElem _ _ hplace]
    exact hreduced _ (List.getElem_mem _)
  cases hadds with
  | divided hdivisor =>
    have hnormal := (isDivisor_iff hpivot.finite).mp hdivisor
    refine ⟨.append place (fun row hrow => h.length row (mem_of_mem_exchange hrow)) (fun i => ?_) fun i hi =>
      upTo_divideBehind hpivot he hnormal hstart hplace hlargest hi, ?_, ?_⟩
    · rw [getD_exchange (by omega) (by omega)]
      split
      · exact (h.multiples _).mono (by omega)
      split
      · exact (h.multiples _).mono (by omega)
      · exact (h.multiples i).mono (by omega)
    · simp [Factors.append, divideBehind]
      omega
    · simp [Factors.append]
  | undivided hdivisor =>
    -- The largest entry is below the least normal number, and so are the others.
    have htiny : (reduced.getD place 0).magnitude < fractionCount := by
      by_contra hle
      have hnormal : (reduced.getD place 0).isNormal = true := by
        rw [Double.isNormal, Bool.and_eq_true, decide_eq_true_eq]
        exact ⟨Nat.not_lt.mp hle, hpivot.finite⟩
      rw [(isDivisor_iff hpivot.finite).mpr hnormal] at hdivisor
      cases hdivisor
    refine ⟨.append place h.length (fun i => (h.multiples i).mono (by omega)) (fun i hi => ?_), ?_, ?_⟩
    · have hle := hlargest i hi.le
      have hsmall : (reduced.getD i 0).UpTo 0 := ⟨by decide, by omega⟩
      exact hsmall.mono (Nat.zero_le _) (by decide)
    · simp [Factors.append, hlength]
    · simp [Factors.append]

/-- `addColumn` keeps the multiples small. -/
theorem SmallMultiples.addColumn (h : SmallMultiples f) {column : List Double}
    (hreduce : ∀ y ∈ f.reduce (f.arrange column), y.UpTo e) (he : e < 2045)
    (hcolumn : column.length = f.rows.length) (hcount : f.exchanges.length < f.rows.length)
    (hadd : f.addColumn column = some f') :
    SmallMultiples f' ∧ f'.rows.length = f.rows.length ∧ f'.exchanges.length = f.exchanges.length + 1 := by
  have hlength : (f.reduce (f.arrange column)).length = f.rows.length := by simp [hcolumn]
  obtain ⟨hstart, hplace, hlargest⟩ :=
    largestPlace_spec (fun x hx => (hreduce x hx).finite) (hlength ▸ hcount) rfl
  exact h.adds hreduce he hstart hplace hlargest hlength (adds_of_addColumn hadd rfl)

/-- All numbers of elimination column by column are finite if there are not too many columns. -/
theorem SmallMultiples.finiteColumns (h : SmallMultiples f) {columns : List (List Double)}
    (hcolumns : ∀ c ∈ columns, c.length = n ∧ ∀ x ∈ c, x.UpTo e) (hrows : f.rows.length = n)
    (hcount : f.exchanges.length + columns.length ≤ n) (he : e + n * (n + 1) < 2045) :
    FiniteColumns f columns ∧
      ∀ f', columns.foldlM Factors.addColumn f = some f' → SmallMultiples f' ∧ f'.rows.length = n := by
  induction columns generalizing f with
  | nil =>
    refine ⟨trivial, fun f' hf' => ?_⟩
    obtain rfl := Option.some.inj hf'
    exact ⟨h, hrows⟩
  | cons column columns ih =>
    obtain ⟨⟨hlength, hcolumn⟩, hrest⟩ := List.forall_mem_cons.mp hcolumns
    rw [List.length_cons] at hcount
    -- The bound grows with the exchanges made so far, which are no more than the columns.
    have hreduce := h.upTo_reduce hcolumn hrows (by omega)
    have hnext {g : Factors} (hg : f.addColumn column = some g) :=
      h.addColumn hreduce he (hlength.trans hrows.symm) (by omega) hg
    refine ⟨⟨fun x hx => (hreduce x hx).finite, fun g hg => ?_⟩, fun f' hf' => ?_⟩
    · obtain ⟨hsmall, hsize, hexchanges⟩ := hnext hg
      exact (ih hsmall hrest (hsize.trans hrows) (by omega)).1
    · rw [List.foldlM_cons] at hf'
      obtain ⟨g, hg, hf'⟩ := Option.bind_eq_some_iff.mp hf'
      obtain ⟨hsmall, hsize, hexchanges⟩ := hnext hg
      exact (ih hsmall hrest (hsize.trans hrows) (by omega)).2 f' hf'

/-! ## The right sides -/

/-- Values have a bit more for each multiple that is taken away from them. -/
theorem upTo_foldl_subtractMultiple {a b : Nat} {l : List (Double × List Double)} {values : List Double}
    (hl : ∀ p ∈ l, p.1.UpTo 1023 ∧ ∀ y ∈ p.2, y.UpTo b) (hvalues : ∀ x ∈ values, x.UpTo a) (hle : b + 1 ≤ a)
    (ha : a + l.length < 2046) :
    ∀ x ∈ l.foldl (fun values (m, x) => Equation.subtractMultiple m values x) values, x.UpTo (a + l.length) := by
  induction l generalizing values a with
  | nil => exact hvalues
  | cons p l ih =>
    obtain ⟨⟨hfactor, hp⟩, hl⟩ := List.forall_mem_cons.mp hl
    rw [List.length_cons] at ha ⊢
    rw [List.foldl_cons, Nat.add_comm l.length, ← Nat.add_assoc]
    exact ih hl (Equation.upTo_subtractMultiple hfactor hvalues hp hle (by omega)) (by omega) (by omega)

/-- `remainingValues` have a bit more for each row above, and two for themselves. -/
theorem upTo_remainingValues {multiples : List Double} {above : List (List Double)} {values : List Double}
    (hmultiples : SmallBefore above.length multiples) (habove : ∀ v ∈ above, ∀ y ∈ v, y.UpTo e)
    (hvalues : ∀ x ∈ values, x.UpTo e) (he : e + above.length + 2 < 2046) :
    ∀ x ∈ remainingValues multiples above values, x.UpTo (e + above.length + 2) := by
  have hlength : (List.zip multiples above).length ≤ above.length := by simp
  have hpairs : ∀ p ∈ List.zip multiples above, p.1.UpTo 1023 ∧ ∀ y ∈ p.2, y.UpTo e := by
    rintro ⟨m, v⟩ hp
    obtain ⟨i, hi⟩ := List.getElem?_of_mem hp
    obtain ⟨hm, hv⟩ := List.getElem?_zip_eq_some.mp hi
    have hsmall := hmultiples i (List.getElem?_eq_some_iff.mp hv).1
    rw [List.getD_eq_getElem?_getD, hm] at hsmall
    exact ⟨hsmall, habove v (List.mem_of_getElem? hv)⟩
  have hlonger : ∀ x ∈ values, x.UpTo (e + 1) := fun x hx => (hvalues x hx).mono (by omega) (by omega)
  intro x hx
  exact (upTo_foldl_subtractMultiple hpairs hlonger le_rfl (by omega) x hx).mono (by omega) he

/-- What `forward` leaves of the right sides, if none of their values was large. -/
theorem SmallMultiples.upTo_forward (h : SmallMultiples f) {sides : List (List Double)}
    (hsides : ∀ side ∈ sides, ∀ x ∈ side, x.UpTo e) (hrows : f.rows.length = n) (he : e + n * (n + 1) < 2046) :
    ∀ values ∈ f.forward (f.arrange sides), ∀ x ∈ values, x.UpTo (e + n * (n + 1)) :=
  h.forall_mem_rows (P := fun a (values : List Double) => ∀ x ∈ values, x.UpTo a) (g := remainingValues)
    (fun hvalues hle hb x hx => (hvalues x hx).mono hle hb) upTo_remainingValues
    (fun side hside => hsides side (mem_of_mem_arrange hside)) hrows he

/-- At the `start` there are no multiples. -/
theorem smallMultiples_start (n : Nat) : SmallMultiples (start n) where
  length row hrow := by
    rw [List.eq_of_mem_replicate hrow]
    rfl
  multiples i c _ := by
    have hempty : (start n).rows.getD i [] = [] := by
      rw [List.getD_eq_getElem?_getD]
      simp only [start, List.getElem?_replicate]
      split <;> rfl
    rw [hempty]
    exact .signedZero false (by decide)

end Factors

namespace Matrix

open Double (UpTo)
open Equation (eliminate FinitePivots)

variable {a x : Matrix Double}

/-- No entry of an affine matrix that is `wellConditioned` is above the threshold for condition
    numbers, 2^52. -/
theorem upTo_of_wellConditioned (ha : a.isAffine = true)
    (hfinite : ∀ i j, i < a.rows → j < a.cols → (a.entry i j).isFinite = true)
    (h : Conditioning.wellConditioned a = true) {i j : Nat} (hi : i < a.rows) (hj : j < a.cols) :
    (a.entry i j).UpTo 1074 := by
  obtain ⟨hpos, hsquare, hrow⟩ := isAffine_iff_unitRow.mp ha
  obtain ⟨n, hn⟩ := Nat.exists_eq_succ_of_ne_zero hpos.ne'
  rw [hn, Nat.succ_sub_one] at hrow
  have hlast : ∀ j < a.cols, (a.entry n j).units = if j = n then (Double.unitsPerOne : Int) else 0 := by
    intro j hj
    split
    · rename_i hjn
      rw [hjn, Double.eq_one_of_beq (hrow.one (by omega)), ← Conditioning.unitsOfMagnitude_one]
      rfl
    · rename_i hjn
      obtain ⟨b, hb⟩ := Double.eq_signedZero_of_beq (hrow.zero hj hjn)
      rw [hb, Double.units_signedZero]
  -- The last row has a unit, so the least singular value is one at most and bounds the greatest.
  have hsmallest := Conditioning.smallestMagnitude_le_one hn (hsquare.symm.trans hn) hlast
  refine ⟨by decide, ?_⟩
  rw [← Conditioning.threshold_spec.2.1]
  exact (Conditioning.le_largestMagnitude hi hj (hfinite i j hi hj)).trans
    (Conditioning.largestMagnitude_le_of_wellConditioned h hsmallest)

/-- The entries of `eye` are not large. -/
theorem upTo_eye (n i j : Nat) : ((eye n n : Matrix Double).entry i j).UpTo 1074 := by
  have hzero : (0 : Double).UpTo 1074 := .signedZero false (by decide)
  have hone : (1 : Double).UpTo 1074 := ⟨by decide, by decide⟩
  by_cases hin : i < n ∧ j < n
  · rw [entry_eye hin.1 hin.2]
    split
    · exact hone
    · exact hzero
  · obtain hi | hj : n ≤ i ∨ n ≤ j := by omega
    · rwa [entry_of_rows_le (by simpa using hi)]
    · rwa [entry_of_cols_le (by simpa using hj)]

section Finite

variable (hentry : ∀ i j, i < a.rows → j < a.cols → (a.entry i j).UpTo 1074)

include hentry

/-- Row by row, all numbers of elimination are finite for matrices of up to 485 rows. -/
theorem finitePivots_of_upTo (hsize : a.cols ≤ 485) {solution : List (List Double)}
    (h : eliminate a.cols (a.equations (eye a.rows a.rows)) = .ok solution) :
    FinitePivots a.cols (a.equations (eye a.rows a.rows)) := by
  refine Equation.finitePivots_of_bounded (e := 1074) (fun q hq => ?_) (by omega) h
  obtain ⟨i, hi, rfl⟩ := List.mem_map.mp hq
  constructor
  · intro x hx
    obtain ⟨j, hj, rfl⟩ := List.mem_map.mp hx
    exact hentry i j (List.mem_range.mp hi) (List.mem_range.mp hj)
  · intro x hx
    obtain ⟨j, -, rfl⟩ := List.mem_map.mp hx
    exact upTo_eye a.rows i j

/-- Column by column, all numbers of elimination are finite for matrices of up to 30 rows. -/
theorem finiteFactors_of_upTo (hsquare : a.rows = a.cols) (hsize : a.cols ≤ 30) :
    FiniteFactors a (eye a.rows a.rows) := by
  have hbound : a.cols * (a.cols + 1) ≤ 30 * 31 := Nat.mul_le_mul hsize (Nat.succ_le_succ hsize)
  have hcolumns : ∀ c ∈ a.columnList, c.length = a.cols ∧ ∀ x ∈ c, x.UpTo 1074 := by
    intro c hc
    obtain ⟨j, hj, rfl⟩ := List.mem_map.mp hc
    refine ⟨by simp [column, hsquare], fun x hx => ?_⟩
    obtain ⟨i, hi, rfl⟩ := List.mem_map.mp hx
    exact hentry i j (List.mem_range.mp hi) (List.mem_range.mp hj)
  have hstart := (Factors.smallMultiples_start a.cols).finiteColumns hcolumns (by simp [Factors.start])
    (by simp [Factors.start, columnList]) (by omega)
  refine ⟨hstart.1, fun f hf values hvalues x hx => ?_⟩
  obtain ⟨hsmall, hrows⟩ := hstart.2 f hf
  -- The right-hand sides are those of the identity, and small as well.
  refine (hsmall.upTo_forward (e := 1074) ?_ hrows (by omega) values hvalues x hx).finite
  intro side hside y hy
  obtain ⟨i, -, rfl⟩ := List.mem_map.mp hside
  obtain ⟨j, -, rfl⟩ := List.mem_map.mp hy
  exact upTo_eye a.rows i j

end Finite

end Matrix

end Georef

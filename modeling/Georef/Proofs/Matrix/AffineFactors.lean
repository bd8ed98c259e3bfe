import Georef.Proofs.Matrix.AffineElimination
import Georef.Proofs.Matrix.DefaultSolver

/-!
# Factors of affine matrices

Elimination column by column has the same reason to leave the last row of an affine matrix alone as elimination row by
row: below the columns before the last one there are only zeros in it, which are not the largest entry of a column and
are not changed by dividing them. So its multiples of all other rows are zero, and the last right side of the identity
stays what it is.

## Key results

- `EndsWith.addColumn`: another column gives the last row another zero
- `EndsWith.addLastColumn`: the last column gives it its one
- `Matrix.endsInUnitRow_of_solveTiny?`: what elimination column by column finds for the last unknown
-/

namespace Georef

/-- `solveTriangular` finds the last unknown from the last equation alone. -/
theorem Equation.exists_solveTriangular_append {α : Type} [Zero α] [One α] [Sub α] [Mul α] [Div α]
    (es : List (Equation α)) (e : Equation α) :
    ∃ front, front.length = es.length ∧ solveTriangular (es ++ [e]) = front ++ [e.resolve []] := by
  induction es with
  | nil => exact ⟨[], rfl, rfl⟩
  | cons e' es ih =>
    obtain ⟨front, hlength, hsolution⟩ := ih
    refine ⟨e'.resolve (front ++ [e.resolve []]) :: front, by simp [hlength], ?_⟩
    rw [List.cons_append, solveTriangular, hsolution]
    rfl

namespace Factors

open Equation (unitList)
open LeastSquares (productSum)

variable {n : Nat} {f f' : Factors} {last : List Double}

/-! ## Exchanges -/

section Exchange

variable {α : Type} {u v : List α}

/-- `exchange` of a place with itself changes nothing. -/
theorem exchange_self (u : List α) (i : Nat) : exchange u i i = u := by
  unfold exchange
  cases h : u[i]? with
  | none => rfl
  | some x =>
    obtain ⟨hi, rfl⟩ := List.getElem?_eq_some_iff.mp h
    simp

/-- `exchange` among the first places leaves what stands behind these. -/
theorem exchange_append {i j : Nat} (hi : i < u.length) (hj : j < u.length) :
    exchange (u ++ v) i j = exchange u i j ++ v := by
  simp [exchange, List.getElem?_append_left, hi, hj]

/-- `exchange` brings in no new element. -/
theorem mem_of_mem_exchange {x : α} {i j : Nat} (h : x ∈ exchange u i j) : x ∈ u := by
  unfold exchange at h
  split at h
  · rename_i y z hy hz
    obtain h | rfl := List.mem_or_eq_of_mem_set h
    · obtain h | rfl := List.mem_or_eq_of_mem_set h
      · exact h
      · exact List.mem_of_getElem? hz
    · exact List.mem_of_getElem? hy
  · exact h

/-- `arrange` leaves what stands behind the places that are exchanged. -/
theorem arrange_append
    (h : ∀ e ∈ f.exchanges.zipIdx, e.1 < u.length ∧ e.2 < u.length ∨ e.1 = e.2) :
    f.arrange (u ++ v) = f.arrange u ++ v := by
  unfold arrange
  generalize f.exchanges.zipIdx = exchanges at h ⊢
  -- An exchange that stays in front, or exchanges nothing, does not reach what is appended.
  induction exchanges generalizing u with
  | nil => rfl
  | cons e exchanges ih =>
    obtain ⟨he, hrest⟩ := List.forall_mem_cons.mp h
    have hexchange : exchange (u ++ v) e.2 e.1 = exchange u e.2 e.1 ++ v := by
      obtain ⟨hplace, hindex⟩ | heq := he
      · exact exchange_append hindex hplace
      · rw [heq, exchange_self, exchange_self]
    rw [List.foldl_cons, List.foldl_cons]
    show List.foldl _ (exchange (u ++ v) e.2 e.1) exchanges = List.foldl _ (exchange u e.2 e.1) exchanges ++ v
    rw [hexchange]
    exact ih (by simpa using hrest)

/-- `arrange` keeps the length. -/
@[simp] theorem length_arrange (f : Factors) (u : List α) : (f.arrange u).length = u.length := by
  unfold arrange
  generalize f.exchanges.zipIdx = exchanges
  induction exchanges generalizing u with
  | nil => rfl
  | cons e exchanges ih => rw [List.foldl_cons, ih, length_exchange]

/-- `arrange` brings in no new element. -/
theorem mem_of_mem_arrange {x : α} (h : x ∈ f.arrange u) : x ∈ u := by
  unfold arrange at h
  generalize f.exchanges.zipIdx = exchanges at h
  induction exchanges generalizing u with
  | nil => exact h
  | cons e exchanges ih => exact mem_of_mem_exchange (ih h)

end Exchange

/-! ## The last row -/

/-- The factors have the given last row, which was not exchanged with another one. -/
structure EndsWith (n : Nat) (last : List Double) (f : Factors) : Prop where
  rows : ∃ front, front.length = n ∧ f.rows = front ++ [last]
  exchanges : ∀ e ∈ f.exchanges.zipIdx, e.1 < n ∧ e.2 < n ∨ e.1 = e.2

/-- At the `start`, no row has any multiples. -/
theorem endsWith_start (n : Nat) : EndsWith n [] (start (n + 1)) where
  rows := ⟨List.replicate n [], by simp, by simp [start, List.replicate_succ']⟩
  exchanges _ he := by cases he

/-- A list that grows by an element for each element of another one. -/
theorem length_foldl_append {α β : Type} (g : List β → α → β) (l : List α) (above : List β) :
    (l.foldl (fun above x => above ++ [g above x]) above).length = above.length + l.length := by
  induction l generalizing above with
  | nil => rfl
  | cons x l ih =>
    rw [List.foldl_cons, ih, List.length_append, List.length_singleton, List.length_cons]
    omega

/-- `reduce` leaves an entry for each row. -/
@[simp] theorem length_reduce (f : Factors) (column : List Double) :
    (f.reduce column).length = min f.rows.length column.length := by
  unfold reduce
  rw [length_foldl_append, List.length_zip, List.length_nil, Nat.zero_add]

/-- What is left of an entry of a column, given its multiples and what is left of the entries above. -/
def remainder (multiples above : List Double) (x : Double) : Double :=
  if multiples.isEmpty || above.isEmpty then x else x - productSum multiples above

/-- `reduce` reduces the last entry of a column last. -/
theorem EndsWith.exists_reduce (h : EndsWith n last f) {u : List Double} (hu : u.length = n) (x : Double) :
    ∃ above, above.length = n ∧ f.reduce (f.arrange (u ++ [x])) = above ++ [remainder last above x] := by
  obtain ⟨front, hfront, hrows⟩ := h.rows
  have harrange : f.arrange (u ++ [x]) = f.arrange u ++ [x] := by
    refine arrange_append ?_
    rw [hu]
    exact h.exchanges
  refine ⟨(⟨front, f.exchanges⟩ : Factors).reduce (f.arrange u), by simp [hfront, hu], ?_⟩
  rw [harrange, reduce, hrows, List.zip_append (by simp [hfront, hu]), List.foldl_append]
  rfl

open ExactUnits in
/-- `productSum` with multiples that are zero adds up to nothing. -/
theorem productSum_zeros {u v : List Double} (hu : ∀ z ∈ u, (z == 0) = true) (hv : ∀ y ∈ v, y.Finite) :
    (productSum u v == 0) = true := by
  have hfold (sum : Double) (hsum : (sum == 0) = true) :
      ((List.zipWith (· * ·) u v).foldl (· + ·) sum == 0) = true := by
    -- The sum stays a zero, of whichever sign, with each product added.
    induction u generalizing v sum with
    | nil => exact hsum
    | cons z u ih =>
      cases v with
      | nil => exact hsum
      | cons y v =>
        obtain ⟨hz, hu⟩ := List.forall_mem_cons.mp hu
        obtain ⟨hy, hv⟩ := List.forall_mem_cons.mp hv
        have hproduct : (z * y == 0) = true := zero_mul hz hy
        have hfinite := finite_of_beq (PartialEquivBEq.symm hproduct) finite_zero
        exact ih hu hv _ (PartialEquivBEq.trans (zero_add hsum hfinite) hproduct)
  exact hfold 0 UnitsApart.zero_beq_zero

/-- Nothing is taken away from the last entry as long as the last row has only zeros. -/
theorem remainder_beq {above : List Double} {x : Double} (hlast : ∀ z ∈ last, (z == 0) = true)
    (habove : ∀ y ∈ above, y.Finite) (hx : x.Finite) : (remainder last above x == x) = true := by
  unfold remainder
  split
  · exact Double.beq_of_sameNumber_finite (.refl x) hx
  · exact ExactUnits.sub_zero hx (productSum_zeros hlast habove)

/-! ## One more column -/

/-- `largestPlace` searches for the largest entry of a column as `pivotPlace` does for the pivot
    among equations. -/
theorem largestPlace_eq_pivotPlace (y : Double) (place next : Nat) (u : List Double) :
    largestPlace y.abs place next u = Equation.pivotPlace y place next (u.map fun x => ⟨[x], []⟩) := by
  induction u generalizing y place next with
  | nil => rfl
  | cons x u ih =>
    rw [largestPlace, List.map_cons, Equation.pivotPlace, ih, ih]
    exact if_congr decide_eq_true_iff.symm rfl rfl

/-- `divideBehind` divides the last entry, if it is behind the place. -/
theorem divideBehind_append {place : Nat} {u : List Double} (hplace : place < u.length) (pivot x : Double) :
    divideBehind place pivot (u ++ [x]) = divideBehind place pivot u ++ [x * (1 / pivot)] := by
  rw [divideBehind, divideBehind, List.take_append_of_le_length (by omega), List.drop_append_of_le_length (by omega),
    List.map_append, List.append_assoc]
  rfl

/-- What one more column that is reduced already makes of factors, given the place of its largest entry. -/
inductive Adds (f : Factors) (reduced : List Double) (place : Nat) : Factors → Prop
  | divided (h : isDivisor (reduced.getD place 0) = true) :
    Adds f reduced place (append (exchange f.rows f.exchanges.length place)
      (divideBehind f.exchanges.length (reduced.getD place 0) (exchange reduced f.exchanges.length place))
      (f.exchanges ++ [place]))
  | undivided (h : isDivisor (reduced.getD place 0) = false) :
    Adds f reduced place (append f.rows reduced (f.exchanges ++ [place]))

/-- What `addColumn` makes of factors is one of the two cases of `Adds`. -/
theorem adds_of_addColumn {column reduced : List Double} (h : f.addColumn column = some f')
    (hreduced : f.reduce (f.arrange column) = reduced) :
    Adds f reduced (largestPlace (reduced.getD f.exchanges.length 0).abs f.exchanges.length (f.exchanges.length + 1)
      (reduced.drop (f.exchanges.length + 1))) f' := by
  unfold addColumn at h
  rw [hreduced] at h
  simp only at h
  split at h
  · cases h
  split at h
  · rename_i hdivisor
    obtain rfl := Option.some.inj h
    exact .divided hdivisor
  · rename_i hdivisor
    obtain rfl := Option.some.inj h
    exact .undivided (Bool.eq_false_iff.mpr hdivisor)

/-- `append` puts another entry at the end of every row, and leaves the last row where it is. -/
theorem EndsWith.append (h : EndsWith n last f) {rows : List (List Double)} (hrows : rows.length = n)
    {u : List Double} (hu : u.length = n) (x : Double) {place : Nat}
    (hplace : place < n ∧ f.exchanges.length < n ∨ place = f.exchanges.length) :
    EndsWith n (last ++ [x]) (append (rows ++ [last]) (u ++ [x]) (f.exchanges ++ [place])) where
  rows := by
    refine ⟨List.zipWith (fun row x => row ++ [x]) rows u, by simp [hrows, hu], ?_⟩
    rw [Factors.append, List.zipWith_append (hrows.trans hu.symm)]
    rfl
  exchanges e he := by
    rw [Factors.append, List.zipIdx_append] at he
    obtain he | he := List.mem_append.mp he
    · exact h.exchanges e he
    · obtain rfl : e = (place, f.exchanges.length) := by simpa using he
      exact hplace

/-- `addColumn` gives the last row another zero. -/
theorem EndsWith.addColumn (h : EndsWith n last f) (hlast : ∀ z ∈ last, (z == 0) = true)
    (hcount : f.exchanges.length < n) {u : List Double} (hu : u.length = n) {x : Double} (hx : (x == 0) = true)
    (hfinite : ∀ y ∈ f.reduce (f.arrange (u ++ [x])), y.Finite) (hadd : f.addColumn (u ++ [x]) = some f') :
    ∃ z, (z == 0) = true ∧ EndsWith n (last ++ [z]) f' ∧ f'.exchanges.length = f.exchanges.length + 1 := by
  obtain ⟨above, habove, hreduce⟩ := h.exists_reduce hu x
  obtain ⟨front, hfront, hrows⟩ := h.rows
  rw [hreduce, List.forall_mem_append] at hfinite
  have hxfinite := ExactUnits.finite_of_beq (PartialEquivBEq.symm hx) ExactUnits.finite_zero
  have hentry := PartialEquivBEq.trans (remainder_beq hlast hfinite.1 hxfinite) hx
  have hplace := adds_of_addColumn hadd hreduce
  generalize remainder last above x = z at hplace hentry hfinite
  rw [List.drop_append_of_le_length (by omega), largestPlace_eq_pivotPlace, List.map_append, List.map_singleton,
    Equation.pivotPlace_append hentry] at hplace
  have hbounds := Equation.pivotPlace_bounds ((above ++ [z]).getD f.exchanges.length 0) f.exchanges.length
    (f.exchanges.length + 1) ((above.drop (f.exchanges.length + 1)).map fun x => ⟨[x], []⟩)
  generalize Equation.pivotPlace (α := Double) _ _ _ _ = place at hplace hbounds
  -- So the pivot is not in the last row, and neither is the row it is exchanged with.
  have hlt : place < n := by
    rw [List.length_map, List.length_drop] at hbounds
    omega
  cases hplace with
  | divided hdivisor =>
    rw [hrows, exchange_append (by omega) (by omega), exchange_append (by omega) (by omega),
      divideBehind_append (by rw [length_exchange]; omega)]
    refine ⟨_, ?_, h.append (by simp [hfront]) (by simp [divideBehind, habove]; omega) _ (.inl ⟨hlt, hcount⟩), ?_⟩
    · refine ExactUnits.zero_mul hentry (Double.finite_one_div ((isDivisor_iff ?_).mp hdivisor))
      rw [List.getD_append _ _ _ _ (by omega), List.getD_eq_getElem _ _ (by omega)]
      exact hfinite.1 _ (List.getElem_mem _)
    · simp [Factors.append]
  | undivided =>
    rw [hrows]
    exact ⟨z, hentry, h.append hfront habove z (.inl ⟨hlt, hcount⟩), by simp [Factors.append]⟩

/-- `addColumn` with the last column gives the last row a one. -/
theorem EndsWith.addLastColumn (h : EndsWith n last f) (hlast : ∀ z ∈ last, (z == 0) = true)
    (hcount : f.exchanges.length = n) {u : List Double} (hu : u.length = n) {x : Double} (hx : (x == 1) = true)
    (hfinite : ∀ y ∈ f.reduce (f.arrange (u ++ [x])), y.Finite) (hadd : f.addColumn (u ++ [x]) = some f') :
    EndsWith n (last ++ [1]) f' := by
  obtain ⟨above, habove, hreduce⟩ := h.exists_reduce hu x
  obtain ⟨front, hfront, hrows⟩ := h.rows
  rw [hreduce, List.forall_mem_append] at hfinite
  have hxfinite := ExactUnits.finite_of_beq (PartialEquivBEq.symm hx) ExactUnits.finite_one
  have hentry := Double.eq_one_of_beq (PartialEquivBEq.trans (remainder_beq hlast hfinite.1 hxfinite) hx)
  rw [hentry] at hreduce
  have hplace := adds_of_addColumn hadd hreduce
  -- Nothing stands behind the last entry, so it is its own pivot.
  have hlength : (above ++ [(1 : Double)]).length = n + 1 := by simp [habove]
  have hdrop : (above ++ [(1 : Double)]).drop (n + 1) = [] := List.drop_eq_nil_of_le hlength.le
  have hdivide (pivot : Double) : divideBehind n pivot (above ++ [1]) = above ++ [1] := by
    rw [divideBehind, hdrop, List.take_of_length_le hlength.le, List.map_nil, List.append_nil]
  rw [hcount, hdrop, largestPlace] at hplace
  have hends := h.append hfront habove 1 (.inr hcount.symm)
  cases hplace with
  | divided =>
    rw [hcount, exchange_self, exchange_self, hdivide, hrows]
    exact hends
  | undivided =>
    rw [hrows]
    exact hends

/-! ## All columns -/

/-- All numbers that elimination finds are finite. -/
def FiniteColumns : Factors → List (List Double) → Prop
  | _, [] => True
  | f, column :: columns =>
    (∀ x ∈ f.reduce (f.arrange column), x.Finite) ∧
      ∀ f', f.addColumn column = some f' → FiniteColumns f' columns

/-- The columns of an affine matrix give the last row zeros and a one. -/
theorem EndsWith.addColumns (h : EndsWith n last f) (hlast : ∀ z ∈ last, (z == 0) = true)
    {columns : List (List Double)} (hcolumns : ∀ c ∈ columns, ∃ u x, c = u ++ [x] ∧ u.length = n ∧ (x == 0) = true)
    (hcount : f.exchanges.length + columns.length = n) {u : List Double} (hu : u.length = n) {x : Double}
    (hx : (x == 1) = true) (hfinite : FiniteColumns f (columns ++ [u ++ [x]]))
    (hrun : (columns ++ [u ++ [x]]).foldlM Factors.addColumn f = some f') :
    ∃ zeros, zeros.length = columns.length ∧ (∀ z ∈ zeros, (z == 0) = true) ∧
      EndsWith n (last ++ zeros ++ [1]) f' := by
  -- Each column adds a zero behind the last row, and the last column the one.
  induction columns generalizing f last with
  | nil =>
    refine ⟨[], rfl, by simp, ?_⟩
    rw [List.nil_append, List.foldlM_cons] at hrun
    obtain ⟨_, hadd, hpure⟩ := Option.bind_eq_some_iff.mp hrun
    obtain rfl := Option.some.inj hpure
    rw [List.append_nil]
    exact h.addLastColumn hlast hcount hu hx hfinite.1 hadd
  | cons column columns ih =>
    obtain ⟨⟨v, y, rfl, hv, hy⟩, hrest⟩ := List.forall_mem_cons.mp hcolumns
    rw [List.cons_append, List.foldlM_cons] at hrun
    obtain ⟨g, hadd, hrun⟩ := Option.bind_eq_some_iff.mp hrun
    rw [List.length_cons] at hcount
    obtain ⟨z, hz, hg, hexchanges⟩ := h.addColumn hlast (by omega) hv hy hfinite.1 hadd
    have hlast' : ∀ z' ∈ last ++ [z], (z' == 0) = true := by
      rw [List.forall_mem_append]
      exact ⟨hlast, by simpa using hz⟩
    obtain ⟨zeros, hlength, hzeros, hend⟩ := ih hg hlast' hrest (by omega) (hfinite.2 g hadd) hrun
    refine ⟨z :: zeros, by simp [hlength], List.forall_mem_cons.mpr ⟨hz, hzeros⟩, ?_⟩
    simpa using hend

/-! ## The right sides -/

/-- What is left of the values of a row, given its multiples and what is left of the values above. -/
def remainingValues (multiples : List Double) (above : List (List Double)) (values : List Double) : List Double :=
  (List.zip multiples above).foldl (fun values (m, x) => Equation.subtractMultiple m values x) values

/-- `forward` finds the values of the last row last. -/
theorem EndsWith.exists_forward (h : EndsWith n last f) {sides : List (List Double)} (hsides : sides.length = n)
    (side : List Double) :
    ∃ above, above.length = n ∧
      f.forward (f.arrange (sides ++ [side])) = above ++ [remainingValues last above side] := by
  obtain ⟨front, hfront, hrows⟩ := h.rows
  have harrange : f.arrange (sides ++ [side]) = f.arrange sides ++ [side] := by
    refine arrange_append ?_
    rw [hsides]
    exact h.exchanges
  refine ⟨(⟨front, f.exchanges⟩ : Factors).forward (f.arrange sides), ?_, ?_⟩
  · unfold forward
    rw [length_foldl_append]
    simp [hfront, hsides]
  · rw [harrange, forward, hrows, List.zip_append (by simp [hfront, hsides]), List.foldl_append]
    rfl

/-- `forward` keeps the number of values of each right side. -/
theorem length_of_mem_forward {r : Nat} {sides : List (List Double)} (hsides : ∀ side ∈ sides, side.length = r) :
    ∀ values ∈ f.forward sides, values.length = r := by
  unfold forward
  refine List.foldlRecOn _ _ (motive := fun above : List (List Double) => ∀ values ∈ above, values.length = r)
    (by simp) ?_
  rintro above habove ⟨multiples, side⟩ hside values hmem
  obtain hmem | hmem := List.mem_append.mp hmem
  · exact habove values hmem
  · rw [List.mem_singleton.mp hmem]
    refine List.foldlRecOn _ _ (motive := fun v : List Double => v.length = r)
      (hsides side (List.of_mem_zip hside).2) ?_
    rintro v hv ⟨m, x⟩ hx
    simp [hv, habove x (List.of_mem_zip hx).2]

/-- `remainingValues` with multiples that are zero are zeros and ones as before. -/
theorem remainingValues_zeros {zeros : List Double} {above : List (List Double)} {r : Nat}
    (hzeros : ∀ z ∈ zeros, (z == 0) = true) (habove : ∀ v ∈ above, v.length = r + 1 ∧ ∀ x ∈ v, x.Finite) :
    remainingValues zeros above (unitList r) = unitList r := by
  refine List.foldlRecOn _ _ (motive := fun values => values = unitList r) rfl ?_
  rintro values rfl ⟨m, v⟩ hmem
  obtain ⟨hm, hv⟩ := List.of_mem_zip hmem
  obtain ⟨hlength, hfinite⟩ := habove v hv
  exact Equation.subtractMultiple_of_units (hzeros m hm) (by rw [hlength, Equation.length_unitList]) hfinite
    fun _ => Equation.of_mem_unitList

/-- The equation of a row and its values, in which the multiples of the rows above are left out. -/
def rowEquation (p : (List Double × List Double) × Nat) : Equation Double := ⟨p.1.1.drop p.2, p.1.2⟩

/-- The last row that `solve` finds consists of zeros and a one. -/
theorem EndsWith.exists_solve {zeros : List Double} (h : EndsWith n (zeros ++ [1]) f) (hlength : zeros.length = n)
    (hzeros : ∀ z ∈ zeros, (z == 0) = true) {sides : List (List Double)} {r : Nat} (hcount : sides.length = n)
    (hsides : ∀ side ∈ sides, side.length = r + 1)
    (hfinite : ∀ values ∈ f.forward (f.arrange (sides ++ [unitList r])), ∀ x ∈ values, x.Finite) :
    ∃ front, front.length = n ∧ f.solve (sides ++ [unitList r]) = front ++ [unitList r] := by
  obtain ⟨front, hfront, hrows⟩ := h.rows
  obtain ⟨above, habove, hforward⟩ := h.exists_forward hcount (unitList r)
  have hlengths : ∀ values ∈ f.forward (f.arrange (sides ++ [unitList r])), values.length = r + 1 := by
    refine length_of_mem_forward fun side hside => ?_
    obtain hside | hside := List.mem_append.mp (mem_of_mem_arrange hside)
    · exact hsides side hside
    · rw [List.mem_singleton.mp hside, Equation.length_unitList]
  rw [hforward, List.forall_mem_append] at hfinite hlengths
  -- Nothing is above the last row for its one.
  have hzip : List.zip (zeros ++ [1]) above = List.zip zeros above := by
    rw [← List.append_nil above, List.zip_append (hlength.trans habove.symm), List.zip_nil_right, List.append_nil,
      List.append_nil]
  have hkept : remainingValues zeros above (unitList r) = unitList r :=
    remainingValues_zeros hzeros fun v hv => ⟨hlengths.1 v hv, hfinite.1 v hv⟩
  rw [remainingValues, hzip, ← remainingValues, hkept] at hforward
  have hequations : (List.zip f.rows (f.forward (f.arrange (sides ++ [unitList r])))).zipIdx.map rowEquation =
      (List.zip front above).zipIdx.map rowEquation ++ [⟨[1], unitList r⟩] := by
    rw [hforward, hrows, List.zip_append (hfront.trans habove.symm), List.zipIdx_append, List.map_append]
    simp [rowEquation, hfront, habove, hlength]
  obtain ⟨before, hbefore, hsolution⟩ :=
    Equation.exists_solveTriangular_append ((List.zip front above).zipIdx.map rowEquation) ⟨[1], unitList r⟩
  refine ⟨before, by simp [hbefore, hfront, habove], ?_⟩
  rw [solve]
  show Equation.solveTriangular (List.map rowEquation _) = _
  rw [hequations, hsolution]
  congr 2
  exact Equation.divideValues_unitList UnitsApart.one_beq_one r

end Factors

namespace Matrix

open Equation (unitList)

variable {a x : Matrix Double}

/-- All numbers that elimination column by column finds for a system are finite. -/
structure FiniteFactors (a b : Matrix Double) : Prop where
  columns : (Factors.start a.cols).FiniteColumns a.columnList
  sides : ∀ f, Factors.ofMatrix? a = some f → ∀ values ∈ f.forward (f.arrange b.rowList), ∀ x ∈ values, x.Finite

/-- A column is the list of its entries, of which the last one is taken apart. -/
theorem column_eq {n : Nat} (hrows : a.rows = n + 1) (j : Nat) :
    a.column j = ((List.range n).map fun i => a.entry i j) ++ [a.entry n j] := by
  rw [column, hrows, List.range_succ, List.map_append, List.map_singleton]

/-- The `columnList` of a square matrix, the last one apart. -/
theorem columnList_eq {n : Nat} (hrows : a.rows = n + 1) (hcols : a.cols = n + 1) :
    a.columnList = (List.range n).map (fun j => a.column j) ++
      [((List.range n).map fun i => a.entry i n) ++ [a.entry n n]] := by
  rw [columnList, hcols, List.range_succ, List.map_append, List.map_singleton, column_eq hrows]

/-- The `rowList` of the identity, the last one apart. -/
theorem rowList_eye (n : Nat) :
    (eye (n + 1) (n + 1) : Matrix Double).rowList =
      (List.range n).map (fun i => (eye (n + 1) (n + 1)).row i) ++ [unitList n] := by
  rw [rowList, rows_eye, List.range_succ, List.map_append, List.map_singleton, row_eye_last]

/-- `solveTiny?`, which eliminates column by column, finds a last row of zeros and a one. -/
theorem endsInUnitRow_of_solveTiny? (ha : a.isAffine = true) (hfinite : FiniteFactors a (eye a.rows a.rows))
    (h : Solver.solveTiny? a (eye a.rows a.rows) = some x) : x.EndsInUnitRow := by
  obtain ⟨hpos, hsquare, hrow⟩ := isAffine_iff_unitRow.mp ha
  obtain ⟨n, hn⟩ := Nat.exists_eq_succ_of_ne_zero hpos.ne'
  have hcols : a.cols = n + 1 := hsquare.symm.trans hn
  obtain ⟨f, hf, rfl⟩ := Option.map_eq_some_iff.mp h
  rw [hn, Nat.succ_sub_one] at hrow
  -- The columns before the last one end with a zero, the last one ends with a one.
  have hzeros : ∀ c ∈ (List.range n).map (fun j => a.column j), ∃ u x, c = u ++ [x] ∧ u.length = n ∧
      (x == 0) = true := by
    intro c hc
    obtain ⟨j, hj, rfl⟩ := List.mem_map.mp hc
    have hj : j < n := List.mem_range.mp hj
    exact ⟨_, _, column_eq hn j, by simp, hrow.zero (by omega) (by omega)⟩
  have hcolumns := hfinite.columns
  have hrun := hf
  rw [columnList_eq hn hcols, hcols] at hcolumns
  rw [Factors.ofMatrix?, columnList_eq hn hcols, hcols] at hrun
  obtain ⟨zeros, hlength, hzeros, hend⟩ := (Factors.endsWith_start n).addColumns (by simp) hzeros
    (by simp [Factors.start]) (by simp) (hrow.one (by omega)) hcolumns hrun
  -- So does the last right side.
  have hsides := hfinite.sides f hf
  rw [hn, Nat.succ_eq_add_one, rowList_eye] at hsides ⊢
  have hsizes : ∀ side ∈ (List.range n).map (fun i => (eye (n + 1) (n + 1) : Matrix Double).row i),
      side.length = n + 1 := by
    intro side hside
    obtain ⟨i, -, rfl⟩ := List.mem_map.mp hside
    simp [row]
  obtain ⟨front, hfront, hsolution⟩ := hend.exists_solve (by simpa using hlength) hzeros (by simp) hsizes hsides
  rw [hsolution, hcols]
  exact endsInUnitRow_ofRows hfront

end Matrix

end Georef

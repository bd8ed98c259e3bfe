import Georef.Matrix.LeastSquares
import Georef.Proofs.Matrix.System

/-!
# Reflections over exact numbers

A reflection takes multiples of its normal away from a column: twice the part of the column that lies along the
normal. So it keeps differences with multiples and the lengths of vectors, and that is all the rest of the theory
asks of it. The reflection that is made for a column has the difference of the column and a multiple of the first
unit vector as its normal, and exchanges the two. All of that rests on the image being as long as the column; on
which side of the plane it lies, and that zeros at the end of the normal are left out, changes nothing.

## Key results

- `LeastSquares.Isometry`: what a reflection keeps
- `Reflection.isometry_applyIfAny`: the reflection for a column keeps it
- `Reflection.applyIfAny_self`: the column that a reflection was made for is left with its first element
-/

namespace Georef

open Equation (subtractMultiple dot solveTriangular)

/-- Lengths are exact. On which side of the plane of reflection an image lies matters to rounding only. -/
class Euclidean.Exact (K : Type) [Field K] [Euclidean K] : Prop where
  lengthOf_mul_self (u : List K) : Euclidean.lengthOf u * Euclidean.lengthOf u = dot u u

namespace LeastSquares

/-! ## Sums of products -/

section Dot

variable {K : Type} [Field K] {u v p p' q q' : List K}

/-- `dot` is commutative. -/
theorem dot_comm (u v : List K) : dot u v = dot v u := by
  rw [dot, dot, List.zipWith_comm]
  simp only [mul_comm]

/-- `dot` of lists in two parts of the same length. -/
theorem dot_append (h : p.length = p'.length) : dot (p ++ q) (p' ++ q') = dot p p' + dot q q' := by
  rw [dot, List.zipWith_append h, List.sum_append]
  rfl

/-- `dot` takes nothing from behind the end of the first list. -/
theorem dot_take (u v : List K) : dot u (v.take u.length) = dot u v := by
  induction u generalizing v with
  | nil => rfl
  | cons x u ih =>
    cases v with
    | nil => rfl
    | cons y v => rw [List.length_cons, List.take_succ_cons, Equation.dot_cons, Equation.dot_cons, ih]

/-- Over exact numbers `productSum` is `dot`, as the order of a sum does not matter. -/
theorem productSum_eq_dot (u v : List K) : productSum u v = dot u v := by
  rw [productSum, dot, List.sum_eq_foldl]

/-- The square of the length of a list of numbers as a vector. -/
def squaredNorm (u : List K) : K := dot u u

/-- `squaredNorm` is that of both parts. -/
theorem squaredNorm_append (p q : List K) : squaredNorm (p ++ q) = squaredNorm p + squaredNorm q := dot_append rfl

theorem squaredNorm_cons (x : K) (u : List K) : squaredNorm (x :: u) = x * x + squaredNorm u := Equation.dot_cons ..

/-- `squaredNorm` of zeros is zero. -/
theorem squaredNorm_zeros (m : Nat) : squaredNorm (List.replicate m (0 : K)) = 0 := by
  rw [squaredNorm, Equation.dot_eq_sum]
  exact Finset.sum_eq_zero fun k _ => by simp

/-- `squaredNorm` as a polynomial in the factor. -/
theorem squaredNorm_subtractMultiple (a : K) (h : u.length = v.length) :
    squaredNorm (subtractMultiple a u v) = squaredNorm u - 2 * a * dot v u + a * a * squaredNorm v := by
  rw [squaredNorm, Equation.dot_subtractMultiple a h, dot_comm u, dot_comm v, Equation.dot_subtractMultiple a h,
    Equation.dot_subtractMultiple a h, dot_comm u v]
  simp only [squaredNorm]
  ring

/-- Multiples of one list that are taken away from two lists can be taken away from their
    difference. -/
theorem subtractMultiple_subtractMultiple (a c c' : K) {u v n : List K} (hu : u.length = n.length)
    (hv : v.length = n.length) :
    subtractMultiple (c - a * c') (subtractMultiple a u v) n =
      subtractMultiple a (subtractMultiple c u n) (subtractMultiple c' v n) := by
  refine List.ext_getElem (by simp [subtractMultiple, hu, hv]) fun i hi hi' => ?_
  simp only [subtractMultiple, List.getElem_zipWith]
  ring

/-- `subtractMultiple` takes nothing away with zeros. -/
theorem subtractMultiple_zeros (a : K) (u : List K) : subtractMultiple a u (List.replicate u.length 0) = u := by
  refine List.ext_getElem (by simp [subtractMultiple]) fun i hi hi' => ?_
  simp [subtractMultiple]

variable [LinearOrder K] [IsStrictOrderedRing K]

/-- `squaredNorm` is not negative. -/
theorem squaredNorm_nonneg (u : List K) : 0 ≤ squaredNorm u := by
  rw [squaredNorm, Equation.dot_eq_sum]
  exact Finset.sum_nonneg fun k _ => mul_self_nonneg _

/-- `squaredNorm` is zero for zeros only. -/
theorem eq_zeros_of_squaredNorm (h : squaredNorm u = 0) : u = List.replicate u.length 0 := by
  induction u with
  | nil => rfl
  | cons x u ih =>
    rw [squaredNorm_cons] at h
    have hx := mul_self_nonneg x
    have hu := squaredNorm_nonneg u
    rw [List.length_cons, List.replicate_succ, ← ih (by linarith), mul_self_eq_zero.mp (by linarith : x * x = 0)]

end Dot

/-! ## Isometries -/

/-- A map of lists of one length that keeps differences with multiples, and the lengths of vectors. -/
structure Isometry {K : Type} [Field K] (m : Nat) (f : List K → List K) : Prop where
  length_map {u : List K} : u.length = m → (f u).length = m
  map_subtractMultiple (a : K) {u v : List K} : u.length = m → v.length = m →
    f (subtractMultiple a u v) = subtractMultiple a (f u) (f v)
  squaredNorm_map {u : List K} : u.length = m → squaredNorm (f u) = squaredNorm u

section Isometry

variable {K : Type} [Field K] {m : Nat} {f : List K → List K}

/-- Doing nothing is an `Isometry`. -/
theorem isometry_id : Isometry m (id : List K → List K) := ⟨id, fun _ _ _ _ _ => rfl, fun _ => rfl⟩

/-- What an `Isometry` leaves of lists without their first elements. -/
theorem Isometry.length_of_mem_tails {lists : List (List K)} (h : Isometry (m + 1) f)
    (hlists : ∀ u ∈ lists, u.length = m + 1) : ∀ u ∈ (lists.map f).map List.tail, u.length = m := by
  refine List.forall_mem_map.mpr (List.forall_mem_map.mpr ?_)
  intro u hu
  rw [List.length_tail, h.length_map (hlists u hu), Nat.add_sub_cancel]

/-- An `Isometry` takes zeros to zeros. -/
theorem Isometry.map_zeros [LinearOrder K] [IsStrictOrderedRing K] (h : Isometry m f) :
    f (List.replicate m 0) = List.replicate m 0 := by
  have hzeros := eq_zeros_of_squaredNorm ((h.squaredNorm_map List.length_replicate).trans (squaredNorm_zeros m))
  rwa [h.length_map List.length_replicate] at hzeros

end Isometry

end LeastSquares

namespace Reflection

open LeastSquares

/-! ## Reflections -/

section Apply

variable {K : Type} [Field K] {r : Reflection K} {m : Nat}

/-- `apply` leaves what stands behind the end of the normal. -/
theorem apply_append {p q : List K} (hp : p.length = r.normal.length) :
    r.apply (p ++ q) = subtractMultiple (r.factor * dot r.normal p) p r.normal ++ q := by
  rw [apply, productSum_eq_dot, ← dot_take r.normal (p ++ q), ← hp, List.take_left, List.drop_left]

/-- `apply` is an `Isometry` if the factor of the reflection fits its normal. -/
theorem isometry_apply (hlength : r.normal.length ≤ m) (hfactor : r.factor * squaredNorm r.normal = 2) :
    Isometry m r.apply := by
  -- Only the part of a list as long as the normal is reflected.
  have hsplit (u : List K) (hu : u.length = m) : ∃ p q, u = p ++ q ∧ p.length = r.normal.length :=
    ⟨_, _, (List.take_append_drop r.normal.length u).symm, by rw [List.length_take, hu, Nat.min_eq_left hlength]⟩
  refine ⟨fun {u} hu => ?_, fun a {u v} hu hv => ?_, fun {u} hu => ?_⟩
  · obtain ⟨p, q, rfl, hp⟩ := hsplit u hu
    rw [apply_append hp, List.length_append, Equation.length_subtractMultiple _ hp, ← List.length_append, hu]
  · obtain ⟨p, q, rfl, hp⟩ := hsplit u hu
    obtain ⟨p', q', rfl, hp'⟩ := hsplit v hv
    have happend : subtractMultiple a (p ++ q) (p' ++ q') = subtractMultiple a p p' ++ subtractMultiple a q q' :=
      List.zipWith_append (hp.trans hp'.symm)
    have hdifference : (subtractMultiple a p p').length = r.normal.length :=
      (Equation.length_subtractMultiple a (hp.trans hp'.symm)).trans hp
    have hdot : r.factor * dot r.normal (subtractMultiple a p p') =
        r.factor * dot r.normal p - a * (r.factor * dot r.normal p') := by
      rw [dot_comm, Equation.dot_subtractMultiple a (hp.trans hp'.symm), dot_comm p, dot_comm p']
      ring
    rw [happend, apply_append hdifference, apply_append hp, apply_append hp', hdot,
      subtractMultiple_subtractMultiple a _ _ hp hp']
    refine (List.zipWith_append ?_).symm
    rw [Equation.length_subtractMultiple _ hp, Equation.length_subtractMultiple _ hp', hp, hp']
  · obtain ⟨p, q, rfl, hp⟩ := hsplit u hu
    rw [apply_append hp, squaredNorm_append, squaredNorm_append, squaredNorm_subtractMultiple _ hp]
    -- The two terms that the normal adds cancel.
    linear_combination (r.factor * dot r.normal p * dot r.normal p) * hfactor

end Apply

section Normal

variable {K : Type} [Field K] {first image : K} {d : List K}

/-- A factor can be taken out of `dot` of a list with its own multiple. -/
theorem dot_map_mul (d : List K) (s : K) : dot d (d.map (· * s)) = s * squaredNorm d := by
  rw [squaredNorm, Equation.dot_eq_sum, Equation.dot_eq_sum, Finset.mul_sum]
  refine Finset.sum_congr rfl fun k hk => ?_
  have hk := Finset.mem_range.mp hk
  simp [hk]
  ring

/-- `squaredNorm` has a factor twice. -/
theorem squaredNorm_map_mul (d : List K) (s : K) : squaredNorm (d.map (· * s)) = s * s * squaredNorm d := by
  rw [squaredNorm, squaredNorm, Equation.dot_eq_sum, Equation.dot_eq_sum, Finset.mul_sum, List.length_map]
  refine Finset.sum_congr rfl fun k hk => ?_
  have hk := Finset.mem_range.mp hk
  simp [hk]
  ring

variable (himage : image ≠ 0)
  (hsquare : image * image = first * first + (first - image) * (first - image) * squaredNorm d)

include himage hsquare

/-- The factor fits the normal. -/
theorem factor_mul_squaredNorm (hne : first - image ≠ 0) : (image - first) / image * squaredNorm (1 :: d) = 2 := by
  rw [squaredNorm_cons, div_mul_eq_mul_div, div_eq_iff himage]
  refine mul_left_cancel₀ hne ?_
  linear_combination hsquare

/-- The column loses as many normals as it was away from its image. -/
theorem factor_mul_dot : (image - first) / image * dot (1 :: d) (first :: d.map (· * (first - image))) =
    first - image := by
  rw [Equation.dot_cons, one_mul, dot_map_mul, div_mul_eq_mul_div, div_eq_iff himage]
  linear_combination hsquare

/-- `apply` reflects the column to a multiple of the first unit vector. -/
theorem apply_eq_image (k : Nat) :
    apply ⟨1 :: d, (image - first) / image, image⟩
      (first :: d.map (· * (first - image)) ++ List.replicate k 0) =
        image :: List.replicate (d.length + k) 0 := by
  have hlength : (first :: d.map (· * (first - image))).length = (1 :: d).length := by simp
  have hzeros : subtractMultiple (first - image) (d.map (· * (first - image))) d = List.replicate d.length 0 := by
    refine List.ext_getElem (by simp [subtractMultiple]) fun i hi hi' => ?_
    simp only [subtractMultiple, List.getElem_zipWith, List.getElem_map, List.getElem_replicate]
    ring
  rw [apply_append hlength]
  show subtractMultiple ((image - first) / image * dot (1 :: d) _) (first :: d.map (· * (first - image))) (1 :: d) ++
    _ = _
  rw [factor_mul_dot himage hsquare]
  show (first - (first - image) * 1) :: (subtractMultiple (first - image) (d.map (· * (first - image))) d ++ _) = _
  rw [hzeros, ← List.replicate_add, mul_one, sub_sub_cancel]

end Normal

section OfColumn

variable {K : Type} [Field K] [LinearOrder K]

/-- `dropTrailingZeros` takes nothing but zeros away. -/
theorem exists_eq_dropTrailingZeros (u : List K) : ∃ k, u = dropTrailingZeros u ++ List.replicate k 0 := by
  refine ⟨(u.reverse.takeWhile (· == 0)).length, ?_⟩
  have hzeros : (u.reverse.takeWhile (· == 0)).reverse = List.replicate (u.reverse.takeWhile (· == 0)).length 0 := by
    refine List.eq_replicate_iff.mpr ⟨List.length_reverse, fun x hx => ?_⟩
    exact beq_iff_eq.mp (List.all_eq_true.mp List.all_takeWhile x (List.mem_reverse.mp hx))
  rw [dropTrailingZeros, ← hzeros, ← List.reverse_append, List.takeWhile_append_dropWhile, List.reverse_reverse]

variable [IsStrictOrderedRing K] [Euclidean K] [Euclidean.Exact K]

/-- `ofColumn?` makes no reflection for a column that is zero behind its first element. -/
theorem ofColumn?_eq_none (first : K) {rest : List K} (h : Euclidean.lengthOf rest = 0) :
    ofColumn? (first :: rest) = none ∧ rest = List.replicate rest.length 0 := by
  have hlength := Euclidean.Exact.lengthOf_mul_self rest
  rw [h, mul_zero] at hlength
  exact ⟨by simp [ofColumn?, h], eq_zeros_of_squaredNorm hlength.symm⟩

/-- Any other column is its first element and what the normal, times its distance from the image,
    makes of the others. The image is as long as the column. -/
theorem exists_ofColumn? (first : K) {rest : List K} (h : Euclidean.lengthOf rest ≠ 0) :
    ∃ (image : K) (d : List K) (k : Nat),
      ofColumn? (first :: rest) = some ⟨1 :: d, (image - first) / image, image⟩ ∧
      rest = d.map (· * (first - image)) ++ List.replicate k 0 ∧ image ≠ 0 ∧ first - image ≠ 0 ∧
      image * image = first * first + (first - image) * (first - image) * squaredNorm d := by
  have hpos : 0 < squaredNorm rest := by
    refine lt_of_le_of_ne (squaredNorm_nonneg rest) fun hzero => h ?_
    exact mul_self_eq_zero.mp ((Euclidean.Exact.lengthOf_mul_self rest).trans hzero.symm)
  have hwhole : Euclidean.lengthOf (first :: rest) * Euclidean.lengthOf (first :: rest) =
      first * first + squaredNorm rest :=
    (Euclidean.Exact.lengthOf_mul_self _).trans (squaredNorm_cons _ _)
  -- Whatever its sign, the image is as long as the column.
  obtain ⟨image, himage, hsquare⟩ : ∃ image : K,
      image = (if Euclidean.isNegative first then Euclidean.lengthOf (first :: rest)
        else -Euclidean.lengthOf (first :: rest)) ∧ image * image = first * first + squaredNorm rest := by
    refine ⟨_, rfl, ?_⟩
    split
    · exact hwhole
    · rw [neg_mul_neg, hwhole]
  -- Behind its first element the column has a length, so its image is longer than that element.
  have hne : first - image ≠ 0 := by
    intro hzero
    rw [sub_eq_zero.mp hzero] at hsquare
    linarith
  have himageNe : image ≠ 0 := by
    rintro rfl
    have := mul_self_nonneg first
    linarith
  obtain ⟨k, hk⟩ := exists_eq_dropTrailingZeros (rest.map (· * (1 / (first - image))))
  have hfound : ofColumn? (first :: rest) =
      some ⟨1 :: dropTrailingZeros (rest.map (· * (1 / (first - image)))), (image - first) / image, image⟩ := by
    rw [ofColumn?, if_neg (by simpa using h), himage]
  generalize dropTrailingZeros (rest.map (· * (1 / (first - image)))) = d at hk hfound
  have hsplit : rest = d.map (· * (first - image)) ++ List.replicate k 0 := by
    have hback := congrArg (List.map (· * (first - image))) hk
    simpa [Function.comp_def, mul_assoc, hne] using hback
  have hnorm : squaredNorm rest = (first - image) * (first - image) * squaredNorm d := by
    rw [hsplit, squaredNorm_append, squaredNorm_map_mul, squaredNorm_zeros, add_zero]
  exact ⟨image, d, k, hfound, hsplit, himageNe, hne, hnorm ▸ hsquare⟩

/-- A column for which `ofColumn?` finds no reflection is zero behind its first element. Any other
    one is reflected to a multiple of the first unit vector. -/
theorem ofColumn?_spec (first : K) (rest : List K) :
    (ofColumn? (first :: rest) = none ∧ rest = List.replicate rest.length 0) ∨
      ∃ r, ofColumn? (first :: rest) = some r ∧ r.normal.length ≤ rest.length + 1 ∧
        r.factor * squaredNorm r.normal = 2 ∧ r.apply (first :: rest) = r.image :: List.replicate rest.length 0 := by
  by_cases hrest : Euclidean.lengthOf rest = 0
  · exact .inl (ofColumn?_eq_none first hrest)
  · obtain ⟨image, d, k, hfound, hsplit, himage, hne, hsquare⟩ := exists_ofColumn? first hrest
    have hcount : rest.length = d.length + k := by
      rw [hsplit, List.length_append, List.length_map, List.length_replicate]
    refine .inr ⟨_, hfound, ?_, factor_mul_squaredNorm himage hsquare hne, ?_⟩
    · show d.length + 1 ≤ _
      omega
    · rw [hcount]
      conv_lhs => rw [hsplit]
      exact apply_eq_image himage hsquare k

/-- The reflection for a column is an `Isometry`, and so is none. -/
theorem isometry_applyIfAny (column : List K) : Isometry column.length (applyIfAny (ofColumn? column)) := by
  cases column with
  | nil => exact isometry_id
  | cons first rest =>
    obtain ⟨hnone, -⟩ | ⟨r, hsome, hlength, hfactor, -⟩ := ofColumn?_spec first rest
    · rw [hnone]
      exact isometry_id
    · rw [hsome]
      exact isometry_apply hlength hfactor

/-- `applyIfAny` of the reflection for a column leaves its first element only. -/
theorem applyIfAny_self (first : K) (rest : List K) :
    applyIfAny (ofColumn? (first :: rest)) (first :: rest) =
      leadingImage (ofColumn? (first :: rest)) (first :: rest) :: List.replicate rest.length 0 := by
  obtain ⟨hnone, hrest⟩ | ⟨r, hsome, -, -, himage⟩ := ofColumn?_spec first rest
  · rw [hnone]
    exact congrArg (first :: ·) hrest
  · rw [hsome]
    exact himage

end OfColumn

end Reflection

end Georef

import Georef.Proofs.Double.Agreement
import Georef.Proofs.Matrix.Entries

/-!
# Transposed matrices

Transposing a matrix twice gives it back. The product of two transposed matrices in the opposite order is the
transposed product: each of its entries adds up the same products from the first one on, and only the factors
of each have changed places. So nothing is asked of the numbers but that factors may change places, and the law
holds of numbers that are rounded after every operation. Doubles are such numbers, except that of two NaNs the
first one is passed on.

## Key results

- `transposed_transposed`: transposing twice
- `entry_product_transposed`: the sum that an entry of such a product is
- `product_transposed`: the law for numbers whose factors may change places
- `eqOrNaN_product_transposed`: the law for doubles
-/

namespace Georef

namespace Matrix

variable {α : Type} [Zero α]

/-- `transposed` twice changes nothing. -/
theorem transposed_transposed (m : Matrix α) : m.transposed.transposed = m :=
  ext_entry rfl rfl fun i j _ _ => by rw [entry_transposed, entry_transposed]

variable [Add α]

/-- `sumRange` of related terms are related, if zeros are and sums of two terms. -/
theorem rel_sumRange {R : α → α → Prop} (hzero : R 0 0)
    (hadd : ∀ {x x' y y'}, R x x' → R y y' → R (x + y) (x' + y')) {f g : Nat → α} (hterms : ∀ k, R (f k) (g k))
    (n : Nat) : R (sumRange n f) (sumRange n g) := by
  induction n with
  | zero => exact hzero
  | succ n ih =>
    rw [sumRange_succ, sumRange_succ]
    exact hadd ih (hterms n)

variable [Mul α] {a b : Matrix α} {i j : Nat}

/-- An entry of `product` adds up products from the first one on. -/
theorem entry_product_eq_sumRange (hi : i < a.rows) (hj : j < b.cols) :
    (a.product b).entry i j = sumRange a.cols fun k => a.entry i k * b.entry k j :=
  entry_ofFn hi hj

/-- The entries of the product of `transposed` matrices add in the same order, with factors
    exchanged. -/
theorem entry_product_transposed (hsize : a.cols = b.rows) (hi : i < a.rows) (hj : j < b.cols) :
    (b.transposed.product a.transposed).entry j i = sumRange a.cols fun k => b.entry k j * a.entry i k := by
  rw [entry_product_eq_sumRange (show j < b.transposed.rows from hj) (show i < a.transposed.cols from hi),
    cols_transposed, hsize]
  simp only [entry_transposed]

/-- A product of transposed matrices is related to the transposed product as products are to products with
exchanged factors. -/
theorem rel_product_transposed {R : α → α → Prop} (hzero : R 0 0)
    (hadd : ∀ {x x' y y'}, R x x' → R y y' → R (x + y) (x' + y')) (hmul : ∀ x y, R (x * y) (y * x))
    (hsize : a.cols = b.rows) (hi : i < a.rows) (hj : j < b.cols) :
    R ((b.transposed.product a.transposed).entry j i) ((a.product b).transposed.entry j i) := by
  rw [entry_product_transposed hsize hi hj, entry_transposed, entry_product_eq_sumRange hi hj]
  exact rel_sumRange hzero hadd (fun k => hmul (b.entry k j) (a.entry i k)) a.cols

/-- `product` of transposed matrices is the transposed product, if factors may change places. -/
theorem product_transposed (hcomm : ∀ x y : α, x * y = y * x) (hsize : a.cols = b.rows) :
    b.transposed.product a.transposed = (a.product b).transposed :=
  ext_entry rfl rfl fun _ _ hj hi =>
    rel_product_transposed rfl (fun hx hy => congrArg₂ (· + ·) hx hy) (fun x y => hcomm x y) hsize hi hj

end Matrix

/-! ## Doubles -/

namespace Double

/-- The numbers are equal, or neither of them is a number. -/
def EqOrNaN (x y : Double) : Prop := x = y ∨ x.isNaN = true ∧ y.isNaN = true

variable {x x' y y' : Double}

/-- `isNaN` is passed on by a sum. -/
theorem isNaN_add (h : x.isNaN = true ∨ y.isNaN = true) : (x + y).isNaN = true := by
  show (x.add y).isNaN = true
  rw [add]
  split
  · rename_i hx
    exact isNaN_quieted hx
  · rename_i hx
    have hy : y.isNaN = true := h.resolve_left hx
    rw [if_pos hy]
    exact isNaN_quieted hy

/-- Sums of numbers that are `EqOrNaN` are so as well. -/
theorem EqOrNaN.add (hx : EqOrNaN x x') (hy : EqOrNaN y y') : EqOrNaN (x + y) (x' + y') := by
  obtain rfl | ⟨hx, hx'⟩ := hx
  · obtain rfl | ⟨hy, hy'⟩ := hy
    · exact .inl rfl
    · exact .inr ⟨isNaN_add (.inr hy), isNaN_add (.inr hy')⟩
  · exact .inr ⟨isNaN_add (.inl hx), isNaN_add (.inl hx')⟩

/-- Factors may change places up to `EqOrNaN`: the first of two NaNs is passed on. -/
theorem eqOrNaN_mul_comm (x y : Double) : EqOrNaN (x * y) (y * x) := by
  show EqOrNaN (x.mul y) (y.mul x)
  unfold mul
  -- A product looks for NaNs first, so only two of them can tell the order.
  cases hx : x.isNaN with
  | true =>
    cases hy : y.isNaN with
    | true => exact .inr ⟨isNaN_quieted hx, isNaN_quieted hy⟩
    | false => exact .inl rfl
  | false =>
    cases hy : y.isNaN with
    | true => exact .inl rfl
    | false =>
      left
      have hsign : (x.negative != y.negative) = (y.negative != x.negative) := bne_comm
      rw [hsign, Bool.or_comm x.isInfinite, Bool.or_comm x.isZero, Nat.mul_comm x.units.natAbs]
      rfl

end Double

/-- For doubles, too, a product of transposed matrices is the transposed product, but for the kind
    of NaNs. -/
theorem Matrix.eqOrNaN_product_transposed {a b : Matrix Double} (hsize : a.cols = b.rows) {i j : Nat}
    (hi : i < a.rows) (hj : j < b.cols) :
    Double.EqOrNaN ((b.transposed.product a.transposed).entry j i) ((a.product b).transposed.entry j i) :=
  rel_product_transposed (.inl rfl) .add Double.eqOrNaN_mul_comm hsize hi hj

end Georef

import Georef.Proofs.Matrix.Transposition
import Georef.Proofs.Memory.Isolation

/-!
# Transposing in place

A matrix that is being built is transposed where it is: a square one in its block, any other one by another
block or another reading of the same block. Whichever way it goes, the matrix at its address is the transposed
one afterwards, so that transposing again restores it, and no other matrix is touched. What is multiplied
afterwards are the transposed matrices.

## Key results

- `perform_transposing`: what transposing in place does to the matrices being built
- `run_transposing_both`: two matrices transposed one after the other
- `transposition_reverses_products`: transposing as a law of matrices, and in memory
-/

namespace Georef

/-- The matrix being built that a variable refers to is transposed. -/
def HeapInstruction.transposing (name : String) : HeapInstruction := ⟨.change name .transpose, none⟩

namespace Heap

open HeapInstruction (transposing)

variable {h : Heap} {x y : String} {j k : Nat} {a b : Matrix Double}

/-- `transposing` transposes a matrix being built, and the others stay as they were. -/
theorem perform_transposing (hs : h.Separate) (hx : h.lookup x = some (.builder k)) :
    ∃ m after, h.builderAt? k = some m ∧ h.perform (transposing x) = (.ok (.builder k), after) ∧
      after.builderAt? k = some m.transposed ∧
      ∀ other m', other ≠ k → h.builderAt? other = some m' → after.builderAt? other = some m' := by
  obtain ⟨m, hm, after, hperform, hafter⟩ := perform_change hs hx .transpose none
  refine ⟨m, after, hm, hperform, hafter, fun other m' hne hm' => ?_⟩
  have hkeeps := keeps_perform hs (transposing x)
  have hlt : other < h.builders.length := by
    rw [builderAt?, Option.map_eq_some_iff] at hm'
    obtain ⟨array, harray, -⟩ := hm'
    exact (List.getElem?_eq_some_iff.mp harray).1
  have hsame := hkeeps.builderAt? hlt fun hchanged => by
    -- Only the address that the variable refers to is changed.
    have haddress : Object.builder other = .builder k := Option.some.inj (hchanged.1.symm.trans hx)
    exact hne (Object.builder.inj haddress)
  rw [transposing, hperform] at hsame
  exact hsame.trans hm'

/-- Two matrices being built are transposed one after the other, by a `run` of two instructions. -/
theorem run_transposing_both (hs : h.Separate) (hx : h.lookup x = some (.builder j))
    (hy : h.lookup y = some (.builder k)) (hne : j ≠ k) :
    ∃ a b, h.builderAt? j = some a ∧ h.builderAt? k = some b ∧
      (h.run [transposing x, transposing y]).builderAt? j = some a.transposed ∧
      (h.run [transposing x, transposing y]).builderAt? k = some b.transposed := by
  obtain ⟨a, between, ha, hfirst, hbetween, hothers⟩ := perform_transposing hs hx
  have hseparate := separate_perform hs (transposing x)
  have hlookup : (h.perform (transposing x)).2.lookup y = h.lookup y := lookup_perform hs nofun
  rw [hfirst] at hseparate hlookup
  obtain ⟨b, after, hb, hsecond, hafter, hothers'⟩ := perform_transposing hseparate (hlookup.trans hy)
  -- The second matrix is still what it was before the first one was transposed.
  obtain ⟨array, harray⟩ := hs.exists_array hy
  have hold := builderAt?_eq harray
  obtain rfl := Option.some.inj ((hothers k _ hne.symm hold).symm.trans hb)
  have hrun : h.run [transposing x, transposing y] = after := by
    show ((h.perform (transposing x)).2.perform (transposing y)).2 = after
    rw [hfirst, hsecond]
  rw [hrun]
  exact ⟨a, _, ha, hold, hothers' j _ hne hbetween, hafter⟩

/-- What variables refer to is the same after matrices were transposed: `transposing` assigns
    nothing. -/
theorem lookup_run_transposing (hs : h.Separate) (names : List String) (name : String) :
    (h.run (names.map transposing)).lookup name = h.lookup name := by
  induction names generalizing h with
  | nil => rfl
  | cons x names ih => exact (ih (separate_perform hs (transposing x))).trans (lookup_perform hs nofun)

/-- Transposing exchanges the factors of a product and is undone by transposing again. First, for numbers whose
factors may change places, the product of two transposed matrices in the opposite order is the transposed
product, each of its entries being the same sum from the first term on, with the factors of each term
exchanged. Second, transposing exchanges rows and columns, and twice it changes nothing. Third, after every run
in memory, two matrices that are being built are transposed in place and restored by the same instructions, and
the product of what is there in between is the transposed product of what was there before, where a NaN may
only be another NaN. -/
theorem transposition_reverses_products {α : Type} [Zero α] [Add α] [Mul α]
    (hcomm : ∀ u v : α, u * v = v * u) :
    (∀ a b : Matrix α, a.cols = b.rows → ∃ p q,
      a.multiply b = .ok p ∧ b.transposed.multiply a.transposed = .ok q ∧ q = p.transposed ∧
        ∀ i j, i < a.rows → j < b.cols →
          p.entry i j = Matrix.sumRange a.cols (fun n => a.entry i n * b.entry n j) ∧
          q.entry j i = Matrix.sumRange a.cols (fun n => b.entry n j * a.entry i n)) ∧
    (∀ m : Matrix α, m.transposed.rows = m.cols ∧ m.transposed.cols = m.rows ∧
      (∀ i j, m.transposed.entry i j = m.entry j i) ∧ m.transposed.transposed = m) ∧
    ∀ earlier x y j k,
      let h := start.run earlier
      let both := h.run [transposing x, transposing y]
      let again := both.run [transposing x, transposing y]
      h.lookup x = some (.builder j) → h.lookup y = some (.builder k) → j ≠ k →
        ∃ a b, h.builderAt? j = some a ∧ h.builderAt? k = some b ∧
          both.builderAt? j = some a.transposed ∧ both.builderAt? k = some b.transposed ∧
          again.builderAt? j = some a ∧ again.builderAt? k = some b ∧
          (a.cols = b.rows → ∃ p q,
            a.multiply b = .ok p ∧ b.transposed.multiply a.transposed = .ok q ∧
              q.rows = p.cols ∧ q.cols = p.rows ∧
              ∀ i j, i < p.rows → j < p.cols → (q.entry j i).EqOrNaN (p.entry i j)) := by
  refine ⟨fun a b hsize => ?_, fun m => ?_, ?_⟩
  · exact ⟨_, _, if_pos hsize, if_pos hsize.symm, Matrix.product_transposed hcomm hsize, fun i j hi hj =>
      ⟨Matrix.entry_product_eq_sumRange hi hj, Matrix.entry_product_transposed hsize hi hj⟩⟩
  · exact ⟨rfl, rfl, m.entry_transposed, m.transposed_transposed⟩
  · intro earlier x y j k h both again hx hy hne
    have hs : h.Separate := separate_run separate_start earlier
    have hlookup := lookup_run_transposing hs [x, y]
    obtain ⟨a, b, ha, hb, ha', hb'⟩ := run_transposing_both hs hx hy hne
    obtain ⟨a', b', hfirst, hsecond, hfirst', hsecond'⟩ :=
      run_transposing_both (separate_run hs [transposing x, transposing y]) ((hlookup x).trans hx)
        ((hlookup y).trans hy) hne
    -- The second run starts from what the first one has left.
    obtain rfl := Option.some.inj (ha'.symm.trans hfirst)
    obtain rfl := Option.some.inj (hb'.symm.trans hsecond)
    rw [Matrix.transposed_transposed] at hfirst' hsecond'
    refine ⟨a, b, ha, hb, ha', hb', hfirst', hsecond', fun hsize => ?_⟩
    refine ⟨_, _, if_pos hsize, if_pos hsize.symm, rfl, rfl, fun i j hi hj => ?_⟩
    rw [← Matrix.entry_transposed (a.product b)]
    exact Matrix.eqOrNaN_product_transposed hsize hi hj

/-- A product of integers, and a flat and a square matrix in memory. -/
theorem transposition_reverses_products_flat :
    let a : Matrix Int := .ofRows 2 3 [[1, 2, 3], [4, 5, 6]]
    let b : Matrix Int := .ofRows 3 1 [[1], [0], [-2]]
    let p : Matrix Int := .ofRows 2 1 [[-5], [-8]]
    let h := start.run
      [⟨.make .builder (.elements 2 3 none), some "x"⟩, ⟨.make .builder (.zeros 3 3), some "y"⟩,
        ⟨.change "y" (.element 0 2 (.named 1)), none⟩]
    let both := h.run [transposing "x", transposing "y"]
    (a.multiply b = .ok p ∧ b.transposed.multiply a.transposed = .ok p.transposed) ∧
    h.builderAt? 0 = some (.eye 2 3) ∧ h.builderAt? 1 = some (.ofRows 3 3 [[0, 0, 1]]) ∧
    both.builderAt? 0 = some (.eye 3 2) ∧ both.builderAt? 1 = some (.ofRows 3 3 [[], [], [1]]) ∧
    (both.run [transposing "x", transposing "y"]).builderAt? 1 = some (.ofRows 3 3 [[0, 0, 1]]) := by
  intro a b p h both
  obtain ⟨hproduct, -, hmemory⟩ := transposition_reverses_products Int.mul_comm
  obtain ⟨p', q, hp, hq, rfl, -⟩ := hproduct a b rfl
  have hcomputed : a.multiply b = .ok p := by decide
  obtain rfl := Except.ok.inj (hcomputed.symm.trans hp)
  have hx : h.lookup "x" = some (.builder 0) := by decide
  have hy : h.lookup "y" = some (.builder 1) := by decide
  have hflat : h.builderAt? 0 = some (.eye 2 3) := by decide
  have hsquare : h.builderAt? 1 = some (.ofRows 3 3 [[0, 0, 1]]) := by decide
  obtain ⟨m, m', hm, hm', hfirst, hsecond, -, hagain, -⟩ := hmemory _ "x" "y" 0 1 hx hy (by decide)
  obtain rfl := Option.some.inj (hflat.symm.trans hm)
  obtain rfl := Option.some.inj (hsquare.symm.trans hm')
  have htransposed : (Matrix.eye 2 3 : Matrix Double).transposed = .eye 3 2 ∧
      (Matrix.ofRows 3 3 [[0, 0, 1]] : Matrix Double).transposed = .ofRows 3 3 [[], [], [1]] := by decide
  rw [htransposed.1] at hfirst
  rw [htransposed.2] at hsecond
  exact ⟨⟨hcomputed, hq⟩, hflat, hsquare, hfirst, hsecond, hagain⟩

end Heap

end Georef

import Georef.Proofs.List
import Georef.Proofs.Matrix.HashKeys
import Georef.Transform.Comparison

/-!
# Hash keys of transforms

Linear transforms are equal if their forms and their matrices are, chains if their steps are, and a key is that
of the matrix or the list of the keys of the steps. So what holds of matrices is lifted twice. Keys do not tell
the forms apart, and equal transforms have different keys only through their NaNs.

Such transforms are easily met with: the offset of an inverse on the line is the negative of a quotient, and
taking the negative turns the sign of a NaN.

## Key results

- `equal_hashKeys_iff`: when keys of matrices, linear transforms and chains are equal
- `inverse_hashKey_of_nan`: equal transforms with different keys
-/

namespace Georef

namespace Transform

variable {t u : LinearTransform Double} {ts us : List (LinearTransform Double)}

/-- `LinearTransform.sameAs` compares the forms and the matrices. -/
theorem sameAs_linear_iff :
    t.sameAs u = true ↔ t.className = u.className ∧ t.matrix.sameAs u.matrix = true := by
  simp [LinearTransform.sameAs]

/-- `sameAs` compares chains step by step. -/
theorem sameAs_chain_iff {as bs : List (Step Double)} :
    (chain as).sameAs (chain bs) = true ↔ List.Forall₂ (fun s s' => s.sameAs s' = true) as bs := by
  rw [List.forall₂_iff_zip]
  simp [sameAs]

/-- For chains of linear steps, `sameAs` compares the linear transforms one by one. -/
theorem sameAs_chain_linear_iff :
    (chain (ts.map .linear)).sameAs (chain (us.map .linear)) = true ↔
      List.Forall₂ (fun t u => t.sameAs u = true) ts us := by
  rw [sameAs_chain_iff, List.forall₂_map_left_iff, List.forall₂_map_right_iff]
  rfl

/-- The `hashKey` of a chain of linear steps keeps the keys of all their matrices, in order. -/
theorem hashKey_chain_linear_inj :
    (chain (ts.map .linear)).hashKey = (chain (us.map .linear)).hashKey ↔
      List.Forall₂ (fun t u => t.matrix.hashKey = u.matrix.hashKey) ts us := by
  have hkeys (vs : List (LinearTransform Double)) :
      (vs.map Step.linear).map Step.hashKey = vs.map fun t => t.matrix.hashKey := by
    rw [List.map_map]
    rfl
  rw [hashKey, hashKey, HashKey.tuple.injEq, hkeys, hkeys, ← List.forall₂_eq_eq_eq,
    List.forall₂_map_left_iff, List.forall₂_map_right_iff]

/-- Keys of matrices are equal if the matrices are and their NaNs are the same, `SameNaNs`. Linear
    transforms and chains of them that have the same forms are equal with the same NaNs just when
    their keys are equal. -/
theorem equal_hashKeys_iff (a b : Matrix Double) (t u : LinearTransform Double)
    (ts us : List (LinearTransform Double)) :
    (a.hashKey = b.hashKey ↔ a.sameAs b = true ∧ a.SameNaNs b) ∧
    (t.sameAs u = true ∧ t.matrix.SameNaNs u.matrix ↔
      t.className = u.className ∧ (step (.linear t)).hashKey = (step (.linear u)).hashKey) ∧
    ((chain (ts.map .linear)).sameAs (chain (us.map .linear)) = true ∧
        List.Forall₂ (fun t u => t.matrix.SameNaNs u.matrix) ts us ↔
      List.Forall₂ (fun t u => t.className = u.className) ts us ∧
        (chain (ts.map .linear)).hashKey = (chain (us.map .linear)).hashKey) := by
  have hlinear (t u : LinearTransform Double) :
      t.sameAs u = true ∧ t.matrix.SameNaNs u.matrix ↔
        t.className = u.className ∧ t.matrix.hashKey = u.matrix.hashKey := by
    rw [sameAs_linear_iff, Matrix.hashKey_inj_iff, and_assoc]
  refine ⟨Matrix.hashKey_inj_iff, hlinear t u, ?_⟩
  rw [sameAs_chain_linear_iff, hashKey_chain_linear_inj, ← List.Forall₂.and_iff, ← List.Forall₂.and_iff]
  simp only [hlinear]

/-- The inverse of a doubling with NaN as its offset equals the halving with NaN as its offset, but the two have
different keys, and so have their matrices. -/
theorem inverse_hashKey_of_nan :
    ∃ inverse halving : LinearTransform Double,
      (LinearTransform.ofScale 2.0 (Double.quietNaN false)).inverse = .ok inverse ∧
      halving = .ofScale 0.5 (Double.quietNaN false) ∧
      inverse.sameAs halving = true ∧
      (step (.linear inverse)).hashKey ≠ (step (.linear halving)).hashKey ∧
      inverse.matrix.sameAs halving.matrix = true ∧
      inverse.matrix.hashKey ≠ halving.matrix.hashKey := by
  have hkeys {a b : HashKey} (h : (a == b) = false) : a ≠ b := by simpa using h
  refine ⟨.scaleOffset 0.5 (Double.quietNaN true), _, ?_, rfl, ?_, hkeys ?_, ?_, hkeys ?_⟩
  all_goals decide +kernel

end Transform

end Georef

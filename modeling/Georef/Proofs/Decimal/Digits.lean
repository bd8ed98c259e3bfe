import Georef.Decimal.Basic
import Georef.Text.DecimalDigit
import Mathlib.Tactic.Ring

/-!
# Digits and their value

The digits of a number, read as a number again, are that number; zeros in front of digits do not count, and
zeros behind them multiply by ten. A decimal number written at full length therefore has the same digits as
its significand, apart from zeros at the ends.

## Key results

- `digitsValue_digitChars`: the digits of a number have that number as value
- `powerOfTen_length_le`, `lt_powerOfTen_length`: the count of digits locates a number between powers of ten
- `Decimal.digitsValue_positional`: the digits before and after the point have the value of the significand
-/

namespace Georef

/-- A `powerOfTen` is positive. -/
theorem powerOfTen_pos (n : Nat) : 0 < powerOfTen n := Nat.pow_pos (by decide)

/-- A `powerOfTen` with a sum as exponent is a product. -/
theorem powerOfTen_add (m n : Nat) : powerOfTen (m + n) = powerOfTen m * powerOfTen n :=
  Nat.pow_add 10 m n

/-! ## The digits of a number -/

/-- The character of each digit stands for it. -/
private theorem digitValue?_of_lt : ∀ d < 10, digitValue? (Char.ofNat ('0'.toNat + d)) = some d := by
  decide

/-- `digitValue?` reads the last digit back from `digitChar`. -/
theorem digitValue?_digitChar (d : Nat) : digitValue? (digitChar d) = some (d % 10) :=
  digitValue?_of_lt (d % 10) (Nat.mod_lt d (by decide))

/-- The character is a digit as they are written. -/
def IsWrittenDigit (c : Char) : Prop := ∃ d, c = digitChar d

/-- A property of the ten digits holds for all characters that are written for digits. -/
theorem IsWrittenDigit.of_forall {P : Char → Prop} (h : ∀ d < 10, P (Char.ofNat ('0'.toNat + d))) {c : Char}
    (hc : IsWrittenDigit c) : P c := by
  obtain ⟨d, rfl⟩ := hc
  exact h (d % 10) (Nat.mod_lt d (by decide))

/-- Zeros are written with a digit. -/
theorem isWrittenDigit_zero : IsWrittenDigit '0' := ⟨0, by decide⟩

/-- All `digitChars` of a number are digits. -/
theorem isWrittenDigit_of_mem_digitChars {n : Nat} {c : Char} (h : c ∈ digitChars n) :
    IsWrittenDigit c := by
  induction n using digitChars.induct with
  | case1 n hlt =>
    rw [digitChars, if_pos hlt] at h
    exact ⟨n, List.mem_singleton.mp h⟩
  | case2 n hge ih =>
    rw [digitChars, if_neg hge] at h
    obtain h | h := List.mem_append.mp h
    · exact ih h
    · exact ⟨_, List.mem_singleton.mp h⟩

/-- The `digitChars` of a number are one at least. -/
theorem digitChars_ne_nil (n : Nat) : digitChars n ≠ [] := by
  rw [digitChars]
  split
  · exact List.cons_ne_nil _ _
  · exact List.append_ne_nil_of_right_ne_nil _ (List.cons_ne_nil _ _)

/-- A number is below the `powerOfTen` with as many zeros as it has digits. -/
theorem lt_powerOfTen_length (n : Nat) : n < powerOfTen (digitChars n).length := by
  induction n using digitChars.induct with
  | case1 n hlt =>
    rw [digitChars, if_pos hlt]
    exact hlt
  | case2 n hge ih =>
    rw [digitChars, if_neg hge, List.length_append, powerOfTen_add]
    show n < _ * 10
    omega

/-- A positive number is no less than the `powerOfTen` of its leading digit. -/
theorem powerOfTen_length_le {n : Nat} (h : 0 < n) : powerOfTen ((digitChars n).length - 1) ≤ n := by
  induction n using digitChars.induct with
  | case1 n hlt =>
    rw [digitChars, if_pos hlt]
    exact h
  | case2 n hge ih =>
    have hpos : 0 < (digitChars (n / 10)).length := List.length_pos_iff.mpr (digitChars_ne_nil _)
    -- Without its last digit the number has one digit less.
    have hlength : (digitChars n).length - 1 = (digitChars (n / 10)).length - 1 + 1 := by
      rw [digitChars, if_neg hge, List.length_append, List.length_singleton]
      omega
    have hleading := ih (by omega)
    rw [hlength, powerOfTen_add]
    show _ * 10 ≤ n
    omega

/-! ## The value of digits -/

/-- The `digitsValue` with one more digit behind the others. -/
theorem digitsValue_concat (digits : List Char) (c : Char) :
    digitsValue (digits ++ [c]) = 10 * digitsValue digits + (digitValue? c).getD 0 := by
  rw [digitsValue, List.foldl_append]
  rfl

/-- The `digitsValue` of the digits of a number is that number. -/
theorem digitsValue_digitChars (n : Nat) : digitsValue (digitChars n) = n := by
  induction n using digitChars.induct with
  | case1 n hlt =>
    rw [digitChars, if_pos hlt]
    show 10 * 0 + (digitValue? (digitChar n)).getD 0 = n
    rw [digitValue?_digitChar, Option.getD_some]
    omega
  | case2 n hge ih =>
    rw [digitChars, if_neg hge, digitsValue_concat, ih, digitValue?_digitChar, Option.getD_some]
    omega

/-- `digitsValue` does not count zeros in front of digits. -/
theorem digitsValue_zeros_append (zeros : Nat) (digits : List Char) :
    digitsValue (List.replicate zeros '0' ++ digits) = digitsValue digits := by
  induction zeros with
  | zero => rfl
  | succ zeros ih => exact ih

/-- `digitsValue` is multiplied by ten for each zero behind digits. -/
theorem digitsValue_append_zeros (digits : List Char) (zeros : Nat) :
    digitsValue (digits ++ List.replicate zeros '0') = digitsValue digits * powerOfTen zeros := by
  induction zeros with
  | zero => rw [List.replicate_zero, List.append_nil]; exact (Nat.mul_one _).symm
  | succ zeros ih =>
    rw [List.replicate_succ', ← List.append_assoc, digitsValue_concat, ih, powerOfTen_add]
    show 10 * (_ * _) + 0 = _ * (_ * 10)
    ring

/-! ## Decimal numbers at full length -/

namespace Decimal

variable {d : Decimal}

/-- There is at least one digit before the point among the `wholeDigits`. -/
theorem wholeDigits_ne_nil (d : Decimal) : d.wholeDigits ≠ [] := by
  unfold wholeDigits
  dsimp only
  split
  · exact List.append_ne_nil_of_left_ne_nil (digitChars_ne_nil _) _
  · split
    · rename_i hlt
      refine List.ne_nil_of_length_pos ?_
      rw [List.length_take]
      omega
    · exact List.cons_ne_nil _ _

/-- Zeros that fill up are digits. -/
private theorem isWrittenDigit_of_mem_zeros {zeros : Nat} {c : Char} (h : c ∈ List.replicate zeros '0') :
    IsWrittenDigit c := by
  rw [(List.mem_replicate.mp h).2]
  exact isWrittenDigit_zero

/-- All `wholeDigits` are digits. -/
theorem isWrittenDigit_of_mem_wholeDigits {c : Char} (h : c ∈ d.wholeDigits) : IsWrittenDigit c := by
  unfold wholeDigits at h
  dsimp only at h
  split at h
  · obtain h | h := List.mem_append.mp h
    · exact isWrittenDigit_of_mem_digitChars h
    · exact isWrittenDigit_of_mem_zeros h
  · split at h
    · exact isWrittenDigit_of_mem_digitChars (List.mem_of_mem_take h)
    · rw [List.mem_singleton.mp h]
      exact isWrittenDigit_zero

/-- All `fractionDigits` are digits. -/
theorem isWrittenDigit_of_mem_fractionDigits {c : Char} (h : c ∈ d.fractionDigits) : IsWrittenDigit c := by
  unfold fractionDigits at h
  dsimp only at h
  split at h
  · exact absurd h List.not_mem_nil
  · split at h
    · exact isWrittenDigit_of_mem_digitChars (List.mem_of_mem_drop h)
    · obtain h | h := List.mem_append.mp h
      · exact isWrittenDigit_of_mem_zeros h
      · exact isWrittenDigit_of_mem_digitChars h

/-- A number with a negative power of ten has as many `fractionDigits`. -/
theorem length_fractionDigits (d : Decimal) : d.fractionDigits.length = (-d.exponent).toNat := by
  unfold fractionDigits
  dsimp only
  split
  · rw [List.length_nil]
    omega
  · split
    · rw [List.length_drop]
      omega
    · rw [List.length_append, List.length_replicate]
      omega

/-- The `digitsValue` of the digits before and after the point is the significand, with the zeros of
    a positive power of ten behind it. -/
theorem digitsValue_positional (d : Decimal) :
    digitsValue (d.wholeDigits ++ d.fractionDigits) = d.significand * powerOfTen d.exponent.toNat := by
  unfold wholeDigits fractionDigits
  dsimp only
  split
  · -- Without a fraction there are zeros behind the significand.
    rw [List.append_nil, digitsValue_append_zeros, digitsValue_digitChars]
  · -- With one there are none, and the digits are cut in two or follow zeros.
    have hone : powerOfTen d.exponent.toNat = 1 := by
      rw [show d.exponent.toNat = 0 by omega]
      rfl
    rw [hone, Nat.mul_one]
    split
    · rw [List.take_append_drop, digitsValue_digitChars]
    · rw [← List.append_assoc, ← List.replicate_one, List.replicate_append_replicate,
        digitsValue_zeros_append, digitsValue_digitChars]

end Decimal

end Georef

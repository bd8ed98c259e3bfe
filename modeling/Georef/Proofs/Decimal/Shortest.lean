import Georef.Decimal.Shortest
import Georef.Proofs.Decimal.Digits
import Georef.Proofs.Double.Order

/-!
# The shortest decimal reads back

A decimal with seventeen digits nearest to a finite magnitude is closer to it than half the way to either
neighbour, because ten to the sixteenth is more than two to the fifty-third. So it is rounded to that
magnitude, the search for a decimal that reads back always ends with one, and taking zeros away from its end
does not change what it is rounded to.

## Key results

- `ofDecimal_mul_powerOfTen`: zeros at the end of the digits may be counted by the exponent
- `leadingExponentOfRatio_le`: a quotient is no less than the power of ten of its leading digit
- `readsBack_of_fine`: on a grid of seventeen digits the nearest decimal reads back
- `readsBack_shortest`: the shortest decimal for a finite magnitude reads back
- `ofDecimal_truncate`, `ofDecimal_shortest`: the digits of an integer, and the shortest ones of any number, are
  rounded to that number
-/

namespace Georef

namespace Double

/-! ## Decimals as quotients of units -/

/-- The powers of ten above and below the line of a fraction, for an exponent of any sign. -/
def powerAbove (e : Int) : Nat := powerOfTen e.toNat

def powerBelow (e : Int) : Nat := powerOfTen (-e).toNat

/-- The power of ten below the line is positive. -/
theorem powerBelow_pos (e : Int) : 0 < powerBelow e := powerOfTen_pos _

/-- `ofDecimal` is a quotient of units, rounded by `ofRatio`. -/
theorem ofDecimal_eq (negative : Bool) (significand : Nat) (e : Int) :
    ofDecimal negative significand e =
      ofRatio negative (significand * powerAbove e * unitsPerOne) (powerBelow e) := by
  cases e with
  | ofNat e =>
    rw [powerBelow, show (-Int.ofNat e).toNat = 0 by simp]
    rfl
  | negSucc e =>
    rw [powerAbove, show powerOfTen (Int.negSucc e).toNat = 1 from rfl, Nat.mul_one]
    rfl

/-- `scaledRatio` multiplies by a power of ten above or below the line. -/
theorem scaledRatio_eq (n d : Nat) (e : Int) :
    scaledRatio n d e = (n * powerBelow e, d * powerAbove e) := by
  cases e with
  | ofNat e =>
    rw [powerBelow, show (-Int.ofNat e).toNat = 0 by simp, show powerOfTen 0 = 1 from rfl, Nat.mul_one]
    rfl
  | negSucc e =>
    rw [powerAbove, show powerOfTen (Int.negSucc e).toNat = 1 from rfl, Nat.mul_one]
    rfl

/-- Two fractions of powers of ten with the same exponent. -/
theorem powerAbove_add (e : Int) (k : Nat) :
    powerAbove (e + k) * powerBelow e = powerAbove e * powerOfTen k * powerBelow (e + k) := by
  unfold powerAbove powerBelow
  rw [← powerOfTen_add, ← powerOfTen_add, ← powerOfTen_add]
  congr 1
  omega

/-- `ofDecimal` does not change if the exponent counts the zeros at the end of the digits. -/
theorem ofDecimal_mul_powerOfTen (negative : Bool) (significand k : Nat) (e : Int) :
    ofDecimal negative (significand * powerOfTen k) e = ofDecimal negative significand (e + k) := by
  have hpowers := powerAbove_add e k
  have hsame : nearestMagnitude (significand * powerOfTen k * powerAbove e * unitsPerOne) (powerBelow e) =
      nearestMagnitude (significand * powerAbove (e + k) * unitsPerOne) (powerBelow (e + k)) := by
    refine nearestMagnitude_congr (powerBelow_pos _) (powerBelow_pos _) ?_
    calc significand * powerOfTen k * powerAbove e * unitsPerOne * powerBelow (e + k)
        = significand * unitsPerOne * (powerAbove e * powerOfTen k * powerBelow (e + k)) := by ring
      _ = significand * unitsPerOne * (powerAbove (e + k) * powerBelow e) := by rw [hpowers]
      _ = significand * powerAbove (e + k) * unitsPerOne * powerBelow e := by ring
  simp only [ofDecimal_eq, ofRatio, hsame]

/-! ## The leading digit -/

/-- A quotient is no less than the power of ten with its `leadingExponentOfRatio`. -/
theorem leadingExponentOfRatio_le {n d : Nat} (hn : 0 < n) (hd : 0 < d) :
    d * powerAbove (leadingExponentOfRatio n d) ≤ n * powerBelow (leadingExponentOfRatio n d) := by
  unfold leadingExponentOfRatio
  split
  · rename_i hle
    -- A quotient of one or more has as many digits as its integral part.
    have hdigits := powerOfTen_length_le (Nat.div_pos hle hd)
    have hlength := List.length_pos_iff.mpr (digitChars_ne_nil (n / d))
    generalize (digitChars (n / d)).length = length at hdigits hlength ⊢
    have habove : ((length : Int) - 1).toNat = length - 1 := by omega
    have hbelow : (-((length : Int) - 1)).toNat = 0 := by omega
    rw [powerAbove, powerBelow, habove, hbelow]
    calc d * powerOfTen (length - 1) ≤ d * (n / d) := Nat.mul_le_mul_left d hdigits
      _ ≤ n := Nat.mul_div_le n d
      _ = n * powerOfTen 0 := (Nat.mul_one n).symm
  · -- A quotient below one is reached from above: as many digits as its reciprocal has, rounded
    -- down.
    have hdigits := lt_powerOfTen_length ((d - 1) / n)
    generalize (digitChars ((d - 1) / n)).length = length at hdigits ⊢
    have habove : (-(length : Int)).toNat = 0 := by omega
    have hbelow : (- -(length : Int)).toNat = length := by omega
    rw [powerAbove, powerBelow, habove, hbelow]
    have hlt : d - 1 < powerOfTen length * n := (Nat.div_lt_iff_lt_mul hn).mp hdigits
    calc d * powerOfTen 0 = d := Nat.mul_one d
      _ ≤ powerOfTen length * n := by omega
      _ = n * powerOfTen length := Nat.mul_comm _ _

/-- A quotient written with `k + 1` digits has at least `k` zeros in the first of them. -/
private theorem powerOfTen_le_ratio {n d : Nat} (hn : 0 < n) (hd : 0 < d) (k : Nat) {e : Int}
    (he : e + k = leadingExponentOfRatio n d) :
    d * powerAbove e * powerOfTen k ≤ n * powerBelow e := by
  have hleading := leadingExponentOfRatio_le hn hd
  have hpowers := powerAbove_add e k
  rw [← he] at hleading
  refine Nat.le_of_mul_le_mul_right ?_ (powerBelow_pos (e + k))
  calc d * powerAbove e * powerOfTen k * powerBelow (e + k)
      = d * (powerAbove e * powerOfTen k * powerBelow (e + k)) := by ring
    _ = d * powerAbove (e + k) * powerBelow e := by rw [← hpowers]; ring
    _ ≤ n * powerBelow (e + k) * powerBelow e := Nat.mul_le_mul_right _ hleading
    _ = n * powerBelow e * powerBelow (e + k) := by ring

/-! ## Reading back -/

/-- `roundHalfEven` ends no more than half away from the number. -/
private theorem roundHalfEven_near {a b : Nat} (hb : 0 < b) :
    2 * a ≤ 2 * (roundHalfEven a b * b) + b ∧ 2 * (roundHalfEven a b * b) ≤ 2 * a + b := by
  have hexpand (k : Nat) : (2 * k + 1) * b = 2 * (k * b) + b := by ring
  constructor
  · have hnotabove := mt (lt_roundHalfEven_iff (a := a) (k := roundHalfEven a b) hb).mpr (Nat.lt_irrefl _)
    rw [hexpand] at hnotabove
    omega
  · cases hround : roundHalfEven a b with
    | zero => omega
    | succ k =>
      have hbelow := (lt_roundHalfEven_iff (a := a) (k := k) hb).mp (by omega)
      rw [hexpand] at hbelow
      rw [Nat.succ_mul k b]
      omega

/-- Rounded to a grid much finer than the distance to the neighbours, a magnitude `readsBack`. -/
theorem readsBack_of_fine {m : Nat} (hm : m < infinityMagnitude) {e : Int}
    (hfine : unitsPerOne * powerAbove e * powerOfTen 16 ≤ unitsOfMagnitude m * powerBelow e) :
    readsBack m ⟨roundHalfEven (unitsOfMagnitude m * powerBelow e) (unitsPerOne * powerAbove e), e⟩ = true := by
  have hgrid : 0 < unitsPerOne * powerAbove e := Nat.mul_pos unitsPerOne_pos (powerOfTen_pos _)
  obtain ⟨hlow, hhigh⟩ := roundHalfEven_near (a := unitsOfMagnitude m * powerBelow e) hgrid
  -- A step of the grid is less than the distance to either neighbour.
  have hgap (k : Nat) (hk : m ≤ k + 1) :
      unitsPerOne * powerAbove e < (unitsOfMagnitude (k + 1) - unitsOfMagnitude k) * powerBelow e := by
    have hbits : 2 * fractionCount < powerOfTen 16 := by decide
    have hdistance := Nat.sub_pos_of_lt (unitsOfMagnitude_strictMono (Nat.lt_succ_self k))
    have hpos := Nat.mul_pos hdistance (powerBelow_pos e)
    refine Nat.lt_of_mul_lt_mul_right (a := powerOfTen 16) ?_
    calc unitsPerOne * powerAbove e * powerOfTen 16 ≤ unitsOfMagnitude m * powerBelow e := hfine
      _ ≤ unitsOfMagnitude (k + 1) * powerBelow e :=
          Nat.mul_le_mul_right _ (unitsOfMagnitude_strictMono.monotone hk)
      _ ≤ 2 * fractionCount * (unitsOfMagnitude (k + 1) - unitsOfMagnitude k) * powerBelow e :=
          Nat.mul_le_mul_right _ (unitsOfMagnitude_succ_le k)
      _ = (unitsOfMagnitude (k + 1) - unitsOfMagnitude k) * powerBelow e * (2 * fractionCount) := by ring
      _ < (unitsOfMagnitude (k + 1) - unitsOfMagnitude k) * powerBelow e * powerOfTen 16 :=
          Nat.mul_lt_mul_of_pos_left hbits hpos
  rw [readsBack, beq_iff_eq, ofDecimal_eq]
  show nearestMagnitude (_ * powerAbove e * unitsPerOne) (powerBelow e) = m
  generalize roundHalfEven (unitsOfMagnitude m * powerBelow e) (unitsPerOne * powerAbove e) = digits at *
  have hdigits : digits * powerAbove e * unitsPerOne = digits * (unitsPerOne * powerAbove e) := by ring
  rw [hdigits]
  -- So the decimal is on this side of the middle to either neighbour.
  refine Nat.le_antisymm (nearestMagnitude_le_of_lt (powerBelow_pos e) ?_) ?_
  · have hnext := hgap m (Nat.le_succ m)
    rw [Nat.sub_mul] at hnext
    rw [Nat.mul_add, Nat.mul_comm _ (unitsOfMagnitude m), Nat.mul_comm _ (unitsOfMagnitude (m + 1))]
    omega
  · cases m with
    | zero => exact Nat.zero_le _
    | succ k =>
      refine lt_nearestMagnitude_of_lt (powerBelow_pos e) (by omega) ?_
      have hprevious := hgap k (Nat.le_refl _)
      rw [Nat.sub_mul] at hprevious
      rw [Nat.mul_add, Nat.mul_comm _ (unitsOfMagnitude k), Nat.mul_comm _ (unitsOfMagnitude (k + 1))]
      omega

/-- Of two candidates, one that is taken `readsBack`. -/
private theorem readsBack_of_first {m : Nat} {nearer other d : Decimal}
    (h : (if readsBack m nearer then some nearer
      else if readsBack m other then some other else none) = some d) : readsBack m d = true := by
  split at h
  · rename_i hback
    rwa [← Option.some.inj h]
  · split at h
    · rename_i hback
      rwa [← Option.some.inj h]
    · exact nomatch h

/-- What `shortestWith?` finds with any count of digits reads back. -/
private theorem readsBack_of_shortestWith? {m count : Nat} {d : Decimal}
    (h : shortestWith? m count = some d) : readsBack m d = true := by
  unfold shortestWith? at h
  simp only [scaledRatio_eq] at h
  exact readsBack_of_first h

/-- `shortestWith?` finds a decimal with seventeen digits. -/
private theorem shortestWith?_seventeen {m : Nat} (hpos : 0 < m) (hm : m < infinityMagnitude) :
    shortestWith? m 17 ≠ none := by
  have hunits : unitsOfMagnitude 0 < unitsOfMagnitude m := unitsOfMagnitude_strictMono hpos
  have hexponent (e : Int) : e - (17 : Nat) + 1 + (16 : Nat) = e := by omega
  have hfine := powerOfTen_le_ratio (Nat.zero_lt_of_lt hunits) unitsPerOne_pos 16 (hexponent _)
  have hback := readsBack_of_fine hm hfine
  unfold shortestWith?
  simp only [scaledRatio_eq]
  rw [if_pos hback]
  exact Option.some_ne_none _

/-- `dropTrailingZeros` does not change what a decimal is rounded to. -/
theorem readsBack_dropTrailingZeros (m : Nat) (d : Decimal) :
    readsBack m d.dropTrailingZeros = readsBack m d := by
  induction d using Decimal.dropTrailingZeros.induct with
  | case1 d hzero ih =>
    rw [Decimal.dropTrailingZeros, if_pos hzero, ih]
    have hsignificand : d.significand / 10 * powerOfTen 1 = d.significand := Nat.div_mul_cancel (by omega)
    have hsame := ofDecimal_mul_powerOfTen false (d.significand / 10) 1 d.exponent
    rw [hsignificand] at hsame
    rw [readsBack, readsBack, hsame]
    rfl
  | case2 d hdone => rw [Decimal.dropTrailingZeros, if_neg hdone]

/-- The `shortest` decimal for a finite magnitude reads back. -/
theorem readsBack_shortest {m : Nat} (hm : m < infinityMagnitude) : readsBack m (shortest m) = true := by
  unfold shortest
  split
  · rename_i hzero
    rw [hzero, readsBack, ofDecimal_eq]
    simp [ofRatio]
  · split
    · rename_i d hfound
      -- What is found reads back, and zeros at its end are taken away.
      obtain ⟨count, -, hcount⟩ := List.exists_of_findSome?_eq_some hfound
      rw [readsBack_dropTrailingZeros]
      exact readsBack_of_shortestWith? hcount
    · rename_i hzero _ hnone
      -- That nothing is found is impossible, as seventeen digits are among those tried.
      have hmiss := List.findSome?_eq_none_iff.mp hnone 16 (by simp)
      exact absurd hmiss (shortestWith?_seventeen (Nat.pos_of_ne_zero hzero) hm)

/-! ## Numbers and their decimals -/

/-- `ofDecimal` rounds the digits of an integer to it. -/
theorem ofDecimal_truncate {x : Double} (hx : x.isInteger = true) (hsign : x.negative = false) :
    ofDecimal false x.truncate.natAbs 0 = x := by
  rw [isInteger, Bool.and_eq_true, beq_iff_eq] at hx
  obtain ⟨hfinite, hdivides⟩ := hx
  have hunits : x.units = unitsOfMagnitude x.magnitude := by
    rw [units, hsign]
    rfl
  have hwhole : x.truncate.natAbs * unitsPerOne = unitsOfMagnitude x.magnitude := by
    rw [truncate, Int.natAbs_tdiv, hunits, Int.natAbs_natCast, Int.natAbs_natCast]
    rw [hunits] at hdivides
    exact Nat.div_mul_cancel (Int.natCast_dvd_natCast.mp (Int.dvd_of_emod_eq_zero hdivides))
  refine eq_of_magnitude hsign.symm ?_
  rw [ofDecimal_eq]
  show nearestMagnitude (x.truncate.natAbs * 1 * unitsPerOne) 1 = x.magnitude
  rw [Nat.mul_one, hwhole]
  exact nearestMagnitude_unitsOfMagnitude (of_decide_eq_true hfinite)

/-- `ofDecimal` rounds the `shortest` decimal of a number to it. -/
theorem ofDecimal_shortest {x : Double} (hx : x.Finite) (hsign : x.negative = false) :
    ofDecimal false (shortest x.magnitude).significand (shortest x.magnitude).exponent = x := by
  have hback := readsBack_shortest (of_decide_eq_true hx)
  rw [readsBack, beq_iff_eq] at hback
  refine eq_of_magnitude ?_ hback
  rw [ofDecimal_eq, hsign]
  rfl

end Double

end Georef

import Georef.Decimal.Basic

/-!
# The shortest decimal that reads back

`Double.shortest` finds, for a positive finite number, the decimal with the fewest digits whose
nearest `Double` is that number, and of those with equally many digits the one nearest to its exact
value. For each count of digits from one to seventeen it tries the two neighbours of the value on
the decimal grid with that many digits, in exact arithmetic.
-/

namespace Georef

/-- The power of ten of the leading digit of the positive number `numerator / denominator`. -/
def leadingExponentOfRatio (numerator denominator : Nat) : Int :=
  if denominator ≤ numerator then (digitChars (numerator / denominator)).length - 1
  else -((digitChars ((denominator - 1) / numerator)).length : Int)

/-- `numerator / denominator / 10 ^ exponent` as a numerator and a denominator. -/
def scaledRatio (numerator denominator : Nat) (exponent : Int) : Nat × Nat :=
  match exponent with
  | .ofNat e => (numerator, denominator * powerOfTen e)
  | .negSucc e => (numerator * powerOfTen (e + 1), denominator)

namespace Double

/-- The decimal is nearer to the finite magnitude than to any other. -/
def readsBack (magnitude : Nat) (d : Decimal) : Bool :=
  (ofDecimal false d.significand d.exponent).magnitude == magnitude

/-- A neighbour of the value with `count` digits that reads back, the nearer one first. -/
def shortestWith? (magnitude count : Nat) : Option Decimal :=
  let units := unitsOfMagnitude magnitude
  let exponent := leadingExponentOfRatio units unitsPerOne - count + 1
  let (numerator, denominator) := scaledRatio units unitsPerOne exponent
  let nearer := roundHalfEven numerator denominator
  let below := numerator / denominator
  let other := if nearer = below then below + 1 else below
  if readsBack magnitude ⟨nearer, exponent⟩ then some ⟨nearer, exponent⟩
  else if readsBack magnitude ⟨other, exponent⟩ then some ⟨other, exponent⟩
  else none

/-- The shortest decimal for a finite magnitude; seventeen digits are always enough. -/
def shortest (magnitude : Nat) : Decimal :=
  if magnitude = 0 then ⟨0, 0⟩
  else
    match (List.range 17).findSome? fun n => shortestWith? magnitude (n + 1) with
    | some d => d.dropTrailingZeros
    | none => ⟨0, 0⟩

end Double

end Georef

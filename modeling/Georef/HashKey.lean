import Georef.Double.Basic
import Georef.Mark

/-!
# Hash keys

Equal values have to have equal hashes. A hash key is what the hash of a value depends on, so that
hashes can be compared without computing them: numbers of all kinds share one family of keys, texts
have another one, and composed values have the keys of their parts. What can only be equal to itself
has its mark as a key.

Main statement: `same_iff` says that the comparison of keys finds exactly the equal ones.
-/

namespace Georef

/-- What the hash of a value depends on. -/
inductive HashKey where
  | none
  | number (residue : Int)
  | text (s : String)
  /-- The size of a matrix and the bit patterns of its elements. -/
  | matrix (rows cols : Nat) (bits : List (BitVec 64))
  | object (mark : Mark)
  | tuple (items : List HashKey)

namespace HashKey

mutual

/-- The two keys are the same. -/
def same : HashKey → HashKey → Bool
  | none, none => true
  | number a, number b => a == b
  | text a, text b => a == b
  | matrix rows cols bits, matrix rows' cols' bits' => rows == rows' && cols == cols' && bits == bits'
  | object a, object b => a == b
  | tuple as, tuple bs => sameItems as bs
  | _, _ => false

/-- The keys are the same one by one. -/
def sameItems : List HashKey → List HashKey → Bool
  | [], [] => true
  | a :: as, b :: bs => same a b && sameItems as bs
  | _, _ => false

end

instance : BEq HashKey := ⟨same⟩

mutual

/-- Keys are compared part by part, and so they are the same only if they are equal. -/
theorem same_iff : ∀ a b : HashKey, same a b = true ↔ a = b
  | none, b => by cases b <;> simp [same]
  | number a, b => by cases b <;> simp [same]
  | text a, b => by cases b <;> simp [same]
  | matrix rows cols bits, b => by cases b <;> simp [same, and_assoc]
  | object a, b => by cases b <;> simp [same]
  | tuple as, b => by
    cases b
    case tuple bs => simpa [same] using sameItems_iff as bs
    all_goals simp [same]

theorem sameItems_iff : ∀ as bs : List HashKey, sameItems as bs = true ↔ as = bs
  | [], bs => by cases bs <;> simp [sameItems]
  | a :: as, bs => by
    cases bs with
    | nil => simp [sameItems]
    | cons b bs => simp [sameItems, same_iff a b, sameItems_iff as bs]

end

instance : LawfulBEq HashKey where
  eq_of_beq h := (same_iff _ _).mp h
  rfl := (same_iff _ _).mpr rfl

/-- Hashes of numbers are residues modulo this Mersenne prime, 2^61 - 1. -/
def modulus : Nat := 2305843009213693951

/-- The residue of an integer with the sign of the integer. Minus one is not used as a residue. -/
def residue (negative : Bool) (n : Nat) : Int :=
  let r : Int := n % modulus
  let signed := if negative then -r else r
  if signed = -1 then -2 else signed

/-- The residue that stands for infinity. -/
def infinityResidue : Int := 314159

/-- The key of an integer. -/
def ofInt (n : Int) : HashKey := number (residue (n < 0) n.natAbs)

/-- A power of two that equals one unit, 2^-1074, modulo 2^61 - 1: eighteen times 61 is 1074 + 24. -/
def unitFactor : Nat := powerOfTwo 24

/-- The key of a number, which is that of the integer if it is one. A NaN is only equal to itself. -/
def ofDouble (mark : Mark) (x : Double) : HashKey :=
  if x.isNaN then object mark
  else if x.isInfinite then number (if x.negative then -infinityResidue else infinityResidue)
  else number (residue x.negative (x.units.natAbs * unitFactor))

/-- The key of a text. The empty text shares the key of zero. -/
def ofText (s : String) : HashKey := if s.isEmpty then number 0 else text s

/-- The key of a text that may be missing. -/
def ofText? : Option String → HashKey
  | some s => ofText s
  | .none => none

/-- The key of a truth value, which counts as zero or one. -/
def ofBool (b : Bool) : HashKey := number (if b then 1 else 0)

end HashKey

end Georef

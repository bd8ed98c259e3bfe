/-!
# Marks

Objects that look the same may still be different ones. A mark tells objects apart: two values are the
same object if they have the same mark.
-/

namespace Georef

/-- What tells an object apart from all others. -/
inductive Mark where
  /-- An object made in the course of a session, by its serial number. -/
  | made (serial : Nat)
  /-- The copy of an object that belongs to the copying with a serial number. What is one object inside
  of the copied value is one object inside of the copy. -/
  | copied (serial : Nat) (source : Mark)
  /-- A standard ellipsoid, which exists once for each code. -/
  | standardEllipsoid (code : Int)
  /-- The prime meridian of Greenwich, which exists once. -/
  | greenwich
  /-- The number that stands for an angle that does not exist. -/
  | noAngle
  /-- The number that stands for a half turn in place of its negative. -/
  | halfTurn
  /-- The text of a truth value, which exists once for each of them. -/
  | truthText (b : Bool)
  /-- A truth value out of an array, which exists once for each of them too. -/
  | truthElement (b : Bool)
  /-- The name of a direction, which exists once. -/
  | directionName (name : String)
  /-- A text of at most one character of the first 256, each of which exists once. -/
  | shortText (s : String)
deriving DecidableEq

namespace Mark

/-- The text exists once, wherever it is read or kept as a name. -/
def isShort (s : String) : Bool :=
  match s.toList with
  | [] => true
  | [c] => c.toNat < 256
  | _ => false

/-- The mark of the name of a direction. -/
def ofName (name : String) : Mark := if isShort name then shortText name else directionName name

end Mark

end Georef

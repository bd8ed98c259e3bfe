import Georef.Session.Equality
import Georef.Sorting.Basic

/-!
# Order of values

Numbers, texts, directions and directions along a meridian can be put in order, each among themselves,
and so can lists and sequences by the first place where they differ. Arrays go with numbers and with
sequences of numbers, as long as there is a single place to compare.
-/

namespace Georef

namespace Session

/-- The value comes before the other one, if they are no arrays and have no parts. -/
def atomPrecedes (a b : Value) : Except Failure Bool :=
  match a, b with
  | .text _ a, .text _ b => .ok (a < b)
  | .direction a, .direction b => .ok (a.ordinal < b.ordinal)
  | .meridian _ a, .meridian _ b => .ok (a.precedes b)
  | a, b =>
    match a.number?, b.number? with
    | some x, some y => .ok (x < y)
    | _, _ => .error .wrongKind

/-- The answer of an array for its only place, where `less` tells which places of two arrays are in
order. Texts have no order with arrays; other things have none as soon as one of them is asked. -/
def arrayPrecedes (less : ScalarArray → ScalarArray → Option (Tensor Bool)) (a : ScalarArray)
    (v : Value) : Except Failure Bool := do
  match ← v.asOperand with
  | .scalars b =>
    match less a b with
    | some t => (Verdict.places t).truth
    | none => throw .unusable
  | .texts _ => throw .wrongKind
  | .objects shape =>
    match Tensor.jointShape? a.shape shape with
    | some joint => throw (if shapeSize joint = 0 then .unusable else .wrongKind)
    | none => throw .unusable

/-- The places where the elements of one array are greater than those of the other. -/
def greaterPlaces (a b : ScalarArray) : Option (Tensor Bool) := b.lessPlaces a

mutual

/-- The value comes before the other one. -/
def precedes (s : Session) : Value → Value → Except Failure Bool
  | .list _ as, .list _ bs | .tuple _ as, .tuple _ bs => itemsPrecede s as bs
  | .array _ a, v => arrayPrecedes ScalarArray.lessPlaces a v
  | v, .array _ a => arrayPrecedes greaterPlaces a v
  | .element _ x, v => arrayPrecedes ScalarArray.lessPlaces (.ofScalar x) v
  | v, .element _ x => arrayPrecedes greaterPlaces (.ofScalar x) v
  | a, b => atomPrecedes a b

/-- The first items that differ decide, and the end of a list comes before any item. -/
def itemsPrecede (s : Session) : List Value → List Value → Except Failure Bool
  | a :: as, b :: bs => do
    if a.isSame b then itemsPrecede s as bs
    else if ← (← s.equal a b).truth then itemsPrecede s as bs
    else precedes s a b
  | [], _ :: _ => .ok true
  | _, _ => .ok false

end

/-- The values in order. -/
def sorted (s : Session) (values : List Value) : Except Failure (List Value) :=
  sortBy s.precedes values

end Session

end Georef

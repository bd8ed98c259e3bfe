import Georef.Matrix.Comparison
import Georef.Session.ArrayOperand
import Georef.Session.Basic
import Georef.Transform.Comparison

/-!
# Equality of values

Values of different kinds are never equal, except that a matrix being built equals a published one
with the same elements, and that truth values, integers and other numbers compare as numbers. Lists,
sequences and records are equal if their parts are, where a part is also equal to itself as an object;
only a NaN makes a difference there.

An array is compared place by place and has an answer for each place, which counts as one answer only if
there is a single place. So `equal` gives a `Verdict`, and `Verdict.truth` is what counts.
-/

namespace Georef

/-- The answer to the question whether two values are equal. -/
inductive Verdict where
  | plain (b : Bool)
  /-- The answers of an array for its places. -/
  | places (t : Tensor Bool)

namespace Verdict

/-- The verdict as a single truth value. -/
def truth : Verdict → Except Failure Bool
  | plain b => .ok b
  | places t =>
    match t.elements with
    | [b] => .ok b
    | _ => .error .unusable

/-- A plain verdict counts as it is. -/
@[simp] theorem truth_plain (b : Bool) : (plain b).truth = .ok b := rfl

end Verdict

namespace Session

/-- The matrices, which both values are, have the same elements. -/
def sameMatrix (s : Session) (a b : Value) : Bool :=
  match s.matrix? a, s.matrix? b with
  | some x, some y => x.sameAs y
  | _, _ => false

/-- Places of two arrays that cannot be equal anywhere. -/
def differentPlaces (a b : List Nat) : Except Failure Verdict :=
  match Tensor.jointShape? a b with
  | some shape => .ok (.places (.constant shape false))
  | none => .error .unusable

/-- An array equals a value. Things that are no scalars are equal to none, and a text is asked back if
there are no axes on either side. -/
def arrayEquals (a : ScalarArray) (v : Value) : Except Failure Verdict := do
  match ← v.asOperand with
  | .scalars b =>
    match a.equalPlaces b with
    | some t => .ok (.places t)
    | none => .error .unusable
  | .texts shape =>
    if a.shape = [] ∧ shape = [] then .ok (.plain false) else differentPlaces a.shape shape
  | .objects shape => differentPlaces a.shape shape

/-- An element out of an array equals a value. It knows by itself that it is not the missing value. -/
def elementEquals (x : Scalar) (v : Value) : Except Failure Verdict :=
  match v with
  | .null => .ok (.plain false)
  | v => arrayEquals (.ofScalar x) v

/-- The value answers for itself whether it equals an array: it does not. Other values leave the answer
to the array. -/
def isNoArray : Value → Bool
  | .direction _ | .meridian _ _ => true
  | .transform t =>
    match t.transform with
    | .step (.linear _) | .chain _ => true
    | .step _ => false
  | _ => false

/-- Two values that are no arrays and have no parts are equal. -/
def sameAtom (s : Session) (a b : Value) : Bool :=
  match a, b with
  | .null, .null => true
  | .text _ a, .text _ b => a == b
  | .integer _ a, .integer _ b => a == b
  | .direction a, .direction b => a == b
  | .meridian _ a, .meridian _ b => a.sameAs b
  | .transform a, .transform b => a.transform.sameAs b.transform
  | .frame a _, .frame b _ => a == b
  | .system _ a _, .system _ b _ => a == b
  | .axis _ a, .axis _ b => a == b
  -- A NaN among the numbers is equal to itself as an object.
  | .ellipsoid _ a x, .ellipsoid _ b y => a == b || x.sameAs y
  | .primeMeridian _ a, .primeMeridian _ b => a.sameAs b
  | a, b =>
    match a.number?, b.number? with
    | some x, some y => x == y
    | _, _ => s.sameMatrix a b

mutual

/-- The two values are equal. -/
def equal (s : Session) : Value → Value → Except Failure Verdict
  | .list _ as, .list _ bs | .tuple _ as, .tuple _ bs =>
    if as.length = bs.length then return .plain (← equalItems s as bs) else return .plain false
  | .record _ as, .record _ bs =>
    if as.length = bs.length then return .plain (← equalFields s as bs) else return .plain false
  | .array _ a, v => arrayEquals a v
  | v, .array _ a => if isNoArray v then return .plain false else arrayEquals a v
  | .element _ x, v => elementEquals x v
  | v, .element _ x => if isNoArray v then return .plain false else elementEquals x v
  | a, b => return .plain (sameAtom s a b)

/-- The items are the same objects or equal, one by one. -/
def equalItems (s : Session) : List Value → List Value → Except Failure Bool
  | a :: as, b :: bs => do
    if a.isSame b then equalItems s as bs
    else if ← (← equal s a b).truth then equalItems s as bs
    else return false
  | _, _ => .ok true

/-- Each field is the same object as the one with its key, or equal to it. -/
def equalFields (s : Session) : List (String × Value) → List (String × Value) → Except Failure Bool
  | (key, a) :: as, bs => do
    match bs.lookup key with
    | none => return false
    | some b =>
      if a.isSame b then equalFields s as bs
      else if ← (← equal s a b).truth then equalFields s as bs
      else return false
  | [], _ => .ok true

end

end Session

namespace Procedure

/-- Whether two values are equal, as a value. The answer of an array without axes is an element. -/
def compareValues (a b : Value) : Procedure Value := do
  match ← (← get).equal a b with
  | .plain b => return .boolean b
  | .places t => newComputed (.truths t)

end Procedure

end Georef

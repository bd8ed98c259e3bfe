import Georef.Action
import Georef.Direction.Registry
import Georef.Session.Value

/-!
# Sessions

A session holds the known directions, the matrices that are being built, and the values of the
variables. A `Procedure` reads and changes a session, and when it fails, what it has changed stays changed.

Main statements: `builderAt?_storeBuilder` and `builderAt?_allocate` say what a change of one builder
means for every address, and `lookup_assign` what an assignment means for every variable.
-/

namespace Georef

/-- The state of a session. -/
structure Session where
  registry : Registry
  /-- The matrices that are being built; the place of a matrix is its address. -/
  builders : List (Matrix Double)
  /-- The variables with their values; the first entry for a variable counts. -/
  bindings : List (String × Value)
  /-- The serial number of the next object. -/
  nextSerial : Nat

namespace Session

/-- The session in which nothing has happened yet. -/
def start : Session := ⟨.standard, [], [], 0⟩

/-- The value that the variable `name` holds. -/
def lookup (s : Session) (name : String) : Option Value := s.bindings.lookup name

/-- The session after `value` was given to the variable `name`. -/
def assign (s : Session) (name : String) (value : Value) : Session :=
  { s with bindings := (name, value) :: s.bindings }

/-- By `lookup`, a variable holds the value that was assigned last. -/
theorem lookup_assign (s : Session) (name other : String) (value : Value) :
    (s.assign name value).lookup other = if other = name then some value else s.lookup other := by
  simp only [lookup, assign, List.lookup_cons]
  by_cases h : other = name
  · rw [if_pos h, h, beq_self_eq_true]
  · rw [if_neg h, beq_false_of_ne h]

/-- The matrix being built at an address. -/
def builderAt? (s : Session) (address : Nat) : Option (Matrix Double) := s.builders[address]?

/-- The session after the matrix at an address was replaced. -/
def storeBuilder (s : Session) (address : Nat) (m : Matrix Double) : Session :=
  { s with builders := s.builders.set address m }

/-- The session with one more matrix being built, at the next address. -/
def allocate (s : Session) (m : Matrix Double) : Session :=
  { s with builders := s.builders ++ [m] }

/-- `storeBuilder` leaves all other matrices alone. -/
theorem builderAt?_storeBuilder (s : Session) (address other : Nat) (m : Matrix Double)
    (h : address < s.builders.length) :
    (s.storeBuilder address m).builderAt? other =
      if address = other then some m else s.builderAt? other := by
  simp [storeBuilder, builderAt?, List.getElem?_set, h]

/-- `allocate` leaves all matrices alone that are there already. -/
theorem builderAt?_allocate (s : Session) (other : Nat) (m : Matrix Double)
    (h : other < s.builders.length) : (s.allocate m).builderAt? other = s.builderAt? other := by
  simp [allocate, builderAt?, List.getElem?_append_left h]

/-- The current elements of a matrix, whether published or being built. -/
def matrix? (s : Session) : Value → Option (Matrix Double)
  | .matrix _ m => some m
  | .builder address => s.builderAt? address
  | _ => none

end Session

/-- Something to do in a session that may fail. A failure undoes nothing. -/
abbrev Procedure (α : Type) := Action Session α

namespace Procedure

/-- The value of a variable, which must be one (`unknownVariable`); no variable at all means no
    value. -/
def value (name : Option String) : Procedure Value := do
  match name with
  | none => return .null
  | some held =>
    match (← get).lookup held with
    | some v => return v
    | none => throw (.unknownVariable held)

/-- The known direction of exactly this name (`notRegistered`); no name means no direction. -/
def direction? (name : Option String) : Procedure (Option Direction) := do
  match name with
  | none => return none
  | some known =>
    match (← get).registry.find? known with
    | some d => return some d
    | none => throw (.notRegistered known)

/-- A direction that must be there. -/
def required (d : Option Direction) : Procedure Direction :=
  match d with
  | some d => return d
  | none => throw .unsupported

/-- A serial number that was not used yet; the next one is kept in the session. -/
def freshSerial : Procedure Nat := do
  let serial := (← get).nextSerial
  modify fun s => { s with nextSerial := serial + 1 }
  return serial

/-- A mark that no object has yet, made of a `freshSerial`. -/
def freshMark : Procedure Mark := return .made (← freshSerial)

/-! ## New objects -/

/-- A new integer. -/
def newInteger (n : Int) : Procedure Value := return .integer (← freshMark) n

/-- A new number. -/
def newNumber (x : Double) : Procedure Value := return .number (← freshMark) x

/-- An element out of an array. Truth values out of arrays exist once each. -/
def newElement (x : Scalar) : Procedure Value := do
  match x with
  | .truth b => return .element (.truthElement b) x
  | x => return .element (← freshMark) x

/-- A new text. -/
def newText (s : String) : Procedure Value := return .text (← freshMark) s

/-- A new array of numbers. -/
def newArray (t : Tensor Double) : Procedure Value := return .array (← freshMark) (.numbers t)

/-- A new array that was computed from others; one without axes becomes an element. -/
def newComputed (a : ScalarArray) : Procedure Value := do
  match a.scalar? with
  | some x => newElement x
  | none => return .array (← freshMark) a

/-- A new list. -/
def newList (items : List Value) : Procedure Value := return .list (← freshMark) items

/-- A new list of texts. -/
def newTexts (texts : List String) : Procedure Value := do newList (← texts.mapM newText)

/-- A new sequence that never changes. -/
def newTuple (items : List Value) : Procedure Value := return .tuple (← freshMark) items

/-- A new record. -/
def newRecord (fields : List (String × Value)) : Procedure Value :=
  return .record (← freshMark) fields

/-- A new published matrix. -/
def newMatrix (m : Matrix Double) : Procedure Value := return .matrix (← freshMark) m

/-- A new matrix that is being built, at the address that `allocate` gives it. -/
def newBuilder (m : Matrix Double) : Procedure Value := do
  let address := (← get).builders.length
  modify (·.allocate m)
  return .builder address

/-! ## Using objects -/

/-- The current elements of a matrix by `matrix?`, whether published or being built. -/
def matrix (v : Value) : Procedure (Matrix Double) := do
  match (← get).matrix? v with
  | some m => return m
  | none => throw .unsupported

end Procedure

end Georef

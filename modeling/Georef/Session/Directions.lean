import Georef.Direction.Geocentric
import Georef.Direction.Printer
import Georef.Meridian.Parser
import Georef.Session.Argument
import Georef.Session.HashKey
import Georef.Session.Order
import Georef.Session.Text

/-!
# Directions in a session

Commands on axis directions, which are given by the exact names under which they are known, and on
directions along a meridian, which are held by variables. Only asking for a new name and reading the
axis direction of a meridian can make a name known.
-/

namespace Georef

/-- A command on axis directions. Directions are given by their names. -/
inductive DirectionCommand where
  | known
  /-- The direction of exactly this name, which may be made known. -/
  | find (name : String) (create : Bool)
  | text (d : Option String)
  /-- Whether writing the direction down and reading it back gives the same one. -/
  | survivesArchive (d : Option String)
  | compare (a b : Option String)
  | sort (names : List (Option String))
  | opposite (d : Option String)
  | absolute (d : Option String)
  | isOpposite (d : Option String)
  | isGrid (d : Option String)
  | isSpatialOrCustom (d : Option String) (imageAxes : Bool)
  /-- Lenient search among the candidates, or among all known directions. -/
  | search (name : String) (candidates : Option (List (Option String)))
  | lookup (name : String)

/-- A command on directions along a meridian. -/
inductive MeridianCommand where
  | create (base : Option String) (meridian : Numeral)
  | parse (name : String)
  | ofDirection (d : Option String)
  | direction (m : Option String)
  | text (m : Option String)
  | angle (a b : Option String)
  | compare (a b : Option String)
  | sort (meridians : List (Option String))

/-- How two ordered values compare. -/
structure Comparison where
  less : Bool
  equal : Bool
  sameHash : Bool

/-- All answers to a comparison by their keys. Whether a value is greater or not less follows from
whether it is less or equal. -/
def Comparison.fields (c : Comparison) : List (String × Value) :=
  [("lt", .boolean c.less), ("le", .boolean (c.less || c.equal)),
   ("gt", .boolean (!c.less && !c.equal)), ("ge", .boolean !c.less), ("eq", .boolean c.equal),
   ("same_hash", .boolean c.sameHash)]

/-- The sign of a comparison: negative if the first value comes first. -/
def orderSign : Ordering → Int
  | .lt => -1
  | .eq => 0
  | .gt => 1

namespace Procedure

/-- The direction along a meridian that a value is. -/
def asMeridian (v : Value) : Procedure MeridianDirection :=
  match v with
  | .meridian _ m => return m
  | _ => throw .unsupported

/-- A new direction along a meridian, if there is one. -/
def newMeridian? (m : Option MeridianDirection) : Procedure Value := do
  match m with
  | some m => return .meridian (← freshMark) m
  | none => return .null

/-- Makes a direction known: the registry that `result` brings takes the place of the session's. -/
def learn (result : Direction × Registry) : Procedure Value := do
  modify fun s => { s with registry := result.2 }
  return .direction result.1

/-- The first candidate that a text `matches`; candidates that are no directions cannot be asked. -/
def searchAmong (name : List Char) : List (Option Direction) → Procedure Value
  | [] => return .null
  | none :: _ => throw .unsupported
  | some d :: rest => if d.matches name then return .direction d else searchAmong name rest

/-- The names of directions in their order. -/
def sortedNames (ds : List (Option Direction)) : Procedure Value :=
  match ds.mapM id with
  | some known => newTexts ((known.mergeSort fun a b => a.ordinal ≤ b.ordinal).map (·.name))
  | none => throw (if ds.length = 1 then .unsupported else .wrongKind)

/-- An angle in degrees. Two of its values are kept once for all: that there is no angle, and the half
turn that stands for its negative. -/
def newAngle (angle : Double) (isReplaced : Bool) : Procedure Value :=
  if angle.isNaN then return .number .noAngle angle
  else if isReplaced then return .number .halfTurn angle
  else newNumber angle

/-- The `angle` from one direction along a meridian to another. -/
def newMeridianAngle (a b : MeridianDirection) : Procedure Value :=
  newAngle (a.angle b) (a.turnsHalf b)

end Procedure

open Procedure in
/-- Carries out a command on directions. -/
def DirectionCommand.execute : DirectionCommand → Procedure Value
  | known => do newTexts (← get).registry.names
  | find name create => do
    if create then learn ((← get).registry.intern name)
    else return .ofDirection? ((← get).registry.find? name)
  | text d => do
    let v := Value.ofDirection? (← direction? d)
    let s ← get
    newTexts [s.text v, s.fullText v]
  | survivesArchive d => do
    match ← direction? d with
    | some d => return .boolean (((← get).registry.intern d.name).1 == d)
    | none => return .boolean true
  | compare a b => do
    match ← direction? a, ← direction? b with
    | some a, some b =>
      newRecord (Comparison.fields ⟨a.ordinal < b.ordinal, a == b,
        HashKey.ofText a.name == HashKey.ofText b.name⟩)
    | _, _ => throw .wrongKind
  | sort names => do sortedNames (← names.mapM direction?)
  | opposite d => do return .ofDirection? ((← direction? d).map Direction.opposite)
  | absolute d => do return .ofDirection? ((← direction? d).map Direction.absolute)
  | isOpposite d => do return .boolean ((← direction? d).any Direction.isOpposite)
  | isGrid d => do return .boolean ((← direction? d).any Direction.isGrid)
  | isSpatialOrCustom d imageAxes => do
    return .boolean ((← direction? d).any fun d => d.isSpatialOrCustom imageAxes)
  | search name none => do
    return .ofDirection? (findDirection name.toList (← get).registry.values)
  | search name (some candidates) => do
    searchAmong name.toList (← candidates.mapM direction?)
  | lookup name => do return .ofDirection? ((← get).registry.lookup name)

open Procedure in
/-- Carries out a command on directions along a meridian. -/
def MeridianCommand.execute : MeridianCommand → Procedure Value
  | create base meridian => do
    let base ← direction? base
    let meridian ← meridian.value
    match base with
    | some base => newMeridian? (← MeridianDirection.create base meridian)
    | none =>
      -- The longitude is checked before the base is found to be missing.
      let _ ← MeridianDirection.create .north meridian
      throw .unsupported
  | parse name => newMeridian? (MeridianDirection.parse? name.toList)
  | ofDirection d => do newMeridian? (MeridianDirection.ofDirection? (← required (← direction? d)))
  | direction m => do
    match ← value m with
    | .axis _ a => return .direction a.direction
    | v => learn ((← asMeridian v).direction (← get).registry)
  | text m => do
    let v ← value m
    let s ← get
    newTexts [s.text v, s.fullText v]
  | angle a b => do
    let a ← asMeridian (← value a)
    newMeridianAngle a (← asMeridian (← value b))
  | compare a b => do
    let a ← value a
    let b ← value b
    let a ← asMeridian a
    let b ← asMeridian b
    newRecord (("compare_to", ← newInteger (orderSign (a.compare b))) ::
      Comparison.fields ⟨a.precedes b, a.sameAs b, a.hashKey == b.hashKey⟩)
  | sort names => do
    let values ← names.mapM value
    let s ← get
    newTexts ((← s.sorted values).map s.text)

end Georef

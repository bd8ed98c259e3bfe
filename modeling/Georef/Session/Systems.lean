import Georef.CoordinateSystem.Swap
import Georef.Double.Arithmetic
import Georef.Meridian.Lookup
import Georef.Session.Directions
import Georef.Session.Equality

/-!
# Coordinate systems in a session

Commands on coordinate systems and on the angles between their axes. Understanding the name of an
axis direction may make a direction along a meridian known.
-/

namespace Georef

/-- An axis as it is written down: in full, or by its direction alone. -/
inductive AxisForm where
  | full (name abbreviation : String) (direction : Option String) (unit : Option String)
  | short (direction : Option String)

/-- A command on coordinate systems. -/
inductive SystemCommand where
  | create (name : String) (axes : List AxisForm)
  | axis (cs : Option String) (place : Int)
  | same (cs other : Option String)
  | indexOf (cs direction : Option String)
  | parseDirection (name : String)
  | compassSteps (source target : Option String)
  | angle (source target : Option String)
  | swapAxes (source target : Option String)

namespace Procedure

/-- The axis that is written down, if its direction is there. -/
def formAxis (form : AxisForm) : Procedure (Option Axis) := do
  match form with
  | .full name abbreviation d unit =>
    return (← direction? d).map fun d =>
      ⟨name, abbreviation, d, unit.getD Axis.defaultUnit⟩
  | .short d => return (← direction? d).map Axis.ofDirection

/-- The coordinate system that a value is. -/
def asSystem (v : Value) : Procedure CoordinateSystem :=
  match v with
  | .system _ cs _ => return cs
  | _ => throw .unsupported

/-- The angle between two directions, if there is one. -/
def newAngleBetween (source target : Direction) : Procedure Value := do
  match source.compassSteps? target with
  | some _ => newNumber (source.angle target)
  | none =>
    match MeridianDirection.ofDirection? source, MeridianDirection.ofDirection? target with
    | some s, some t => newMeridianAngle s t
    | _, _ => newAngle (source.angle target) false

/-- The item at a place of a list; a negative place counts from the end. -/
def itemAt {α : Type} (items : List α) (place : Int) : Procedure α :=
  let index := if place < 0 then place + items.length else place
  if index < 0 then throw .positionOutOfRange
  else
    match items[index.toNat]? with
    | some item => return item
    | none => throw .positionOutOfRange

end Procedure

open Procedure in
/-- Carries out a command on coordinate systems. -/
def SystemCommand.execute : SystemCommand → Procedure Value
  | create name axes => do
    match (← axes.mapM formAxis).mapM id with
    | some axes =>
      let cs ← CoordinateSystem.create name axes
      return .system (← freshMark) cs (← axes.mapM fun _ => freshMark)
    | none => throw .unsupported
  | axis cs place => do
    match ← value cs with
    | .system _ cs marks => return .axis (← itemAt marks place) (← cs.axis place)
    | _ => throw .unsupported
  | same cs other => do
    let a ← value cs
    let b ← value other
    compareValues a b
  | indexOf cs d => do
    let v ← value cs
    let d ← direction? d
    match v with
    | .null => newInteger (-1)
    | v =>
      match (d.bind (← asSystem v).indexOf?) with
      | some i => newInteger i
      | none => newInteger (-1)
  | parseDirection name => do learn (← (← get).registry.resolve name)
  | compassSteps source target => do
    let a ← direction? source
    let b ← direction? target
    match (← required a).compassSteps? (← required b) with
    | some steps => newInteger steps
    | none => return .null
  | angle source target => do
    let a ← direction? source
    let b ← direction? target
    newAngleBetween (← required a) (← required b)
  | swapAxes source target => do
    let a ← value source
    let b ← value target
    newMatrix (← (← asSystem a).swapAxes (← asSystem b))

end Georef

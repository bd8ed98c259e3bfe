import Georef.Session.Directions
import Georef.Session.Ellipsoids
import Georef.Session.Matrices
import Georef.Session.Systems
import Georef.Session.Transforms

/-!
# Running a session

An instruction is a command and perhaps a variable for its answer. Instructions are carried out one
after the other, also after one that failed. A failed instruction assigns no variable, but whatever its
command has changed before it failed stays changed.
-/

namespace Georef

/-- A command of a session. -/
inductive Command where
  | matrix (c : MatrixCommand)
  | transform (c : TransformCommand)
  | direction (c : DirectionCommand)
  | meridian (c : MeridianCommand)
  | system (c : SystemCommand)
  | ellipsoid (c : EllipsoidCommand)

/-- A command together with the variable that holds its answer afterwards. -/
structure Instruction where
  command : Command
  variableName : Option String

/-- Carries out a command. -/
def Command.execute : Command → Procedure Value
  | matrix c => c.execute
  | transform c => c.execute
  | direction c => c.execute
  | meridian c => c.execute
  | system c => c.execute
  | ellipsoid c => c.execute

namespace Session

/-- The answer to an instruction and the session afterwards, also if the command fails: only a
    variable is not assigned then. -/
def perform (s : Session) (i : Instruction) : Except Failure Value × Session :=
  match i.command.execute.call s with
  | (.ok v, s') =>
    (.ok v, match i.variableName with
      | some name => s'.assign name v
      | none => s')
  | (.error f, s') => (.error f, s')

/-- The session after a sequence of instructions, one `perform` after the other. -/
def run (s : Session) (instructions : List Instruction) : Session :=
  instructions.foldl (fun s i => (s.perform i).2) s

end Session

end Georef

import Georef.Direction.Basic

/-!
# The registry of directions

A registry keeps the known directions twice: as a list in which the place of a direction is its ordinal, and
in an index by their names. It starts with the standard names and only ever grows, one direction at a time
at the end of the list.
-/

namespace Georef

/-- The known directions. -/
structure Registry where
  /-- The directions in the order in which they became known. -/
  values : List Direction
  /-- The directions by their names; the first entry for a name counts. -/
  index : List (String × Direction)
deriving DecidableEq

namespace Registry

/-- Adds a direction of the given name to the list, and then to the `index`. -/
def register (r : Registry) (name : String) : Direction × Registry :=
  let d : Direction := ⟨name, r.values.length⟩
  let listed : Registry := { r with values := r.values ++ [d] }
  (d, { listed with index := (name, d) :: listed.index })

/-- The registry that knows the standard directions only. -/
def standard : Registry := standardNames.foldl (fun r name => (r.register name).2) ⟨[], []⟩

/-- The names of all known directions in order. -/
def names (r : Registry) : List String := r.values.map (·.name)

/-- The direction of exactly this name, by the `index`. -/
def find? (r : Registry) (name : String) : Option Direction := r.index.lookup name

/-- The direction of exactly this name, which becomes known by `register` if it was not. -/
def intern (r : Registry) (name : String) : Direction × Registry :=
  match r.find? name with
  | some d => (d, r)
  | none => r.register name

end Registry

end Georef

/-!
# Case mappings

A case mapping sends a character to one or more characters. Most of it is regular: runs of code
points, all or every other one, that move by one distance. The rest is listed as expansions.
-/

namespace Georef

/-- Code points from `first` to `last` in steps of `step` that all move by `distance`. -/
structure CaseRun where
  first : Nat
  last : Nat
  step : Nat
  distance : Int

/-- A mapping of characters to texts; what it does not mention stays as it is. Runs and expansions
are listed in increasing order. -/
structure CaseMap where
  runs : List CaseRun
  expansions : List (Nat × List Nat)

/-- The distance of the run that the code point belongs to; the search stops at the first run that
starts above it. -/
def distanceIn? : List CaseRun → Nat → Option Int
  | [], _ => none
  | run :: rest, code =>
    if code < run.first then none
    else if code ≤ run.last ∧ (code - run.first) % run.step = 0 then some run.distance
    else distanceIn? rest code

/-- The expansion of a code point; the search stops at the first entry above it. -/
def expansionIn? : List (Nat × List Nat) → Nat → Option (List Nat)
  | [], _ => none
  | (first, image) :: rest, code =>
    if code < first then none
    else if code = first then some image
    else expansionIn? rest code

/-- The image of a character. -/
def CaseMap.apply (map : CaseMap) (c : Char) : List Char :=
  match expansionIn? map.expansions c.toNat with
  | some codes => codes.map Char.ofNat
  | none =>
    match distanceIn? map.runs c.toNat with
    | some distance => [Char.ofNat ((c.toNat : Int) + distance).toNat]
    | none => [c]

end Georef

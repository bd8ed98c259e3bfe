import Georef.Sorting.Gallop

/-!
# Merging runs

`mergeRuns` merges two neighbouring sorted runs. The items are taken one by one as long as both runs
take turns; once one run has won several times in a row, whole stretches are found by galloping. How
many wins it takes is the patience, which falls while galloping pays and rises when it does not.

The shorter run is held aside. If that is the right one, the merge goes from the ends of the runs to
their starts: it is the merge of the reversed runs with the comparison turned round.
-/

namespace Georef

variable {α ε : Type}

/-- A merge in progress. -/
structure Merging (α : Type) where
  /-- The items merged so far, the latest one first. -/
  merged : List α
  /-- What is left of the run that is held aside. -/
  held : List α
  /-- What is left of the other run. -/
  other : List α
  /-- How many wins in a row start galloping. -/
  patience : Nat

/-- How a merge compares and searches. -/
structure MergeOrder (α ε : Type) where
  /-- An item of the other run comes before an item of the held one. -/
  otherFirst : α → α → Except ε Bool
  /-- The merge goes from the ends of the runs to their starts. -/
  backward : Bool

/-- A stretch at least this long keeps a merge galloping. -/
def leastStretch : Nat := 7

namespace Merging

/-- What follows the merged items once no more comparison is needed. The last item of the held run is
known to come last. -/
def rest? (m : Merging α) : Option (List α) :=
  match m.held, m.other with
  | [], other => some other
  | [last], other => some (other ++ [last])
  | held, [] => some held
  | _, _ => none

/-- No more comparison is needed. -/
def isDone (m : Merging α) : Bool := m.rest?.isSome

/-- All items in the order of the merge. -/
def items (m : Merging α) : List α := m.merged.reverse ++ m.rest?.getD []

/-- Takes the next item of one of the runs and tells whether it is the other one. -/
def takeNext (order : MergeOrder α ε) (m : Merging α) : Except ε (Bool × Merging α) := do
  match m.held, m.other with
  | t :: held, o :: other =>
    if ← order.otherFirst o t then return (true, { m with merged := o :: m.merged, other := other })
    else return (false, { m with merged := t :: m.merged, held := held })
  | _, _ => return (false, m)

/-- Takes items one by one until one run has won as often in a row as the patience says. -/
def takeTurns (order : MergeOrder α ε) : Nat → Bool → Nat → Merging α → Except ε (Merging α)
  | 0, _, _, m => return m
  | fuel + 1, winner, wins, m => do
    let (next, taken) ← m.takeNext order
    let wins := if next = winner then wins + 1 else 1
    if taken.isDone || taken.patience ≤ wins then return taken
    else takeTurns order fuel next wins taken

/-- Takes the stretch of held items that the next other item does not precede, then that item; also
tells how long the stretch is. -/
def passHeld (order : MergeOrder α ε) (m : Merging α) : Except ε (Nat × Merging α) := do
  match m.other with
  | [] => return (0, m)
  | o :: other =>
    let count ← gallop (fun t => (order.otherFirst o t).map not) order.backward m.held
    let taken :=
      { m with merged := (m.held.take count).reverse ++ m.merged, held := m.held.drop count }
    if taken.isDone then return (count, taken)
    else return (count, { taken with merged := o :: taken.merged, other := other })

/-- Takes the stretch of other items that precede the next held item, then that item; also tells how
long the stretch is. -/
def passOther (order : MergeOrder α ε) (m : Merging α) : Except ε (Nat × Merging α) := do
  match m.held with
  | [] => return (0, m)
  | t :: held =>
    let count ← gallop (fun o => order.otherFirst o t) order.backward m.other
    let taken :=
      { m with merged := (m.other.take count).reverse ++ m.merged, other := m.other.drop count }
    if taken.isDone then return (count, taken)
    else return (count, { taken with merged := t :: taken.merged, held := held })

/-- Takes stretches of both runs as long as one of them is long. The left run comes first, which is
the held one unless the merge is backward. -/
def takeStretches (order : MergeOrder α ε) : Nat → Merging α → Except ε (Merging α)
  | 0, m => return m
  | fuel + 1, m => do
    let (firstCount, first) ← if order.backward then m.passOther order else m.passHeld order
    if first.isDone then return first
    else
      let (secondCount, second) ←
        if order.backward then first.passHeld order else first.passOther order
      if second.isDone then return second
      else if leastStretch ≤ firstCount ∨ leastStretch ≤ secondCount then
        takeStretches order fuel { second with patience := max 1 (second.patience - 1) }
      else return { second with patience := second.patience + 1 }

/-- Takes turns and stretches until no more comparison is needed. -/
def finish (order : MergeOrder α ε) : Nat → Merging α → Except ε (Merging α)
  | 0, m => return m
  | fuel + 1, m => do
    if m.isDone then return m
    else
      let length := m.held.length + m.other.length
      let turned ← m.takeTurns order length false 0
      if turned.isDone then return turned
      else finish order fuel (← turned.takeStretches order length)

/-- Merges two runs, of which the first item of the other one comes first of all. The items and the
patience afterwards. -/
def run (order : MergeOrder α ε) (patience : Nat) (held other : List α) :
    Except ε (List α × Nat) := do
  let start : Merging α := ⟨other.take 1, held, other.drop 1, patience⟩
  let finish ← start.finish order (held.length + other.length)
  return (finish.items, finish.patience)

end Merging

/-- Merges two neighbouring runs; items of the left run come first where the comparison leaves that
open. What is in place already, at the start of the left run and at the end of the right one, takes no
part. -/
def mergeRuns (precedes : α → α → Except ε Bool) (patience : Nat) (left right : List α) :
    Except ε (List α × Nat) := do
  match right with
  | [] => return (left, patience)
  | first :: _ =>
    let before ← gallop (fun x => (precedes first x).map not) false left
    match (left.drop before).getLast? with
    | none => return (left ++ right, patience)
    | some last =>
      let behind ← gallop (fun y => (precedes y last).map not) true right.reverse
      let l := left.drop before
      let r := right.take (right.length - behind)
      let (merged, patience) ←
        if r.isEmpty then pure (l, patience)
        else if l.length ≤ r.length then Merging.run ⟨precedes, false⟩ patience l r
        else do
          let (merged, patience) ←
            Merging.run ⟨fun x y => precedes y x, true⟩ patience r.reverse l.reverse
          pure (merged.reverse, patience)
      return (left.take before ++ merged ++ right.drop (right.length - behind), patience)

end Georef

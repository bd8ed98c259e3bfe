import Georef.Sorting.Merge

/-!
# Sorting by a comparison

Directions along meridians go round a circle, so their comparison need not be transitive and the
sorted order depends on which pairs are compared. `sortBy` fixes that. The items are cut into runs:
the longest sorted stretch, reversed if it descends, made longer by binary insertion if it is short.
Neighbouring runs are merged in the order of a nearly balanced tree over the whole list.

Items may be impossible to compare. The first comparison that is made and fails ends the sorting, so
what is compared with what also settles which error that is.
-/

namespace Georef

variable {α ε : Type}

/-! ## Runs -/

/-- How many further items continue a run: each one against its predecessor `previous`. -/
def runLength (continues : α → α → Except ε Bool) (previous : α) : List α → Except ε Nat
  | [] => return 0
  | x :: rest => do
    if ← continues previous x then return (← runLength continues x rest) + 1 else return 0

/-- The longest sorted stretch at the start of a list, in order, and what follows it. Only strictly
descending stretches are reversed, so that equal items keep their order. -/
def leadingRun (precedes : α → α → Except ε Bool) : List α → Except ε (List α × List α)
  | x :: y :: rest => do
    let items := x :: y :: rest
    let descending ← precedes y x
    let length := 2 + (← runLength (fun a b => (precedes b a).map (· == descending)) y rest)
    let run := items.take length
    return (if descending then run.reverse else run, items.drop length)
  | items => return (items, [])

/-- The place for an item among `low` to `high` sorted items: halving the range, left of the middle
item if the item precedes that, right of it otherwise. -/
def insertionPlace (precedes : α → α → Except ε Bool) (items : List α) (x : α) (low high : Nat) :
    Except ε Nat := do
  if low < high then
    let middle := low + (high - low) / 2
    match items[middle]? with
    | some y =>
      if ← precedes x y then insertionPlace precedes items x low middle
      else insertionPlace precedes items x (middle + 1) high
    | none => return low
  else return low
termination_by high - low

/-- The items with one more put in its place. -/
def insertSorted (precedes : α → α → Except ε Bool) (items : List α) (x : α) :
    Except ε (List α) := do
  let place ← insertionPlace precedes items x 0 items.length
  return items.take place ++ x :: items.drop place

/-- Lists shorter than this are sorted by insertion alone. -/
def leastMergeCount : Nat := 64

/-- The length that runs of a list of the given length must have: the leading binary digits of the
length, rounded up, so that there are a few runs fewer than a power of two. -/
def leastRunLength (count : Nat) : Nat :=
  let rec halve (fuel n dropped : Nat) : Nat :=
    match fuel with
    | 0 => n + dropped
    | fuel + 1 => if n < leastMergeCount then n + dropped else halve fuel (n / 2) (max dropped (n % 2))
  halve count count 0

/-! ## The tree of merges -/

/-- A sorted run on its way to being merged. -/
structure SortedRun (α : Type) where
  items : List α
  /-- The place of its first item in the whole list. -/
  start : Nat
  /-- The depth in the tree of merges of the border to the next run. -/
  depth : Nat

/-- The depth of the border between two neighbouring runs: how many binary digits it takes to tell
apart the middles of the two, as fractions of the whole list. The arguments are twice the middles. -/
def borderDepth (count : Nat) : Nat → Nat → Nat → Nat
  | 0, _, _ => 0
  | fuel + 1, left, right =>
    if count ≤ left then 1 + borderDepth count fuel (2 * (left - count)) (2 * (right - count))
    else if count ≤ right then 1
    else 1 + borderDepth count fuel (2 * left) (2 * right)

/-- The runs that wait to be merged, the latest one first, and the patience of merges. -/
structure MergeStack (α : Type) where
  runs : List (SortedRun α)
  patience : Nat

namespace MergeStack

/-- Merges a run with the one after it. -/
def mergePair (precedes : α → α → Except ε Bool) (patience : Nat) (left right : SortedRun α) :
    Except ε (SortedRun α × Nat) := do
  let (items, patience) ← mergeRuns precedes patience left.items right.items
  return (⟨items, left.start, right.depth⟩, patience)

/-- Merges the latest runs as long as the border between them lies deeper than a new one. -/
def collapse (precedes : α → α → Except ε Bool) (depth : Nat) :
    Nat → MergeStack α → Except ε (MergeStack α)
  | fuel + 1, ⟨right :: left :: rest, patience⟩ => do
    if depth < left.depth then
      let (run, patience) ← mergePair precedes patience left right
      collapse precedes depth fuel ⟨run :: rest, patience⟩
    else return ⟨right :: left :: rest, patience⟩
  | _, stack => return stack

/-- The stack with one more run. -/
def push (precedes : α → α → Except ε Bool) (count : Nat) (stack : MergeStack α) (run : List α) :
    Except ε (MergeStack α) := do
  match stack.runs with
  | [] => return { stack with runs := [⟨run, 0, 0⟩] }
  | top :: _ =>
    let start := top.start + top.items.length
    let depth := borderDepth count count (2 * top.start + top.items.length) (2 * start + run.length)
    let collapsed ← stack.collapse precedes depth stack.runs.length
    match collapsed.runs with
    | [] => return { collapsed with runs := [⟨run, start, 0⟩] }
    | top :: rest =>
      return { collapsed with runs := ⟨run, start, 0⟩ :: { top with depth := depth } :: rest }

/-- Merges all runs. The latest run waits while the two before it are shorter. -/
def mergeAll (precedes : α → α → Except ε Bool) : Nat → MergeStack α → Except ε (List α)
  | fuel + 1, ⟨third :: second :: first :: rest, patience⟩ => do
    if first.items.length < third.items.length then
      let (run, patience) ← mergePair precedes patience first second
      mergeAll precedes fuel ⟨third :: run :: rest, patience⟩
    else
      let (run, patience) ← mergePair precedes patience second third
      mergeAll precedes fuel ⟨run :: first :: rest, patience⟩
  | _, ⟨second :: first :: _, patience⟩ =>
    return (← mergePair precedes patience first second).1.items
  | _, ⟨runs, _⟩ => return runs.flatMap (·.items)

/-- Cuts a list into runs of at least the given length and puts them on the stack. -/
def pushAll (precedes : α → α → Except ε Bool) (count least : Nat) :
    Nat → List α → MergeStack α → Except ε (MergeStack α)
  | fuel + 1, x :: rest, stack => do
    let (run, after) ← leadingRun precedes (x :: rest)
    let missing := least - run.length
    let extended ← (after.take missing).foldlM (insertSorted precedes) run
    pushAll precedes count least fuel (after.drop missing) (← stack.push precedes count extended)
  | _, _, stack => return stack

end MergeStack

/-- The items sorted by the comparison. -/
def sortBy (precedes : α → α → Except ε Bool) (items : List α) : Except ε (List α) := do
  let count := items.length
  let stack : MergeStack α := ⟨[], leastStretch⟩
  let runs ← stack.pushAll precedes count (leastRunLength count) count items
  runs.mergeAll precedes runs.runs.length

end Georef

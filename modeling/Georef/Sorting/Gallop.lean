/-!
# Galloping search

`gallop` counts how many items at the start of a list have a property that the later ones lack. It
looks at places 0, 1, 3, 7, … until one fails and halves the range in which the first failure lies. On
a list where the property comes and goes the count depends on the places that are looked at.

Looking at a place may raise an error, which ends the search; places that are not looked at raise none.
-/

namespace Georef

variable {α ε : Type}

/-- Where a range of the given length is cut into halves. A backward search cuts where a search from
the other end of the range would. -/
def middle (backward : Bool) (length : Nat) : Nat :=
  if backward then (length - 1) / 2 else length / 2

theorem middle_lt (backward : Bool) {length : Nat} (h : 0 < length) : middle backward length < length := by
  unfold middle
  split <;> omega

/-- The first place from `low` on, and before `high`, where the property fails, by halving. -/
def firstFailure (holds : Nat → Except ε Bool) (backward : Bool) (low high : Nat) : Except ε Nat := do
  if h : low < high then
    let place := low + middle backward (high - low)
    if ← holds place then firstFailure holds backward (place + 1) high
    else firstFailure holds backward low place
  else return high
termination_by high - low
decreasing_by all_goals have := middle_lt backward (Nat.sub_pos_of_lt h); omega

/-- The range in which the first failure lies: the property holds at `place`, then strides grow. -/
def stride (holds : Nat → Except ε Bool) (count place next : Nat) : Except ε (Nat × Nat) := do
  if next < count then
    if ← holds next then stride holds count next (2 * next + 1) else return (place + 1, next)
  else return (place + 1, count)
termination_by count - next

/-- How many items at the start of a list have a property. -/
def gallop (holds : α → Except ε Bool) (backward : Bool) (items : List α) : Except ε Nat := do
  let holdsAt (place : Nat) : Except ε Bool :=
    match items[place]? with
    | some x => holds x
    | none => .ok false
  if ← holdsAt 0 then
    let (low, high) ← stride holdsAt items.length 0 1
    firstFailure holdsAt backward low high
  else return 0

end Georef

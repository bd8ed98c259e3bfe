/-!
# Sets of characters given by ranges

A character class of the Unicode standard is a list of inclusive code point ranges in increasing
order; membership is `inRanges`.
-/

namespace Georef

/-- Membership in increasing, inclusive ranges; the search stops at the first range above. -/
def inRanges : List (Nat × Nat) → Nat → Bool
  | [], _ => false
  | (first, last) :: rest, code =>
    if code < first then false
    else if code ≤ last then true
    else inRanges rest code

/-- Position inside the range that holds the code point. -/
def offsetInRanges? : List (Nat × Nat) → Nat → Option Nat
  | [], _ => none
  | (first, last) :: rest, code =>
    if code < first then none
    else if code ≤ last then some (code - first)
    else offsetInRanges? rest code

end Georef

import Georef.Session.Basic

/-!
# Copies of values

A copy is a new object that equals the copied one. A shallow copy shares its parts, a deep one copies
them too, and an archived one is written down and read back, which makes everything anew and checks
matrices. What never changes and has no changing parts needs no copy, unless it is archived.

What is one object inside of a value is one object inside of its copy: each copying has a serial number,
and the mark of a copied object is that number with the mark of the object it was copied from.
-/

namespace Georef

/-- How a copy is made. -/
inductive CopyMode where
  | shallow
  | deep
  /-- By writing the value down and reading it back. -/
  | archived
deriving DecidableEq

/-- A single act of copying: how it is done, and its serial number. -/
structure Copying where
  mode : CopyMode
  serial : Nat

namespace Copying

/-- The mark of an object that is copied in any case. -/
def mark (c : Copying) (source : Mark) : Mark := .copied c.serial source

/-- The mark of an object that never changes, which is only made anew when it is archived. -/
def constantMark (c : Copying) (source : Mark) : Mark :=
  if c.mode = .archived then c.mark source else source

/-- The mark of a part, which a shallow copy shares. -/
def partMark (c : Copying) (source : Mark) : Mark :=
  if c.mode = .shallow then source else c.mark source

/-- The mark of a text. -/
def textMark (c : Copying) (source : Mark) (s : String) : Mark :=
  if c.mode = .archived && Mark.isShort s then .shortText s else c.constantMark source

/-- The elements of a copied matrix, which must not be empty to be archived. -/
def elements (c : Copying) (m : Matrix Double) : Except Failure (Matrix Double) :=
  if c.mode = .archived then Matrix.ofArray m.toTensor else .ok m

/-- A copied step. A mapping is told apart by its mark, so its copy is another mapping. -/
def step (c : Copying) (s : StepObject) : Except Failure StepObject := do
  let mark := c.mark s.mark
  let copied : Step Double ← match s.step with
    | .linear (.projective planar m) => pure (.linear (.projective planar (← c.elements m)))
    | .linear t => pure (.linear t)
    | .managed m => pure (.managed { m with mark := mark })
    | .foreign m => pure (.foreign { m with mark := mark })
  return ⟨copied, mark, c.partMark s.matrixMark⟩

/-- A copied transform. A shallow copy of a chain shares the steps. -/
def transform (c : Copying) (t : TransformObject) : Except Failure TransformObject := do
  match t with
  | .step s => return .step (← c.step s)
  | .chain mark steps =>
    return .chain (c.mark mark) (← if c.mode = .shallow then pure steps else steps.mapM c.step)

end Copying

namespace Procedure

open Copying (mark constantMark partMark textMark)

mutual

/-- A copy of a value. -/
def copyWith (c : Copying) : Value → Procedure Value
  | .null => return .null
  | .boolean b => return .boolean b
  | .direction d => return .direction d
  | .integer source n => return .integer (constantMark c source) n
  | .number source x => return .number (constantMark c source) x
  | .element source (.truth b) => return .element source (.truth b)
  | .element source x => return .element (constantMark c source) x
  | .text source s => return .text (textMark c source s) s
  | .tuple source items => do
    return .tuple (constantMark c source) (← if c.mode = .shallow then pure items else copyAll c items)
  | .meridian source m => return .meridian (mark c source) m
  | .array source a => return .array (mark c source) a
  | .matrix source m => return .matrix (mark c source) (← c.elements m)
  | .builder address => do newBuilder (← c.elements (← matrix (.builder address)))
  | .transform t => return .transform (← c.transform t)
  | .frame source array => return .frame (mark c source) array
  | .axis source a => return .axis (mark c source) a
  | .system source cs axisMarks =>
    return .system (mark c source) cs (axisMarks.map (partMark c))
  | .ellipsoid source numbersMark e =>
    return .ellipsoid (mark c source) (constantMark c numbersMark) e
  | .primeMeridian source p => return .primeMeridian (mark c source) p
  | .list source items => do
    return .list (mark c source) (← if c.mode = .shallow then pure items else copyAll c items)
  | .record source fields => do
    return .record (mark c source)
      (← if c.mode = .shallow then pure fields else copyFields c fields)

/-- Copies of several values. -/
def copyAll (c : Copying) : List Value → Procedure (List Value)
  | [] => return []
  | v :: rest => return (← copyWith c v) :: (← copyAll c rest)

/-- The fields of a record with copied values. -/
def copyFields (c : Copying) : List (String × Value) → Procedure (List (String × Value))
  | [] => return []
  | (key, v) :: rest => return (key, ← copyWith c v) :: (← copyFields c rest)

end

/-- A copy of a value. -/
def copyValue (mode : CopyMode) (v : Value) : Procedure Value := do
  copyWith ⟨mode, ← freshSerial⟩ v

end Procedure

end Georef

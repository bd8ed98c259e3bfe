import Georef.CoordinateSystem.Printer
import Georef.Ellipsoid.Printer
import Georef.Matrix.Printer
import Georef.Meridian.Printer
import Georef.Direction.Printer
import Georef.Session.Basic
import Georef.Transform.Printer

/-!
# Values as text

`Session.text` is the text of a value by itself, and `Session.fullText` one from which its kind can be
told, which is also how a value is written as a part of another one. Only texts, directions,
directions along a meridian, arrays and elements of arrays tell the two apart.
-/

namespace Georef

namespace Session

mutual

/-- The text of a value from which its kind can be told. -/
def fullText (s : Session) : Value → String
  | .null => missingText
  | .boolean b => truthText b
  | .integer _ n => integerText n
  | .number _ x => x.text
  | .element _ x => x.fullText
  | .text _ t => quoted t
  | .direction d => d.text
  | .meridian _ m => m.fullText
  | .array _ a => a.fullText
  | .matrix _ m => m.text "Matrix"
  | .builder address => ((s.builderAt? address).map fun m => m.text "MatrixBuilder").getD missingText
  | .transform t => t.transform.text
  | .frame _ _ => "Frame"
  | .axis _ a => a.text
  | .system _ cs _ => cs.text
  | .ellipsoid _ _ e => e.text
  | .primeMeridian _ p => p.text
  | .list _ items => listText (fullTexts s items)
  | .tuple _ items => tupleText (fullTexts s items)
  | .record _ fields => recordText (fieldTexts s fields)

/-- The texts of several values. -/
def fullTexts (s : Session) : List Value → List String
  | [] => []
  | v :: rest => fullText s v :: fullTexts s rest

/-- The texts of the values of a record. -/
def fieldTexts (s : Session) : List (String × Value) → List (String × String)
  | [] => []
  | (key, v) :: rest => (key, fullText s v) :: fieldTexts s rest

end

/-- The text of a value by itself. -/
def text (s : Session) : Value → String
  | .text _ t => t
  | .direction d => d.name
  | .meridian _ m => m.text
  | .array _ a => a.text
  | .element _ x => x.text
  | v => s.fullText v

end Session

end Georef

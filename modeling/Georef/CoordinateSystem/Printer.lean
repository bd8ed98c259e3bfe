import Georef.CoordinateSystem.Basic
import Georef.Direction.Printer

/-!
# The text of a coordinate system

Axes and coordinate systems are written with all their parts.
-/

namespace Georef

/-- The text of an axis. -/
def Axis.text (a : Axis) : String :=
  labelledText "CoordinateSystemAxis"
    [("name", quoted a.name), ("abbreviation", quoted a.abbreviation),
     ("direction", a.direction.text), ("unit", quoted a.unit)]

/-- The text of a coordinate system. -/
def CoordinateSystem.text (cs : CoordinateSystem) : String :=
  labelledText "CoordinateSystem"
    [("name", quoted cs.name), ("axes", tupleText (cs.axes.map Axis.text))]

end Georef

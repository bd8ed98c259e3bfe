import Georef.Ellipsoid.Basic

/-!
# The text of an ellipsoid

Ellipsoids and prime meridians are written with all their parts.
-/

namespace Georef

/-- The text of an ellipsoid. -/
def Ellipsoid.text (e : Ellipsoid) : String :=
  labelledText "Ellipsoid"
    [("name", quotedOrMissing e.name), ("semi_major_axis", e.shape.semiMajorAxis.text),
     ("semi_minor_axis", e.shape.semiMinorAxis.text),
     ("inverse_flattening", e.shape.inverseFlattening.text),
     ("ivf_definitive", truthText e.shape.flatteningIsDefinitive),
     ("alias", quotedOrMissing e.otherName), ("identifier", quotedOrMissing e.identifier),
     ("authority", quotedOrMissing e.authority), ("unit", quoted e.unit)]

/-- The text of a prime meridian. -/
def PrimeMeridian.text (p : PrimeMeridian) : String :=
  labelledText "PrimeMeridian"
    [("name", quoted p.name), ("greenwich_longitude", p.greenwichLongitude.text),
     ("angular_unit", quoted p.angularUnit), ("identifier", quotedOrMissing p.identifier),
     ("authority", quotedOrMissing p.authority)]

end Georef

import Ranging.Json.Value
import Ranging.Measurement

/-!
# Measurements as documents
-/

namespace Ranging

/-- An identifier as a bare number. -/
def AnchorId.toJson (id : AnchorId) : Json :=
  .nat id.val.toNat

/-- A point as the array of its coordinates. -/
def Point.toJson (p : Point Float) : Json :=
  .array [.float p.x, .float p.y, .float p.z]

/-- A measurement, with the values of both anchors in arrays. -/
def Measurement.toJson (m : Measurement Float) : Json :=
  .object [
    ("anchor_ids", .array [m.first.toJson, m.second.toJson]),
    ("anchor_positions", .array [m.firstPosition.toJson, m.secondPosition.toJson]),
    ("distance_diff", .float m.distanceDiff),
    ("std_dev", .float m.stdDev)]

end Ranging

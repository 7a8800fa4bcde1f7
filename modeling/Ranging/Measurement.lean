import Ranging.Anchor.Id
import Ranging.Point

/-!
# Range differences

What the tag hands to its position estimator: how much farther one anchor is than another, with
the positions of both.
-/

namespace Ranging

/-- The distance to `second` minus the distance to `first`, as measured by the tag. -/
structure Measurement (K : Type) where
  first : AnchorId
  second : AnchorId
  firstPosition : Point K
  secondPosition : Point K
  /-- Distance to the second anchor minus distance to the first, in metres. -/
  distanceDiff : K
  /-- Standard deviation of the distance difference, in metres. -/
  stdDev : K
deriving BEq

namespace Measurement

variable {K : Type}

/-- The same measurement with the anchors exchanged. -/
def reversed [Scalar K] (m : Measurement K) : Measurement K where
  first := m.second
  second := m.first
  firstPosition := m.secondPosition
  secondPosition := m.firstPosition
  distanceDiff := -m.distanceDiff
  stdDev := m.stdDev

/-- The distance difference that a tag at `point` would measure without error. -/
def expectedDiff [Analytic K] (m : Measurement K) (point : Point K) : K :=
  point.distance m.secondPosition - point.distance m.firstPosition

end Measurement

end Ranging

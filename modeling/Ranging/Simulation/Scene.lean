import Ranging.Measurement

/-!
# The true positions of a simulated installation

Anchors stand still. The tag moves at constant speed through the box that they span, less a
margin, and bounces off its walls.
-/

namespace Ranging

/-- Where everything is at a moment of a simulation. -/
structure Scene (K : Type) where
  anchors : List (Point K)
  tag : Point K
  velocity : Point K
  /-- The corner of the tag's box with the least coordinates. -/
  low : Point K
  /-- The corner of the tag's box with the greatest coordinates. -/
  high : Point K
  /-- The time that has passed, in seconds. -/
  time : K

namespace Scene

section Motion

variable {K : Type} [Scalar K]

/-- The tag keeps this far inside the box of the anchors, in metres. -/
def margin : K := 0.3

/-- The corner of least coordinates of the smallest box around some points. -/
def lowCorner (points : List (Point K)) : Point K :=
  points.foldl (Point.zipWith fun least a => if least ≤ a then least else a)
    (.diagonal Scalar.limit)

/-- The corner of greatest coordinates of the smallest box around some points. -/
def highCorner (points : List (Point K)) : Point K :=
  points.foldl (Point.zipWith fun greatest a => if a ≤ greatest then greatest else a)
    (.diagonal (-Scalar.limit))

/-- A scene in which the tag starts from the middle of its box. -/
def start (anchors : List (Point K)) (velocity : Point K) : Scene K :=
  let low := (lowCorner anchors).add (.diagonal margin)
  let high := (highCorner anchors).sub (.diagonal margin)
  { anchors, velocity, low, high, tag := low.midpoint high, time := 0.0 }

/-- A coordinate and its rate of change. -/
structure Axis (K : Type) where
  position : K
  velocity : K

/-- A coordinate that has left its range is reflected at the wall, and moves back inside. -/
def Axis.reflect (a : Axis K) (low high : K) : Axis K :=
  if a.position < low then ⟨2.0 * low - a.position, Scalar.abs a.velocity⟩
  else if high < a.position then ⟨2.0 * high - a.position, -Scalar.abs a.velocity⟩
  else a

/-- A coordinate after some time between two walls. -/
def Axis.advance (a : Axis K) (seconds low high : K) : Axis K :=
  reflect ⟨a.position + a.velocity * seconds, a.velocity⟩ low high

/-- Let time pass. -/
def advance (s : Scene K) (seconds : K) : Scene K :=
  let x := Axis.advance ⟨s.tag.x, s.velocity.x⟩ seconds s.low.x s.high.x
  let y := Axis.advance ⟨s.tag.y, s.velocity.y⟩ seconds s.low.y s.high.y
  let z := Axis.advance ⟨s.tag.z, s.velocity.z⟩ seconds s.low.z s.high.z
  { s with
    time := s.time + seconds
    tag := ⟨x.position, y.position, z.position⟩
    velocity := ⟨x.velocity, y.velocity, z.velocity⟩ }

end Motion

section Distances

variable {K : Type} [Analytic K]

/-- A full turn, in radians. -/
def fullTurn : K := 6.28318530717958647692528676655900577

/-- Anchors evenly placed on a circle, by turns near the floor and at the given height. -/
def ring (count : Nat) (radius height : K) : List (Point K) :=
  (List.range count).map fun i =>
    let angle : K := fullTurn * Scalar.ofNat i / Scalar.ofNat count
    { x := radius * Analytic.cos angle
      y := radius * Analytic.sin angle
      z := if i % 2 = 0 then 0.2 else height }

/-- The time light takes over a distance, in seconds. -/
def flightTime (distance : K) : K :=
  distance / speedOfLight

/-- The distance from the tag to an anchor. -/
def tagDistance? (s : Scene K) (i : Nat) : Option K :=
  s.anchors[i]?.map s.tag.distance

/-- The distance between two anchors. -/
def anchorDistance? (s : Scene K) (i j : Nat) : Option K := do
  return (← s.anchors[i]?).distance (← s.anchors[j]?)

/-- The distance difference that a perfect measurement of the pair would have now. -/
def trueDiff (s : Scene K) (m : Measurement K) : K :=
  m.expectedDiff s.tag

end Distances

end Scene

end Ranging

import Ranging.Settings

/-!
# The setup of a simulation

How many anchors there are, how they transmit, how imperfect the radio is, how the tag moves, and
which settings its receiver has.
-/

namespace Ranging

/-- Parameters of a simulation. -/
structure Setup (K : Type) where
  /-- Everything random derives from it. -/
  seed : UInt64
  anchorCount : Nat
  /-- Time between two transmissions, in seconds. -/
  slotPeriod : K
  /-- Probability that the tag misses a packet. -/
  packetLoss : K
  /-- Standard deviation of reception times, in ticks. -/
  jitter : K
  /-- Drifts lie between minus and plus this value, in parts per million. -/
  clockDrift : K
  /-- How often an anchor sends its position, in seconds. -/
  positionPeriod : K
  /-- Identifier of the first anchor. -/
  firstId : UInt8
  /-- If given, every counter starts over between so many and one more seconds from the start. -/
  wrapAfter : Option K
  /-- Speed of the tag, in metres per second. -/
  tagSpeed : K
  /-- Radius of the circle of anchors, in metres. -/
  radius : K
  /-- Height of every second anchor, in metres. -/
  height : K
  settings : Settings K

namespace Setup

variable {K : Type} [Scalar K]

/-- A small installation with a good radio. -/
def standard : Setup K where
  seed := 42
  anchorCount := 8
  slotPeriod := 0.002
  packetLoss := 0.0
  jitter := 2.0
  clockDrift := 2.0
  positionPeriod := 0.25
  firstId := 0
  wrapAfter := none
  tagSpeed := 0.5
  radius := 4.0
  height := 2.5
  settings := .standard

/-- The most anchors in one installation. -/
def maxAnchors : Nat := 128

/-- Why a simulation cannot be set up. -/
inductive Problem (K : Type) where
  | anchorCount (count : Nat)
  /-- All anchors would be evicted from the table before their clocks are known. -/
  | tableTooSmall (count capacity : Nat)
  | slotPeriod
  | packetLoss (value : K)
  | clockDrift (value : K)
  | jitter
  | settings (problem : Settings.Problem K)

/-- The parameters that a receiver does not check itself are usable, or the first that is not. -/
def validate (s : Setup K) : Except (Problem K) Unit := do
  if s.anchorCount < 2 ∨ maxAnchors < s.anchorCount then throw (.anchorCount s.anchorCount)
  if s.settings.anchorCapacity < s.anchorCount then
    throw (.tableTooSmall s.anchorCount s.settings.anchorCapacity)
  unless 0.0 < s.slotPeriod do throw .slotPeriod
  unless 0.0 ≤ s.packetLoss ∧ s.packetLoss < 1.0 do throw (.packetLoss s.packetLoss)
  unless 0.0 ≤ s.clockDrift ∧ s.clockDrift < 10.0 do throw (.clockDrift s.clockDrift)

end Setup

end Ranging

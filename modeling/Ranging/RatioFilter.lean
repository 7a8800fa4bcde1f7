import Ranging.Scalar
import Ranging.Time

/-!
# The clock ratio filter

Every anchor runs a free oscillator. To compare an interval in an anchor's ticks with one in the
tag's ticks, the anchor's interval is multiplied by a ratio: tag ticks per anchor tick. Two
packets of one anchor give a noisy candidate for it.

`RatioFilter.update` accepts a candidate that lies within the noise band around the current ratio
and moves the ratio most of the way towards it. Any other candidate drains a bucket that accepted
ones refill. Only when the bucket is empty may such a candidate replace the ratio, and only if two
oscillators within tolerance can produce it.
-/

namespace Ranging

/-- Constants of the filter. -/
structure RatioFilter (K : Type) where
  /-- Largest relative error of one oscillator. Two of them may disagree by twice as much. -/
  maxDeviation : K
  /-- A candidate closer than this to the current ratio is accepted. -/
  acceptedNoise : K
  /-- Weight of the current ratio in the new one; the candidate gets the rest. -/
  weight : K
  /-- Capacity of the bucket. -/
  bucketMax : Nat

/-- What the filter keeps for one anchor. A ratio of zero means that none has been taken yet. -/
structure RatioState (K : Type) where
  ratio : K
  bucket : Nat

namespace RatioState

variable {K : Type} [Scalar K]

/-- The state of an anchor that has just been heard for the first time. -/
def initial : RatioState K := ⟨0.0, 0⟩

/-- A reference ratio has been taken. -/
def isCalibrated (s : RatioState K) : Bool :=
  0.0 < s.ratio

end RatioState

namespace RatioFilter

variable {K : Type} [Scalar K]

/-- Constants for oscillators of ten parts per million. -/
def standard : RatioFilter K where
  maxDeviation := 10e-6
  acceptedNoise := 0.03e-6
  weight := 0.1
  bucketMax := 4

/-- The lower physical bound of a ratio. -/
def lowerBound (f : RatioFilter K) : K :=
  1.0 - f.maxDeviation * 2.0

/-- The upper physical bound of a ratio. -/
def upperBound (f : RatioFilter K) : K :=
  1.0 + f.maxDeviation * 2.0

/-- The candidate lies strictly between the physical bounds. -/
def inBounds (f : RatioFilter K) (candidate : K) : Bool :=
  f.lowerBound < candidate && candidate < f.upperBound

/-- What can be wrong with the constants. -/
inductive Problem (K : Type) where
  | deviation (value : K)
  | noise (value : K)
  | weight (value : K)
  | emptyBucket

/-- The constants describe a usable filter, or the first of them that does not. -/
def validate (f : RatioFilter K) : Except (Problem K) Unit := do
  unless 0.0 < f.maxDeviation ∧ f.maxDeviation < 0.5 do throw (.deviation f.maxDeviation)
  unless 0.0 < f.acceptedNoise do throw (.noise f.acceptedNoise)
  unless 0.0 ≤ f.weight ∧ f.weight < 1.0 do throw (.weight f.weight)
  if f.bucketMax = 0 then throw .emptyBucket

/-- Stands for a ratio that cannot be formed. -/
def noRatio : K := -1.0

/-- The ratio of two clocks from two events that both have seen: ticks that passed in the
reference clock over ticks that passed in the other. Differences are reduced by `mask`, so either
counter may have started over between the events. -/
def candidate (newReference oldReference newOther oldOther mask : UInt64) : K :=
  let inReference := (newReference - oldReference) &&& mask
  let inOther := (newOther - oldOther) &&& mask
  if inOther = 0 then noRatio
  else Scalar.ofNat inReference.toNat / Scalar.ofNat inOther.toNat

/-- A difference from the current ratio that counts as noise. -/
def isNoise (f : RatioFilter K) (difference : K) : Bool :=
  -f.acceptedNoise < difference && difference < f.acceptedNoise

/-- The candidate lies strictly inside the noise band around the current ratio. -/
def accepts (f : RatioFilter K) (s : RatioState K) (candidate : K) : Bool :=
  f.isNoise (candidate - s.ratio)

/-- The current ratio moved towards an accepted candidate. -/
def blend (f : RatioFilter K) (current candidate : K) : K :=
  current * f.weight + candidate * (1.0 - f.weight)

/-- Feed a candidate to the filter. The result is true if the candidate was accepted, which makes
the packet's timing reliable. A candidate that becomes the new reference is not: nothing has
confirmed it, so it does not refill the bucket either. -/
def update (f : RatioFilter K) (s : RatioState K) (candidate : K) : Bool × RatioState K :=
  if f.accepts s candidate then
    (true, ⟨f.blend s.ratio candidate,
      if s.bucket < f.bucketMax then s.bucket + 1 else s.bucket⟩)
  else if 0 < s.bucket then
    (false, { s with bucket := s.bucket - 1 })
  else if f.inBounds candidate then
    (false, { s with ratio := candidate })
  else
    (false, s)

/-- A ratio as thousandths of the largest deviation, which keeps it readable in reports. -/
def scaled (f : RatioFilter K) (ratio : K) : K :=
  (ratio - 1.0) * (1.0 / f.maxDeviation) * 1000.0

end RatioFilter

end Ranging

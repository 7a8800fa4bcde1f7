import Ranging.Simulation.World

/-!
# Metrics of a run

How many measurements a run produced, how far they are from the truth, and how many pairs of
anchors they cover.
-/

namespace Ranging

/-- What is counted and measured over a run. -/
structure Metrics (K : Type) where
  sent : Nat
  received : Nat
  measurements : Nat
  /-- Root of the mean square of the errors, in metres. -/
  rmsError : K
  /-- The largest error, in metres. -/
  maxError : K
  /-- Different pairs of anchors that were measured, in either order. -/
  pairs : Nat
  snapshot : Snapshot K

namespace Metrics

/-- The identifiers of a pair, the lesser first. -/
def orderedPair (a b : AnchorId) : AnchorId × AnchorId :=
  if b.val < a.val then (b, a) else (a, b)

/-- The different pairs among observations. -/
def pairsOf {K : Type} (observations : List (Observation K)) : List (AnchorId × AnchorId) :=
  (observations.map fun o => orderedPair o.first o.second).eraseDups

/-- The sum of the squares of the errors. -/
def sumOfSquares {K : Type} [Scalar K] (observations : List (Observation K)) : K :=
  observations.foldl (fun sum o => sum + o.error * o.error) 0.0

/-- The largest magnitude of an error. -/
def largestError {K : Type} [Scalar K] (observations : List (Observation K)) : K :=
  observations.foldl (fun greatest o => Scalar.greater greatest (Scalar.abs o.error)) 0.0

variable {σ K : Type} [Analytic K]

/-- The metrics of a run so far. -/
def ofWorld (w : World σ K) : Metrics K :=
  let observations := w.observations.toList
  { sent := w.sent
    received := w.received
    measurements := observations.length
    rmsError :=
      if observations.isEmpty then 0.0
      else Analytic.sqrt (sumOfSquares observations / Scalar.ofNat observations.length)
    maxError := largestError observations
    pairs := (pairsOf observations).length
    snapshot := w.receiver.diagnostics.snapshot }

/-- The share of received packets that led to a measurement. -/
def yieldOf (received measurements : Nat) : K :=
  if received = 0 then 0.0 else Scalar.ofNat measurements / Scalar.ofNat received

/-- The share of the received packets that led to a measurement. -/
def yieldRatio (m : Metrics K) : K :=
  yieldOf m.received m.measurements

end Metrics

end Ranging

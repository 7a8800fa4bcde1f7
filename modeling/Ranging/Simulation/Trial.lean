import Ranging.Simulation.Metrics
import Ranging.Simulation.Scenario

/-!
# Trials and their verdicts

A trial runs a scenario and judges what the receiver measured: there must be measurements, they
must be close to the truth, and enough of the packets must lead to one. Some scenarios also ask
for something of their own. The first demand that is not met is the reason of the failure;
accuracy is judged before what a scenario asks for.
-/

namespace Ranging

/-- Why a trial has failed. -/
inductive Shortfall (K : Type) where
  | noMeasurements
  | rmsError (value : K)
  | maxError (value : K)
  | lowYield (measurements received : Nat) (least : K)
  /-- No measurement was made after `event`, which happened at `time`. -/
  | nothingAfter (event : String) (time : K)
  /-- Not all of the anchors that replaced others are stored. -/
  | anchorsMissing (stored expected : Nat)
  | fewPairs (found expected : Nat)

/-- What a trial is run with. -/
structure Trial (K : Type) where
  seed : UInt64
  anchorCount : Nat
  /-- Length of the run, in seconds. -/
  duration : K
  /-- Strategy of the receiver, unless the scenario demands one. -/
  strategy : Option Strategy
  settings : Settings K

/-- The result of a trial. -/
structure Outcome (K : Type) where
  scenario : Scenario
  seed : UInt64
  finalTime : K
  shortfall : Option (Shortfall K)
  metrics : Metrics K

/-- Nothing is short. -/
def Outcome.passed {K : Type} (o : Outcome K) : Bool :=
  o.shortfall.isNone

namespace Trial

section Parameters

variable {K : Type} [Scalar K]

/-- The root mean square error must stay below this, in metres. -/
def maxRmsError : K := 0.1

/-- Every error must stay below this, in metres. -/
def maxSingleError : K := 0.5

/-- The least share of received packets that must lead to a measurement. -/
def leastYield : Scenario → K
  | .anchorChurn => 0.2
  | _ => 0.25

/-- The setup of a scenario. -/
def setup (t : Trial K) (scenario : Scenario) : Setup K :=
  let settings := match t.strategy with
    | some strategy => { t.settings with strategy }
    | none => t.settings
  let base : Setup K :=
    { Setup.standard with seed := t.seed, anchorCount := t.anchorCount, settings }
  match scenario with
  | .nominal => base
  | .clockDrift => { base with clockDrift := 8.0 }
  | .packetLoss => { base with packetLoss := 0.33 }
  | .timerWrap => { base with wrapAfter := some 1.0 }
  | .anchorChurn =>
    { base with settings := { settings with anchorCapacity := t.anchorCount + 2 } }
  | .randomMatching => { base with settings := { settings with strategy := .random } }

/-- The length of a scenario's run. Every counter must have had the time to start over. -/
def runTime (t : Trial K) : Scenario → K
  | .timerWrap => Scalar.greater t.duration 3.0
  | _ => t.duration

/-- The pairs that random matching must cover. -/
def requiredPairs (anchorCount : Nat) : Nat :=
  min (2 * anchorCount) (anchorCount * (anchorCount - 1) / 2)

end Parameters

variable {σ K : Type} [Analytic K] [NoiseSource σ K]

/-- The accuracy demanded of every scenario. -/
def judgeAccuracy (scenario : Scenario) (m : Metrics K) : Option (Shortfall K) :=
  if m.measurements = 0 then some .noMeasurements
  else if maxRmsError ≤ m.rmsError then some (.rmsError m.rmsError)
  else if maxSingleError ≤ m.maxError then some (.maxError m.maxError)
  else if m.yieldRatio < leastYield scenario then
    some (.lowYield m.measurements m.received (leastYield scenario))
  else none

/-- There must be a measurement later than a moment. -/
def judgeAfter (w : World σ K) (event : String) (time : K) : Option (Shortfall K) :=
  if w.observations.any (time < ·.time) then none else some (.nothingAfter event time)

/-- The different identifiers in a list. -/
def distinct (ids : List AnchorId) : List AnchorId :=
  ids.eraseDups

/-- All current anchors must be stored, and measured after their predecessors were replaced. -/
def judgeChurn (w : World σ K) (replacedAt : K) : Option (Shortfall K) :=
  let expected := (distinct w.ids).length
  let stored := (w.receiver.table.ids.filter (w.ids.contains ·)).length
  if stored < expected then some (.anchorsMissing stored expected)
  else judgeAfter w "anchors replaced" replacedAt

/-- Random matching must cover many pairs. -/
def judgePairs (t : Trial K) (w : World σ K) : Option (Shortfall K) :=
  let found := (Metrics.ofWorld w).pairs
  let expected := requiredPairs t.anchorCount
  if found < expected then some (.fewPairs found expected) else none

/-- Run a scenario on a world that has been set up for it, and judge what it alone asks for. -/
def perform (t : Trial K) (scenario : Scenario) (w : World σ K) :
    World σ K × Option (Shortfall K) :=
  let stop := t.runTime scenario
  match scenario with
  | .anchorChurn =>
    let w := (w.runUntil (stop / 2.0)).replaceAnchors
    let replacedAt := w.time
    let w := w.runUntil stop
    (w, judgeChurn w replacedAt)
  | .timerWrap =>
    let w := w.runUntil stop
    (w, judgeAfter w "all counters wrapped" 2.0)
  | .randomMatching =>
    let w := w.runUntil stop
    (w, t.judgePairs w)
  | _ => (w.runUntil stop, none)

/-- Run a scenario and judge it. The final state of the simulation is returned too. -/
def run (t : Trial K) (scenario : Scenario) :
    Except (Setup.Problem K) (World σ K × Outcome K) := do
  let start ← World.create (t.setup scenario)
  let (w, ownShortfall) := t.perform scenario start
  let metrics := Metrics.ofWorld w
  let shortfall := (judgeAccuracy scenario metrics).or ownShortfall
  return (w, { scenario, seed := t.seed, finalTime := w.scene.time, shortfall, metrics })

end Trial

end Ranging

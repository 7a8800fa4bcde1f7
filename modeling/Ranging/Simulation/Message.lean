import Ranging.Settings.Message
import Ranging.Simulation.Trial

/-!
# Messages about simulations
-/

namespace Ranging

/-- What is wrong with a parameter of a simulation. -/
def Setup.Problem.detail : Setup.Problem Float → String
  | .anchorCount count => s!"num_anchors {count} outside [2, {Setup.maxAnchors}]"
  | .tableTooSmall count capacity =>
    s!"num_anchors {count} exceeds engine anchor_capacity {capacity}"
  | .slotPeriod => "slot_period_s must be positive"
  | .packetLoss value => s!"tag_packet_loss {messageNumber value} outside [0, 1)"
  | .clockDrift value => s!"clock_drift_ppm {messageNumber value} outside [0, 10)"
  | .jitter =>
    "timestamp_jitter_ticks: variation parameter is non-finite in (log)normal distribution"
  | .settings problem => problem.message

/-- Why a simulation cannot be set up. -/
def Setup.Problem.message (p : Setup.Problem Float) : String :=
  match p with
  | .settings _ => s!"Engine configuration error: {p.detail}"
  | _ => s!"Invalid simulation parameter: {p.detail}"

/-- Why a trial has failed. -/
def Shortfall.message : Shortfall Float → String
  | .noMeasurements => "no measurements produced"
  | .rmsError value =>
    s!"RMS error {fixedNumber 3 value}m exceeds threshold {fixedNumber 2 Trial.maxRmsError}m"
  | .maxError value =>
    s!"max error {fixedNumber 3 value}m exceeds threshold {fixedNumber 2 Trial.maxSingleError}m"
  | .lowYield measurements received least =>
    s!"{measurements} measurements from {received} packets, " ++
      s!"expected at least {fixedNumber 0 (least * 100.0)}%"
  | .nothingAfter event time => s!"no measurements after {event} at {fixedNumber 2 time}s"
  | .anchorsMissing stored expected => s!"only {stored} of {expected} new anchors stored"
  | .fewPairs found expected =>
    s!"random matching covered {found} pairs, expected at least {expected}"

end Ranging

import Ranging.Diagnostics.Document
import Ranging.Simulation.Trial

/-!
# Traces

Everything that a run has measured, next to the truth, for later analysis.
-/

namespace Ranging

/-- An anchor at the end of a run. -/
structure TracedAnchor where
  id : AnchorId
  position : Point Float
  driftPpm : Float

/-- The record of a run. -/
structure Trace where
  scenario : String
  seed : UInt64
  /-- When the last packet was sent, in seconds. -/
  duration : Float
  anchors : List TracedAnchor
  tagDriftPpm : Float
  observations : List (Observation Float)
  passed : Bool := false
  rmsError : Option Float := none
  snapshot : Option (Snapshot Float)

/-- An observation as a JSON value. -/
def Observation.toJson (o : Observation Float) : Json :=
  .object [
    ("time_s", .float o.time),
    ("anchor_ids", .array [o.first.toJson, o.second.toJson]),
    ("distance_diff", .float o.distanceDiff),
    ("true_distance_diff", .float o.trueDiff),
    ("error", .float o.error)]

/-- An anchor as a JSON value. -/
def TracedAnchor.toJson (a : TracedAnchor) : Json :=
  .object [
    ("id", a.id.toJson),
    ("x", .float a.position.x),
    ("y", .float a.position.y),
    ("z", .float a.position.z),
    ("drift_ppm", .float a.driftPpm)]

namespace Trace

/-- The trace of a run so far, before it has been judged. -/
def ofWorld {σ : Type} (name : String) (w : World σ Float) : Trace where
  scenario := name
  seed := w.setup.seed
  duration := w.scene.time
  anchors := w.stations.zipWith
    (fun station position => { id := station.id, position, driftPpm := station.clock.driftPpm })
    w.scene.anchors
  tagDriftPpm := w.tagClock.driftPpm
  observations := w.observations.toList
  snapshot := some w.receiver.diagnostics.snapshot

/-- Add the verdict. -/
def finish (t : Trace) (passed : Bool) (rmsError : Option Float) : Trace :=
  { t with passed, rmsError }

/-- The trace of a trial with its outcome. -/
def ofTrial {σ : Type} (w : World σ Float) (o : Outcome Float) : Trace :=
  (ofWorld o.scenario.name w).finish o.passed (some o.metrics.rmsError)

/-- A member that is left out if there is no value. -/
def member {α : Type} (name : String) (f : α → Json) : Option α → List (String × Json)
  | some a => [(name, f a)]
  | none => []

/-- A trace as a JSON value. -/
def toJson (t : Trace) : Json :=
  .object ([
    ("scenario", .string t.scenario),
    ("seed", .nat t.seed.toNat),
    ("duration_sec", .float t.duration),
    ("anchors", .array (t.anchors.map (·.toJson))),
    ("tag_drift_ppm", .float t.tagDriftPpm),
    ("measurements", .array (t.observations.map (·.toJson))),
    ("passed", .bool t.passed)]
    ++ member "rms_error" .float t.rmsError
    ++ member "stats" Snapshot.toJson t.snapshot)

end Trace

end Ranging

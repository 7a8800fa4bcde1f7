import Ranging.Diagnostics
import Ranging.Measurement.Document

/-!
# Diagnostics as documents

A rate has the precision of a single word, and is written with the digits that this precision
needs. A summary that holds all numbers in double precision shows more of them.
-/

namespace Ranging

/-- The name of a kind of event in documents. -/
def Event.name : Event → String
  | .packetReceived => "packets_received"
  | .sent => "packets_to_estimator"
  | .clockConfirmed => "clock_correction_count"
  | .known => "context_hit_count"
  | .entered => "context_miss_count"
  | .reliable => "time_is_good"
  | .paired => "suitable_data_found"

/-- The kinds of events in the order in which documents list them. -/
def Event.all : List Event :=
  [.packetReceived, .sent, .clockConfirmed, .known, .entered, .reliable, .paired]

/-- The state of a counter. -/
def RateCounter.toJson (c : RateCounter) : Json :=
  .object [
    ("count", .nat c.count),
    ("rate", .float32 c.rate),
    ("interval_ms", .nat c.interval.toNat),
    ("latest_update_ms", .nat c.latest.toNat)]

/-- The watched pair. -/
def Watched.toJson (w : Watched Float) : Json :=
  .object [
    ("anchor", w.selection.anchor.toJson),
    ("remote", w.selection.remote.toJson),
    ("clock_correction", .float w.clockRatio),
    ("tof", .int w.flight.toInt),
    ("tdoa", .float w.distanceDiff)]

/-- Rates, each written by `rate`, and the watched pair. -/
def Snapshot.toJsonWith (rate : Float32 → Json) (s : Snapshot Float) : Json :=
  .object ((Event.all.map fun e => (e.name, rate (s.rates.get e)))
    ++ [("watched", s.watched.toJson)])

/-- Rates and the watched pair. -/
def Snapshot.toJson (s : Snapshot Float) : Json :=
  s.toJsonWith .float32

end Ranging

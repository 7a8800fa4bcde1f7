import Ranging.Json.Layout
import Ranging.Json.Value
import Ranging.Settings

/-!
# Settings as documents

Settings are kept as JSON. Every field of a document may be missing and then has its standard
value; the two groups inside, validity windows and filter constants, are complete or absent.
`Settings.load` reads a document and checks what it says.
-/

namespace Ranging

open Json (Conversion Field Layout Reader)

/-- The bound of a number that fills 32 bits. -/
def halfWordBound : Nat := UInt32.size

/-- The bound of a number that fills 64 bits. -/
def wordBound : Nat := UInt64.size

/-- Read a time span in milliseconds. -/
def readMillis [Conversion] : Reader Millis :=
  UInt32.ofNat <$> Reader.natBelow halfWordBound

namespace Windows

/-- How validity windows are written. -/
def layout [Conversion] : Layout Windows where
  start := {}
  fields := [
    .required "position_ms" readMillis fun position w => { w with position },
    .required "remote_rx_ms" readMillis fun reception w => { w with reception },
    .required "remote_tof_ms" readMillis fun flight w => { w with flight },
    .required "active_ms" readMillis fun active w => { w with active }]

/-- Validity windows as a JSON value. -/
def toJson (w : Windows) : Json :=
  .object [
    ("position_ms", .nat w.position.toNat),
    ("remote_rx_ms", .nat w.reception.toNat),
    ("remote_tof_ms", .nat w.flight.toNat),
    ("active_ms", .nat w.active.toNat)]

end Windows

namespace RatioFilter

/-- How filter constants are written. -/
def layout [Conversion] : Layout (RatioFilter Float) where
  start := standard
  fields := [
    .required "max_clock_deviation" .float fun maxDeviation f => { f with maxDeviation },
    .required "accepted_noise" .float fun acceptedNoise f => { f with acceptedNoise },
    .required "filter_weight" .float fun weight f => { f with weight },
    .required "bucket_max" (.natBelow halfWordBound) fun bucketMax f => { f with bucketMax }]

/-- Filter constants as a JSON value. -/
def toJson (f : RatioFilter Float) : Json :=
  .object [
    ("max_clock_deviation", .float f.maxDeviation),
    ("accepted_noise", .float f.acceptedNoise),
    ("filter_weight", .float f.weight),
    ("bucket_max", .nat f.bucketMax)]

end RatioFilter

namespace Settings

/-- How settings are written. -/
def layout [Conversion] : Layout (Settings Float) where
  start := standard
  fields := [
    .optional "anchor_capacity" (.natBelow wordBound)
      fun anchorCapacity s => { s with anchorCapacity },
    .optional "remote_capacity" (.natBelow wordBound)
      fun receptionCapacity s => { s with receptionCapacity },
    .optional "tof_capacity" (.natBelow wordBound)
      fun flightCapacity s => { s with flightCapacity },
    .optional "validity" Windows.layout.read fun windows s => { s with windows },
    .optional "clock" RatioFilter.layout.read fun filter s => { s with filter },
    .optional "stats_interval_ms" readMillis fun statsInterval s => { s with statsInterval },
    .optional "measurement_std_dev" .float fun stdDev s => { s with stdDev },
    .optional "tick_frequency_hz" .float fun tickFrequency s => { s with tickFrequency },
    .optional "matching" (.choice Strategy.ofName?) fun strategy s => { s with strategy }]

/-- Settings as a JSON value. -/
def toJson (s : Settings Float) : Json :=
  .object [
    ("anchor_capacity", .nat s.anchorCapacity),
    ("remote_capacity", .nat s.receptionCapacity),
    ("tof_capacity", .nat s.flightCapacity),
    ("validity", s.windows.toJson),
    ("clock", s.filter.toJson),
    ("stats_interval_ms", .nat s.statsInterval.toNat),
    ("measurement_std_dev", .float s.stdDev),
    ("tick_frequency_hz", .float s.tickFrequency),
    ("matching", .string s.strategy.name)]

/-- Why a document gives no usable settings. -/
inductive LoadError where
  | unreadable (failure : Json.Failure)
  | unusable (problem : Problem Float)

/-- Read settings and check them. -/
def load [Conversion] (text : String) : Except LoadError (Settings Float) := do
  let s ← (layout.parse text).mapError .unreadable
  s.validate.mapError .unusable
  return s

end Settings

end Ranging

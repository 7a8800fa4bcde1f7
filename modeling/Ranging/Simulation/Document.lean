import Ranging.Settings.Document
import Ranging.Simulation.Setup

/-!
# Setups as documents

A setup is written with all its fields. Only the time after which counters start over may be
missing or null. Reading does not check what the document says.
-/

namespace Ranging.Setup

open Json (Conversion Field Layout Reader)

/-- How a setup is written. -/
def layout [Conversion] : Layout (Setup Float) where
  start := standard
  fields := [
    .required "seed" (.natBelow wordBound) fun seed s => { s with seed := seed.toUInt64 },
    .required "num_anchors" (.natBelow wordBound) fun anchorCount s => { s with anchorCount },
    .required "slot_period_s" .float fun slotPeriod s => { s with slotPeriod },
    .required "tag_packet_loss" .float fun packetLoss s => { s with packetLoss },
    .required "timestamp_jitter_ticks" .float fun jitter s => { s with jitter },
    .required "clock_drift_ppm" .float fun clockDrift s => { s with clockDrift },
    .required "position_period_s" .float fun positionPeriod s => { s with positionPeriod },
    .required "anchor_id_offset" (.natBelow UInt8.size) fun firstId s =>
      { s with firstId := firstId.toUInt8 },
    .optional "wrap_after_s" (.nullable .float) fun wrapAfter s => { s with wrapAfter },
    .required "tag_speed" .float fun tagSpeed s => { s with tagSpeed },
    .required "anchor_radius" .float fun radius s => { s with radius },
    .required "anchor_height" .float fun height s => { s with height },
    .required "engine" Settings.layout.read fun settings s => { s with settings }]

/-- A setup as a JSON value. -/
def toJson (s : Setup Float) : Json :=
  .object [
    ("seed", .nat s.seed.toNat),
    ("num_anchors", .nat s.anchorCount),
    ("slot_period_s", .float s.slotPeriod),
    ("tag_packet_loss", .float s.packetLoss),
    ("timestamp_jitter_ticks", .float s.jitter),
    ("clock_drift_ppm", .float s.clockDrift),
    ("position_period_s", .float s.positionPeriod),
    ("anchor_id_offset", .nat s.firstId.toNat),
    ("wrap_after_s", .option .float s.wrapAfter),
    ("tag_speed", .float s.tagSpeed),
    ("anchor_radius", .float s.radius),
    ("anchor_height", .float s.height),
    ("engine", s.settings.toJson)]

end Ranging.Setup

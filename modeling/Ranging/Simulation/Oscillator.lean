import Ranging.Scalar
import Ranging.Time

/-!
# Simulated oscillators

A simulated radio counts ticks at a slightly wrong rate. Its timestamps start over exactly like
those of a real counter.
-/

namespace Ranging

/-- A free-running tick counter with constant drift. -/
structure Oscillator (K : Type) where
  /-- Nominal frequency, in Hz. -/
  frequency : K
  /-- How much too fast it runs, in parts per million. -/
  driftPpm : K
  /-- The reading at time zero. -/
  offset : K

namespace Oscillator

variable {K : Type} [Scalar K]

/-- A counter that reads `offset`, reduced to 40 bits, at time zero. -/
def create (frequency driftPpm : K) (offset : UInt64) : Oscillator K :=
  { frequency, driftPpm, offset := Scalar.ofNat (offset &&& Ticks.counterMask).toNat }

/-- A counter without drift that reads zero at time zero. -/
def ideal (frequency : K) : Oscillator K :=
  create frequency 0.0 0

/-- Real ticks for each nominal tick. -/
def rate (c : Oscillator K) : K :=
  1.0 + c.driftPpm * 1e-6

/-- Ticks counted in `seconds`. -/
def intervalTicks (c : Oscillator K) (seconds : K) : K :=
  seconds * c.frequency * c.rate

/-- Ticks counted until `time`, without ever starting over. -/
def ticks (c : Oscillator K) (time : K) : K :=
  c.offset + c.intervalTicks time

/-- The counter reading after a number of ticks: the nearest whole number, modulo the counter's
period. A negative number, which only noise at time zero can cause, counts as zero. -/
def reading (ticks : K) : Ticks :=
  (Scalar.toWord (Scalar.round ticks) &&& Ticks.counterMask).toInt64

/-- The counter reading at `time`. -/
def timestamp (c : Oscillator K) (time : K) : Ticks :=
  reading (c.ticks time)

/-- The counter reading at `time` with an error of `noise` ticks. -/
def noisyTimestamp (c : Oscillator K) (time noise : K) : Ticks :=
  reading (c.ticks time + noise)

/-- When the counter starts over for the first time, in seconds. -/
def firstWrap (c : Oscillator K) : K :=
  (Scalar.ofNat Ticks.counterPeriod - c.offset) / (c.frequency * c.rate)

end Oscillator

end Ranging

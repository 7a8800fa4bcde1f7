import Ranging.Time

/-!
# Event counters

A counter collects events and turns them into a rate whenever a whole interval has passed.
-/

namespace Ranging

/-- Counts events, and keeps their rate over the last completed interval. -/
structure RateCounter where
  /-- Events since the last completed interval, at most `2 ^ 32 - 1`. -/
  count : Nat
  /-- Events per second over the last completed interval. -/
  rate : Float32
  /-- The least length of an interval. -/
  interval : Millis
  /-- When the last interval was completed. -/
  latest : Millis

namespace RateCounter

/-- The count at which a counter stays. -/
def saturation : Nat := UInt32.size - 1

/-- A counter that starts at `now`. -/
def start (interval now : Millis) : RateCounter :=
  { count := 0, rate := 0.0, interval, latest := now }

/-- Count one event. -/
def event (c : RateCounter) : RateCounter :=
  { c with count := if c.count < saturation then c.count + 1 else c.count }

/-- A whole interval has passed since the last one was completed. -/
def isDue (c : RateCounter) (now : Millis) : Bool :=
  c.interval ≤ Millis.since c.latest now

/-- Complete the interval if it is over: compute the rate from the time that really passed, and
start counting anew. The flag tells whether it was over. -/
def update (c : RateCounter) (now : Millis) : Bool × RateCounter :=
  if c.isDue now then
    let elapsed := Millis.since c.latest now
    let rate := Float32.ofNat c.count * 1000.0 / Float32.ofNat elapsed.toNat
    (true, { c with count := 0, rate, latest := now })
  else (false, c)

end RateCounter

end Ranging

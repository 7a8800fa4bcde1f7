import Ranging.Pairing

/-!
# Settings of a receiver

Everything that is chosen when a receiver is built, and the check that a receiver can work with
it. Settings are read without being checked; `Settings.validate` names the first value that is
wrong, in a fixed order.
-/

namespace Ranging

/-- Choices made when a receiver is built. -/
structure Settings (K : Type) where
  anchorCapacity : Nat
  receptionCapacity : Nat
  flightCapacity : Nat
  windows : Windows
  filter : RatioFilter K
  /-- Length of a diagnostics interval in milliseconds. -/
  statsInterval : Millis
  /-- Standard deviation attached to every measurement, in metres. -/
  stdDev : K
  /-- Frequency of the tag's tick counter, in Hz. -/
  tickFrequency : K
  strategy : Strategy

namespace Settings

variable {K : Type} [Scalar K]

/-- The frequency of the radio's tick counter: 128 ticks in each period of 499.2 MHz. -/
def radioTickFrequency : K := 499.2e6 * 128.0

/-- Settings for a common installation. -/
def standard : Settings K where
  anchorCapacity := 16
  receptionCapacity := 16
  flightCapacity := 16
  windows := {}
  filter := RatioFilter.standard
  statsInterval := 500
  stdDev := 0.15
  tickFrequency := radioTickFrequency
  strategy := .youngest

/-- Settings for an installation with long distances, where measurements are noisier. -/
def longRange : Settings K :=
  { standard with stdDev := 0.30 }

/-- The same settings with one capacity for both lists that an anchor fills. -/
def withRemoteCapacity (s : Settings K) (capacity : Nat) : Settings K :=
  { s with receptionCapacity := capacity, flightCapacity := capacity }

/-- Why a receiver cannot be built. -/
inductive Problem (K : Type) where
  | zeroCapacity (capacity : Capacity)
  | tickFrequency (value : K)
  | stdDev (value : K)
  | zeroStatsInterval
  | filter (problem : RatioFilter.Problem K)

/-- The settings are usable, or the first problem with them. -/
def validate (s : Settings K) : Except (Problem K) Unit := do
  if s.anchorCapacity = 0 then throw (.zeroCapacity .anchors)
  if s.receptionCapacity = 0 then throw (.zeroCapacity .receptions)
  if s.flightCapacity = 0 then throw (.zeroCapacity .flights)
  unless Scalar.isFinite s.tickFrequency ∧ 0.0 < s.tickFrequency do
    throw (.tickFrequency s.tickFrequency)
  unless Scalar.isFinite s.stdDev ∧ 0.0 ≤ s.stdDev do throw (.stdDev s.stdDev)
  if s.statsInterval = 0 then throw .zeroStatsInterval
  s.filter.validate.mapError .filter

/-- An empty table of the size chosen here. -/
def table (s : Settings K) : Except (Problem K) (Table K) :=
  (Table.create s.anchorCapacity s.receptionCapacity s.flightCapacity s.windows).mapError
    .zeroCapacity

end Settings

end Ranging

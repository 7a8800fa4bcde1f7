/-!
# Sources of randomness

A source is a state from which numbers are drawn one after the other. Simulations are written
over any source, so that what they guarantee does not hang on how the numbers come about.
-/

namespace Ranging

/-- States `σ` from which numbers can be drawn. Every draw returns the state that follows. -/
class NoiseSource (σ : Type) (K : outParam Type) where
  /-- The source that a seed stands for. -/
  seeded : UInt64 → σ
  /-- A number from zero up to one, uniformly. -/
  unit : σ → K × σ
  /-- A number from `low` up to `high`, uniformly. -/
  between (low high : K) : σ → K × σ
  /-- A reading of a 40-bit counter, uniformly. -/
  counter : σ → UInt64 × σ
  /-- A normally distributed number with mean zero. -/
  normal (deviation : K) : σ → K × σ

end Ranging

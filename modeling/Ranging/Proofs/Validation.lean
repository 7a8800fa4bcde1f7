import Mathlib.Tactic.MkIffOfInductiveProp
import Ranging.Simulation.Setup

/-!
# What the checks make sure of

Settings, filter constants and the setup of a simulation are checked value by value, and the first
wrong one is named. Where no value is wrong, they are `Valid`, and that is all that a check makes sure
of.
-/

namespace Ranging

/-! ## Guards -/

section Guards

variable {ε α β : Type} {p : Prop} [Decidable p] {e : ε} {next : β → Except ε α} {x : Except ε α}
  {a : α}

/-- The checks go on behind a guard that holds. -/
theorem ite_throw_eq_ok : (if p then x else throw e >>= next) = .ok a ↔ p ∧ x = .ok a := by
  by_cases h : p <;> simp [h, throw, throwThe, MonadExceptOf.throw, bind, Except.bind]

/-- They go on if nothing is wrong. -/
theorem ite_not_throw_eq_ok : (if p then throw e >>= next else x) = .ok a ↔ ¬ p ∧ x = .ok a := by
  by_cases h : p <;> simp [h, throw, throwThe, MonadExceptOf.throw, bind, Except.bind]

/-- The last check. -/
theorem ite_throw_pure_eq_ok :
    (if p then throw e else pure () : Except ε Unit) = .ok () ↔ ¬ p := by
  by_cases h : p <;> simp [h, throw, throwThe, MonadExceptOf.throw, pure, Except.pure]

/-- The last guard. -/
theorem ite_pure_throw_eq_ok :
    (if p then pure () else throw e : Except ε Unit) = .ok () ↔ p := by
  by_cases h : p <;> simp [h, throw, throwThe, MonadExceptOf.throw, pure, Except.pure]

theorem mapError_eq_ok {ε' : Type} {f : ε → ε'} : x.mapError f = .ok a ↔ x = .ok a := by
  cases x with
  | ok b =>
      constructor
      · intro h
        rw [Except.ok.inj h]
      · intro h
        rw [Except.ok.inj h]
        rfl
  | error e => constructor <;> intro h <;> cases h

end Guards

variable {K : Type} [Scalar K]

namespace RatioFilter

/-- Filter constants that pass the check. The accepted noise has no upper bound. -/
@[mk_iff] structure Valid (f : RatioFilter K) : Prop where
  deviation : 0.0 < f.maxDeviation ∧ f.maxDeviation < 0.5
  noise : 0.0 < f.acceptedNoise
  weight : 0.0 ≤ f.weight ∧ f.weight < 1.0
  bucketMax_ne_zero : f.bucketMax ≠ 0

theorem validate_eq_ok_iff {f : RatioFilter K} : f.validate = .ok () ↔ f.Valid := by
  rw [validate, valid_iff]
  simp only [ite_throw_eq_ok, ite_throw_pure_eq_ok, ne_eq]

end RatioFilter

namespace Settings

/-- Settings that pass the check. -/
@[mk_iff] structure Valid (s : Settings K) : Prop where
  anchorCapacity_ne_zero : s.anchorCapacity ≠ 0
  receptionCapacity_ne_zero : s.receptionCapacity ≠ 0
  flightCapacity_ne_zero : s.flightCapacity ≠ 0
  frequency : Scalar.isFinite s.tickFrequency = true ∧ 0.0 < s.tickFrequency
  deviation : Scalar.isFinite s.stdDev = true ∧ 0.0 ≤ s.stdDev
  statsInterval_ne_zero : s.statsInterval ≠ 0
  filter : s.filter.Valid

theorem validate_eq_ok_iff {s : Settings K} : s.validate = .ok () ↔ s.Valid := by
  rw [validate, valid_iff, ← RatioFilter.validate_eq_ok_iff]
  simp only [ite_throw_eq_ok, ite_not_throw_eq_ok, mapError_eq_ok, ne_eq]

end Settings

namespace Setup

/-- A setup that passes the check. Jitter and settings are checked when the simulation is set up. -/
@[mk_iff] structure Valid (s : Setup K) : Prop where
  anchorCount : 2 ≤ s.anchorCount ∧ s.anchorCount ≤ maxAnchors
  anchorCount_le_capacity : s.anchorCount ≤ s.settings.anchorCapacity
  slotPeriod : 0.0 < s.slotPeriod
  packetLoss : 0.0 ≤ s.packetLoss ∧ s.packetLoss < 1.0
  clockDrift : 0.0 ≤ s.clockDrift ∧ s.clockDrift < 10.0

theorem validate_eq_ok_iff {s : Setup K} : s.validate = .ok () ↔ s.Valid := by
  rw [validate, valid_iff]
  simp only [ite_throw_eq_ok, ite_not_throw_eq_ok, ite_pure_throw_eq_ok, not_or, Nat.not_lt]

end Setup

end Ranging

import Mathlib.Tactic.Linarith
import Mathlib.Tactic.Ring
import Ranging.Proofs.ExactArithmetic
import Ranging.Proofs.Ticks
import Ranging.Simulation.Oscillator

/-!
# Intervals between readings of a simulated counter

A simulated counter is read by rounding its ticks to a whole number, of which 40 bits are kept. The
rounding comes first. So two readings are as far apart, modulo the counter's period, as two whole
numbers that are each within half a tick of the ticks counted, and it does not matter how often the
counter has started over at either of them. That the whole numbers are less than a period apart is
what an interval of at most two ticks less than the period makes sure of.
-/

namespace Ranging.Oscillator

variable {K : Type} [Field K] [LinearOrder K] [FloorRing K]

/-- Whatever is read has 40 bits. -/
theorem reading_mem (count : K) : 0 ≤ (reading count).toInt ∧ (reading count).toInt < 2 ^ 40 := by
  have hmask := Ticks.toNat_and_counterMask (Scalar.toWord (Scalar.round count))
  rw [reading, Ticks.toInt_toInt64_of_lt (by omega), hmask]
  omega

/-- An interval counts as many ticks whenever it begins. -/
theorem ticks_add (c : Oscillator K) (t dt : K) :
    c.ticks (t + dt) = c.ticks t + c.intervalTicks dt := by
  simp only [ticks, intervalTicks]
  ring

variable [IsStrictOrderedRing K]

theorem intervalTicks_nonneg {c : Oscillator K} (hfrequency : 0 < c.frequency) (hrate : 0 < c.rate)
    {dt : K} (hdt : 0 ≤ dt) : 0 ≤ c.intervalTicks dt :=
  mul_nonneg (mul_nonneg hdt hfrequency.le) hrate.le

/-- A count that fits into a word is rounded to a whole number, and then reduced. -/
theorem toInt_reading {count : K} (hnonneg : 0 ≤ count) (hlt : count < 2 ^ 63) :
    (reading count).toInt = ⌊count + 1 / 2⌋ % 2 ^ 40 := by
  have hround : Scalar.round count = ((⌊count + 1 / 2⌋ : ℤ) : K) := if_pos hnonneg
  have hwhole : Scalar.wholePart (Scalar.round count) = ⌊count + 1 / 2⌋.toNat := by
    rw [hround]
    exact congrArg Int.toNat (Int.floor_intCast _)
  have hlow : 0 ≤ ⌊count + 1 / 2⌋ := Int.floor_nonneg.2 (by linarith)
  have hhigh : ⌊count + 1 / 2⌋ < 2 ^ 63 + 1 := by
    rw [Int.floor_lt]
    push_cast
    linarith
  have hword : (Scalar.toWord (Scalar.round count)).toNat = ⌊count + 1 / 2⌋.toNat := by
    rw [Scalar.toWord, hwhole, Nat.toUInt64_eq, UInt64.toNat_ofNat', UInt64.size]
    omega
  have hmask := Ticks.toNat_and_counterMask (Scalar.toWord (Scalar.round count))
  rw [hword] at hmask
  rw [reading, Ticks.toInt_toInt64_of_lt (by omega), hmask]
  omega

/-- Two counts that are less than a period apart, read off the counter. Each of them is rounded by
half a tick at most. -/
theorem abs_elapsed_reading_sub_le {count later : K} (hnonneg : 0 ≤ count) (hlt : later < 2 ^ 63)
    (hle : 0 ≤ later - count) (hgap : later - count ≤ 2 ^ 40 - 2) :
    |((Ticks.elapsed (reading count) (reading later)).toInt : K) - (later - count)| ≤ 1 := by
  rw [Ticks.toInt_elapsed, toInt_reading hnonneg (by linarith), toInt_reading (by linarith) hlt]
  have hfirst := Int.floor_le (count + 1 / 2)
  have hfirst' := Int.lt_floor_add_one (count + 1 / 2)
  have hsecond := Int.floor_le (later + 1 / 2)
  have hsecond' := Int.lt_floor_add_one (later + 1 / 2)
  have hordered : ⌊count + 1 / 2⌋ ≤ ⌊later + 1 / 2⌋ := Int.floor_le_floor (by linarith)
  have hperiod : ⌊later + 1 / 2⌋ - ⌊count + 1 / 2⌋ < 2 ^ 40 := by
    rw [← Int.cast_lt (R := K)]
    push_cast
    linarith
  generalize ⌊count + 1 / 2⌋ = n at *
  generalize ⌊later + 1 / 2⌋ = n' at *
  have hmod : (n' % 2 ^ 40 - n % 2 ^ 40) % 2 ^ 40 = n' - n := by omega
  rw [hmod, Int.cast_sub, abs_le]
  constructor <;> linarith

/-- The ticks that elapse from one timestamp to a later one, which is their difference modulo the
counter's period, are the ticks of the interval up to one, and up to the noise if there is any.
Timestamps have 40 bits. The interval may be as long as two ticks less than a period, and with noise
the difference of the noisy counts may. -/
theorem timestamps_measure {c : Oscillator K} (hfrequency : 0 < c.frequency) (hrate : 0 < c.rate)
    (hoffset : 0 ≤ c.offset) {t dt : K} (ht : 0 ≤ t) (hdt : 0 ≤ dt) :
    (c.ticks (t + dt) < 2 ^ 63 → c.intervalTicks dt ≤ 2 ^ 40 - 2 →
      (0 ≤ (c.timestamp t).toInt ∧ (c.timestamp t).toInt < 2 ^ 40) ∧
      (0 ≤ (c.timestamp (t + dt)).toInt ∧ (c.timestamp (t + dt)).toInt < 2 ^ 40) ∧
      |((Ticks.elapsed (c.timestamp t) (c.timestamp (t + dt))).toInt : K) - c.intervalTicks dt|
        ≤ 1) ∧
    ∀ {e noise noise' : K}, |noise| ≤ e → |noise'| ≤ e →
      0 ≤ c.ticks t + noise → c.ticks t + noise < 2 ^ 63 →
      0 ≤ c.ticks (t + dt) + noise' → c.ticks (t + dt) + noise' < 2 ^ 63 →
      0 ≤ c.ticks (t + dt) + noise' - (c.ticks t + noise) →
      c.ticks (t + dt) + noise' - (c.ticks t + noise) ≤ 2 ^ 40 - 2 →
      (0 ≤ (c.noisyTimestamp t noise).toInt ∧ (c.noisyTimestamp t noise).toInt < 2 ^ 40) ∧
      (0 ≤ (c.noisyTimestamp (t + dt) noise').toInt ∧
        (c.noisyTimestamp (t + dt) noise').toInt < 2 ^ 40) ∧
      |((Ticks.elapsed (c.noisyTimestamp t noise) (c.noisyTimestamp (t + dt) noise')).toInt : K)
        - c.intervalTicks dt| ≤ 1 + 2 * e := by
  have hadd := c.ticks_add t dt
  constructor
  · intro hlt hgap
    have hforward := intervalTicks_nonneg hfrequency hrate hdt
    have hstart : 0 ≤ c.ticks t := add_nonneg hoffset (intervalTicks_nonneg hfrequency hrate ht)
    have hdifference : c.ticks (t + dt) - c.ticks t = c.intervalTicks dt := by linarith
    have hreadings := abs_elapsed_reading_sub_le hstart hlt (by linarith) (by linarith)
    rw [hdifference] at hreadings
    exact ⟨reading_mem _, reading_mem _, hreadings⟩
  · intro e noise noise' hnoise hnoise' hfirst _ _ hsecond hle hgap
    have hreadings := abs_elapsed_reading_sub_le hfirst hsecond hle hgap
    refine ⟨reading_mem _, reading_mem _, ?_⟩
    change |((Ticks.elapsed (reading (c.ticks t + noise))
      (reading (c.ticks (t + dt) + noise'))).toInt : K) - c.intervalTicks dt| ≤ 1 + 2 * e
    rw [abs_le] at hnoise hnoise' hreadings ⊢
    constructor <;> linarith

/-- A clock of 1 kHz that runs 10 ppm fast, a hundred ticks before it starts over. -/
def nearWrap : Oscillator ℚ :=
  create 1000 10 (Ticks.counterMask - 99)

/-- It starts over within 0.3 s. The first noisy count is half-way between two whole numbers. -/
theorem timestamps_measure_nearWrap :
    0 < nearWrap.frequency ∧ 0 < nearWrap.rate ∧ 0 ≤ nearWrap.offset ∧
    nearWrap.timestamp 0 = 2 ^ 40 - 100 ∧ nearWrap.timestamp (0 + 3 / 10) = 200 ∧
    |((Ticks.elapsed (nearWrap.timestamp 0) (nearWrap.timestamp (0 + 3 / 10))).toInt : ℚ)
      - nearWrap.intervalTicks (3 / 10)| ≤ 1 ∧
    |((Ticks.elapsed (nearWrap.noisyTimestamp 0 (1 / 2))
      (nearWrap.noisyTimestamp (0 + 3 / 10) (-3))).toInt : ℚ) - nearWrap.intervalTicks (3 / 10)|
        ≤ 1 + 2 * 3 := by
  have hfrequency : 0 < nearWrap.frequency := by decide +kernel
  have hrate : 0 < nearWrap.rate := by decide +kernel
  have hoffset : 0 ≤ nearWrap.offset := by decide +kernel
  have hstart : (0 : ℚ) ≤ 0 := le_rfl
  have hduration : (0 : ℚ) ≤ 3 / 10 := by decide +kernel
  have hnoise : |(1 / 2 : ℚ)| ≤ 3 := by decide +kernel
  have hnoise' : |(-3 : ℚ)| ≤ 3 := by decide +kernel
  obtain ⟨hexact, hnoisy⟩ := timestamps_measure hfrequency hrate hoffset hstart hduration
  obtain ⟨-, -, hinterval⟩ := hexact (by decide +kernel) (by decide +kernel)
  obtain ⟨-, -, hinterval'⟩ := hnoisy hnoise hnoise' (by decide +kernel) (by decide +kernel)
    (by decide +kernel) (by decide +kernel) (by decide +kernel) (by decide +kernel)
  exact ⟨hfrequency, hrate, hoffset, by decide +kernel, by decide +kernel, hinterval, hinterval'⟩

end Ranging.Oscillator

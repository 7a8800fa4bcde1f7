import Ranging.Proofs.CounterReading
import Ranging.Proofs.FreshPositions

/-!
# When a drawn clock starts over

A setup may ask for counters that start over soon after the start of a run. The reading that such a
counter starts with is computed backwards: from the counter's period, less the ticks that are to
pass before. What is left is cut off to a whole number, and if nothing is left the counter starts
from zero. So the ticks that pass before it starts over are those asked for, rounded up to a whole
number, but never more than a period (`Oscillator.firstWrap_create`). A clock keeps what was asked
for exactly if its period takes long enough.
-/

namespace Ranging

namespace Oscillator

variable {K : Type} [Field K] [LinearOrder K] [FloorRing K]

/-- Ticks counted in a second. -/
def tickRate (c : Oscillator K) : K :=
  c.frequency * c.rate

/-- The time of one tick, in seconds. -/
def tickTime (c : Oscillator K) : K :=
  1 / c.tickRate

variable [IsStrictOrderedRing K]

/-- A positive number of ticks leaves less than a period, of which the whole part is kept. -/
theorem toNat_toWord_remainder {ticks : K} (h : 0 < ticks) :
    (Scalar.toWord (Scalar.greater (Scalar.ofNat Ticks.counterPeriod - ticks) 0.0)).toNat =
      (2 ^ 40 - ⌈ticks⌉).toNat := by
  have hzero : (0.0 : K) = 0 := by norm_num
  have hperiod : (Scalar.ofNat Ticks.counterPeriod : K) = ((2 ^ 40 : ℤ) : K) := by
    change ((Nat.pow 2 40 : ℕ) : K) = _
    norm_num
  have hwhole : ⌊max (((2 ^ 40 : ℤ) : K) - ticks) 0⌋.toNat = (2 ^ 40 - ⌈ticks⌉).toNat := by
    have hfloor : ⌊((2 ^ 40 : ℤ) : K) - ticks⌋ = 2 ^ 40 - ⌈ticks⌉ := by
      rw [sub_eq_add_neg, Int.floor_intCast_add, Int.floor_neg, ← sub_eq_add_neg]
    rcases le_total ticks ((2 ^ 40 : ℤ) : K) with hle | hge
    · rw [max_eq_left (sub_nonneg.2 hle), hfloor]
    · have hceil : 2 ^ 40 ≤ ⌈ticks⌉ := by
        have hself := Int.le_ceil ticks
        exact_mod_cast hge.trans hself
      rw [max_eq_right (sub_nonpos.2 hge), Int.floor_zero]
      omega
  have hpositive : 0 < ⌈ticks⌉ := Int.ceil_pos.2 h
  rw [hzero, hperiod, Scalar.toWord]
  change (min ⌊max (((2 ^ 40 : ℤ) : K) - ticks) 0⌋.toNat (UInt64.size - 1)).toUInt64.toNat = _
  rw [hwhole, Nat.toUInt64_eq, UInt64.toNat_ofNat', UInt64.size]
  omega

/-- A counter that is to start over after some ticks lacks these to a whole period, rounded up, or
starts from zero if they are more than a period. -/
theorem offset_create {frequency driftPpm ticks : K} (h : 0 < ticks) :
    (create frequency driftPpm
      (Scalar.toWord (Scalar.greater (Scalar.ofNat Ticks.counterPeriod - ticks) 0.0))).offset =
      2 ^ 40 - ((min ⌈ticks⌉ (2 ^ 40) : ℤ) : K) := by
  have hpositive : 0 < ⌈ticks⌉ := Int.ceil_pos.2 h
  have hreading : (2 ^ 40 - ⌈ticks⌉).toNat % 2 ^ 40 = (2 ^ 40 - min ⌈ticks⌉ (2 ^ 40)).toNat := by
    omega
  have hnonneg : 0 ≤ 2 ^ 40 - min ⌈ticks⌉ (2 ^ 40) := by omega
  rw [create]
  change (((_ &&& Ticks.counterMask).toNat : ℕ) : K) = _
  rw [Ticks.toNat_and_counterMask, toNat_toWord_remainder h, hreading, ← Int.cast_natCast,
    Int.toNat_of_nonneg hnonneg]
  push_cast
  ring

/-- Such a counter starts over when it has counted these ticks, rounded up, or a period. -/
theorem firstWrap_create {frequency driftPpm ticks : K} (h : 0 < ticks) {c : Oscillator K}
    (hc : c = create frequency driftPpm
      (Scalar.toWord (Scalar.greater (Scalar.ofNat Ticks.counterPeriod - ticks) 0.0))) :
    c.firstWrap = ((min ⌈ticks⌉ (2 ^ 40) : ℤ) : K) * c.tickTime := by
  have hperiod : (Scalar.ofNat Ticks.counterPeriod : K) = 2 ^ 40 := by
    change ((Nat.pow 2 40 : ℕ) : K) = _
    norm_num
  have hoffset : c.offset = 2 ^ 40 - ((min ⌈ticks⌉ (2 ^ 40) : ℤ) : K) := by
    rw [hc]
    exact offset_create h
  rw [firstWrap, hperiod, hoffset, sub_sub_cancel, tickTime, tickRate, mul_one_div]

/-- Some seconds and a part of one, counted in whole ticks up to a period, last at least as long as
these seconds exactly if a period does, and never longer than the next second and one tick. -/
theorem within_promise_iff {c : Oscillator K} (hrate : 0 < c.tickRate) {seconds delay : K}
    (hdelay : 0 ≤ delay) (hdelay' : delay < 1) :
    seconds ≤ ((min ⌈(seconds + delay) * c.tickRate⌉ (2 ^ 40) : ℤ) : K) * c.tickTime ∧
      ((min ⌈(seconds + delay) * c.tickRate⌉ (2 ^ 40) : ℤ) : K) * c.tickTime <
        seconds + 1 + c.tickTime ↔
    seconds ≤ 2 ^ 40 * c.tickTime := by
  have htick : 0 < c.tickTime := one_div_pos.2 hrate
  have hunit : c.tickRate * c.tickTime = 1 := mul_one_div_cancel hrate.ne'
  have hceil := Int.le_ceil ((seconds + delay) * c.tickRate)
  have hceil' := Int.ceil_lt_add_one ((seconds + delay) * c.tickRate)
  generalize ⌈(seconds + delay) * c.tickRate⌉ = n at *
  -- The same bounds in seconds.
  have hlow : seconds + delay ≤ n * c.tickTime := by
    have hscaled := mul_le_mul_of_nonneg_right hceil htick.le
    rwa [mul_assoc, hunit, mul_one] at hscaled
  have hhigh : n * c.tickTime < seconds + delay + c.tickTime := by
    have hscaled := mul_lt_mul_of_pos_right hceil' htick
    rwa [add_mul, mul_assoc, hunit, mul_one, one_mul] at hscaled
  have hmin : ((min n (2 ^ 40) : ℤ) : K) * c.tickTime =
      min (n * c.tickTime) (2 ^ 40 * c.tickTime) := by
    rw [Int.cast_min, min_mul_of_nonneg _ _ htick.le]
    norm_num
  rw [hmin]
  constructor
  · rintro ⟨hle, -⟩
    exact hle.trans (min_le_right _ _)
  · intro hperiod
    refine ⟨le_min (by linarith) hperiod, ?_⟩
    exact lt_of_le_of_lt (min_le_left _ _) (by linarith)

end Oscillator

namespace World

section Draws

variable {σ K : Type} [Analytic K] [NoiseSource σ K]

/-- The drift that is drawn for a clock. -/
def drawDrift (s : Setup K) (source : σ) : K × σ :=
  if 0.0 < s.clockDrift then NoiseSource.between (-s.clockDrift) s.clockDrift source
  else (0.0, source)

/-- The part of a second that is drawn for a clock, by which it starts over later than asked for. -/
def drawDelay (s : Setup K) (source : σ) : K :=
  (NoiseSource.unit (drawDrift s source).2).1

/-- A clock that is to start over after some time. -/
theorem randomClock_fst {s : Setup K} {seconds : K} (h : s.wrapAfter = some seconds) (source : σ) :
    (randomClock s source).1 =
      .create s.settings.tickFrequency (drawDrift s source).1 (Scalar.toWord
        (Scalar.greater (Scalar.ofNat Ticks.counterPeriod -
          (seconds + drawDelay s source) * s.settings.tickFrequency *
            (1.0 + (drawDrift s source).1 * 1e-6)) 0.0)) := by
  rw [randomClock, h]
  rfl

end Draws

section Exact

variable {σ K : Type} [Field K] [LinearOrder K] [IsStrictOrderedRing K] [FloorRing K]
  [NoiseSource σ K] (sqrt sin cos exp ln : K → K)

/-- No clock that is drawn for a valid setup stands still or runs backwards. -/
theorem tickRate_randomClock_pos
    (hbetween : ∀ (low high : K) (g : σ), low < high →
      low ≤ (NoiseSource.between low high g).1 ∧ (NoiseSource.between low high g).1 < high)
    {s : Setup K} (hvalid : s.Valid) (hsettings : s.settings.Valid) (source : σ) :
    letI := Analytic.ofField sqrt sin cos exp ln
    0 < (randomClock s source).1.tickRate := by
  let _ := Analytic.ofField sqrt sin cos exp ln
  have hzero : (0.0 : K) = 0 := by norm_num
  have hten : (10.0 : K) = 10 := by norm_num
  have hmillionth : (1e-6 : K) = 1 / 1000000 := by norm_num
  obtain ⟨-, hlt⟩ := hvalid.clockDrift
  have hfrequency := hsettings.frequency.2
  rw [hten] at hlt
  rw [hzero] at hfrequency
  have hdrift : -10 < (drawDrift s source).1 := by
    rw [drawDrift, hzero]
    split
    · rename_i hsome
      have hmem := hbetween (-s.clockDrift) s.clockDrift source (by linarith)
      linarith [hmem.1]
    · norm_num
  refine mul_pos hfrequency ?_
  change 0 < 1.0 + (drawDrift s source).1 * 1e-6
  rw [hmillionth]
  norm_num
  linarith

omit [IsStrictOrderedRing K] in
/-- The reading that a clock starts with is a period, less the ticks until it is to start over. -/
theorem randomClock_eq_create {s : Setup K} {seconds : K} (hwrap : s.wrapAfter = some seconds)
    (source : σ) :
    letI := Analytic.ofField sqrt sin cos exp ln
    (randomClock s source).1 =
      .create s.settings.tickFrequency (drawDrift s source).1 (Scalar.toWord
        (Scalar.greater (Scalar.ofNat Ticks.counterPeriod -
          (seconds + drawDelay s source) * (randomClock s source).1.tickRate) 0.0)) := by
  let _ := Analytic.ofField sqrt sin cos exp ln
  have hclock := randomClock_fst hwrap source
  have hrate : (randomClock s source).1.tickRate =
      s.settings.tickFrequency * (1.0 + (drawDrift s source).1 * 1e-6) := by
    rw [hclock]
    rfl
  rw [hrate, ← mul_assoc]
  exact hclock

end Exact

/-- A setup asks for counters that start over `seconds` after the start or up to a second later, and
numbers are drawn from the ranges that they are asked for. A clock that is drawn for a valid setup, and
is not to start over at time zero, does so within that time and a tick exactly if a period of its
counter takes `seconds` or longer. If it takes less, the counter starts from zero, and starts over when
the period has passed. -/
theorem firstWrap_within_iff {σ K : Type} [Field K] [LinearOrder K] [IsStrictOrderedRing K]
    [FloorRing K] [NoiseSource σ K]
    (hunit : ∀ g : σ, 0 ≤ (NoiseSource.unit g).1 ∧ (NoiseSource.unit g).1 < 1)
    (hbetween : ∀ (low high : K) (g : σ), low < high →
      low ≤ (NoiseSource.between low high g).1 ∧ (NoiseSource.between low high g).1 < high)
    (sqrt sin cos exp ln : K → K) {s : Setup K} (hvalid : s.validate = .ok ())
    (hsettings : s.settings.validate = .ok ()) {seconds : K} (hwrap : s.wrapAfter = some seconds) :
    let _ := Analytic.ofField sqrt sin cos exp ln
    ∀ source : σ, 0 < seconds + drawDelay s source →
      let c := (randomClock s source).1
      (seconds ≤ c.firstWrap ∧ c.firstWrap < seconds + 1 + c.tickTime ↔
        seconds ≤ 2 ^ 40 * c.tickTime) ∧
      (2 ^ 40 * c.tickTime < seconds → c.offset = 0 ∧ c.firstWrap = 2 ^ 40 * c.tickTime) := by
  intro _ source hpositive c
  obtain ⟨hdelay, hdelay'⟩ := hunit (drawDrift s source).2
  have hrate : 0 < c.tickRate := tickRate_randomClock_pos sqrt sin cos exp ln hbetween
    (Setup.validate_eq_ok_iff.1 hvalid) (Settings.validate_eq_ok_iff.1 hsettings) source
  have hticks : 0 < (seconds + drawDelay s source) * c.tickRate := mul_pos hpositive hrate
  have hclock : c = .create .. := randomClock_eq_create sqrt sin cos exp ln hwrap source
  have hwrapped : c.firstWrap = _ * c.tickTime := Oscillator.firstWrap_create hticks hclock
  refine ⟨?_, ?_⟩
  · rw [hwrapped]
    exact Oscillator.within_promise_iff hrate hdelay hdelay'
  · intro hshort
    have hunit : c.tickTime * c.tickRate = 1 := one_div_mul_cancel hrate.ne'
    have hmany : 2 ^ 40 ≤ ⌈(seconds + drawDelay s source) * c.tickRate⌉ := by
      have hasked : (2 ^ 40 : K) < (seconds + drawDelay s source) * c.tickRate := by
        have hscaled := mul_lt_mul_of_pos_right hshort hrate
        rw [mul_assoc, hunit, mul_one] at hscaled
        exact hscaled.trans_le (mul_le_mul_of_nonneg_right (le_add_of_nonneg_right hdelay) hrate.le)
      have hceil := hasked.le.trans (Int.le_ceil _)
      exact_mod_cast hceil
    have hoffset : c.offset = 2 ^ 40 - ((2 ^ 40 : ℤ) : K) := by
      rw [← min_eq_right hmany, ← Oscillator.offset_create hticks, ← hclock]
    rw [hwrapped, hoffset, min_eq_right hmany]
    norm_num

end World

/-! ## Drawn clocks -/

namespace ExactDraws

/-- The upper bits of a word. -/
theorem toNat_shiftRight_lt (x : UInt64) {k : UInt64} (hk : k.toNat < 64) :
    (x >>> k).toNat < 2 ^ (64 - k.toNat) := by
  have hlt := x.toNat_lt
  have hpow : 2 ^ 64 = 2 ^ k.toNat * 2 ^ (64 - k.toNat) := by
    rw [← Nat.pow_add, Nat.add_sub_cancel' hk.le]
  rw [UInt64.toNat_shiftRight, Nat.mod_eq_of_lt hk, Nat.shiftRight_eq_div_pow]
  rw [hpow] at hlt
  exact Nat.div_lt_of_lt_mul hlt

theorem unit_mem (g : ExactDraws) : 0 ≤ (NoiseSource.unit g).1 ∧ (NoiseSource.unit g).1 < 1 := by
  have hword : ((g.words.next.1 >>> 11).toNat : ℚ) < 2 ^ 53 := by
    exact_mod_cast toNat_shiftRight_lt g.words.next.1 (by decide)
  exact ⟨div_nonneg (Nat.cast_nonneg _) (by norm_num), (div_lt_one (by norm_num)).2 hword⟩

theorem between_mem (low high : ℚ) (g : ExactDraws) (h : low < high) :
    low ≤ (NoiseSource.between low high g).1 ∧ (NoiseSource.between low high g).1 < high := by
  have hword : ((g.words.next.1 >>> 12).toNat : ℚ) < 2 ^ 52 := by
    exact_mod_cast toNat_shiftRight_lt g.words.next.1 (by decide)
  have hwidth : 0 < high - low := sub_pos.2 h
  have hlow := mul_nonneg (div_nonneg (Nat.cast_nonneg (g.words.next.1 >>> 12).toNat)
    (by norm_num : (0 : ℚ) ≤ 2 ^ 52)) hwidth.le
  have hhigh := mul_lt_mul_of_pos_right ((div_lt_one (by norm_num)).2 hword) hwidth
  change low ≤ ((g.words.next.1 >>> 12).toNat : ℚ) / 2 ^ 52 * (high - low) + low ∧
    ((g.words.next.1 >>> 12).toNat : ℚ) / 2 ^ 52 * (high - low) + low < high
  constructor <;> linarith

end ExactDraws

namespace World

/-- A common installation, whose counters are to start over after a time in seconds. -/
def wrappingSetup (seconds : ℚ) : Setup ℚ :=
  { Setup.standard with wrapAfter := some seconds }

theorem validate_wrappingSetup (seconds : ℚ) : (wrappingSetup seconds).validate = .ok () ∧
    (wrappingSetup seconds).settings.validate = .ok () := by
  have hvalid : (wrappingSetup seconds).Valid := { Setup.valid_standard_exact with }
  exact ⟨Setup.validate_eq_ok_iff.2 hvalid,
    Settings.validate_eq_ok_iff.2 Settings.valid_standard_exact⟩

/-- A second is less than a period, and a clock starts over when it should. -/
theorem firstWrap_within_iff_oneSecond :
    letI := Analytic.ofField (throughFloat .sqrt) (throughFloat .sin) (throughFloat .cos)
      (throughFloat .exp) (throughFloat .log)
    ∃ source : ExactDraws, source = NoiseSource.seeded 42 ∧
      (wrappingSetup 1).validate = .ok () ∧ (wrappingSetup 1).settings.validate = .ok () ∧
      0 < 1 + drawDelay (wrappingSetup 1) source ∧
      let c := (randomClock (wrappingSetup 1) source).1
      1 ≤ c.firstWrap ∧ c.firstWrap < 1 + 1 + c.tickTime := by
  let _ := Analytic.ofField (throughFloat .sqrt) (throughFloat .sin) (throughFloat .cos)
    (throughFloat .exp) (throughFloat .log)
  obtain ⟨hvalid, hsettings⟩ := validate_wrappingSetup 1
  have hpositive : 0 < 1 + drawDelay (wrappingSetup 1) (NoiseSource.seeded 42 : ExactDraws) :=
    add_pos_of_pos_of_nonneg one_pos (ExactDraws.unit_mem _).1
  have hperiod : 1 ≤ 2 ^ 40 *
      (randomClock (wrappingSetup 1) (NoiseSource.seeded 42 : ExactDraws)).1.tickTime := by
    decide +kernel
  obtain ⟨hwithin, -⟩ := firstWrap_within_iff ExactDraws.unit_mem ExactDraws.between_mem
    (throughFloat .sqrt) (throughFloat .sin) (throughFloat .cos) (throughFloat .exp)
    (throughFloat .log) hvalid hsettings rfl (NoiseSource.seeded 42) hpositive
  exact ⟨_, rfl, hvalid, hsettings, hpositive, hwithin.2 hperiod⟩

/-- Twenty seconds are more than a period. A clock starts over too soon. -/
theorem firstWrap_before_twentySeconds :
    letI := Analytic.ofField (throughFloat .sqrt) (throughFloat .sin) (throughFloat .cos)
      (throughFloat .exp) (throughFloat .log)
    (wrappingSetup 20).validate = .ok () ∧ (wrappingSetup 20).settings.validate = .ok () ∧
      (wrappingSetup 20).wrapAfter = some 20 ∧
      ¬ 20 ≤ (randomClock (wrappingSetup 20) (NoiseSource.seeded 42 : ExactDraws)).1.firstWrap := by
  obtain ⟨hvalid, hsettings⟩ := validate_wrappingSetup 20
  exact ⟨hvalid, hsettings, rfl, by decide +kernel⟩

end World

end Ranging

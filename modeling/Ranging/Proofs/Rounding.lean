import Mathlib.Algebra.Order.Field.Power
import Mathlib.Data.Int.Log
import Mathlib.Data.Nat.Cast.Order.Field
import Mathlib.Data.Rat.Floor
import Mathlib.Tactic.FieldSimp
import Mathlib.Tactic.Linarith
import Mathlib.Tactic.Positivity
import Mathlib.Tactic.Ring
import Ranging.Decimal.Shortest

/-!
# Rounding to a binary format

The numbers of a binary format lie on grids that get coarser with their size. A number between two
neighbours rounds to the nearer one, and every number of the format has an interval around it that
rounds to it. `RoundingInterval` writes down the bounds of that interval in whole numbers, and
`Magnitude.nearest?` rounds a fraction, also in whole numbers. Here both are read as rational
numbers, and the main result, `Magnitude.nearest?_eq`, is that they agree: whatever lies in the
interval around a number of the format is rounded to this number.
-/

namespace Ranging

/-! ## Signed powers in whole numbers -/

/-- A signed power is a quotient of two whole powers, one of which is one. -/
theorem pow_toNat {b : ℚ} (hb : b ≠ 0) (e : ℤ) : b ^ e.toNat = b ^ e * b ^ (-e).toNat := by
  rw [← zpow_natCast, ← zpow_natCast, ← zpow_add₀ hb]
  congr 1
  omega

/-- A power compared with a quotient, in whole numbers. -/
theorem zpow_le_div_iff {b : ℕ} (hb : 0 < b) (numerator : ℕ) {denominator : ℕ}
    (hd : 0 < denominator) (e : ℤ) : (b : ℚ) ^ e ≤ numerator / denominator ↔
      denominator * b ^ e.toNat ≤ numerator * b ^ (-e).toNat := by
  have hbase : (b : ℚ) ≠ 0 := by positivity
  have hpow : (0 : ℚ) < (b : ℚ) ^ (-e).toNat := by positivity
  have hdenominator : (0 : ℚ) < denominator := by positivity
  rw [le_div_iff₀ hdenominator, ← mul_le_mul_iff_left₀ hpow, ← Nat.cast_le (α := ℚ)]
  push_cast
  rw [pow_toNat hbase e, mul_right_comm, mul_comm (denominator : ℚ)]

/-- The power of a base at or below a number is the one that the next power exceeds. -/
theorem log_eq {b : ℕ} (hb : 1 < b) {x : ℚ} {e : ℤ} (hle : (b : ℚ) ^ e ≤ x)
    (hlt : x < (b : ℚ) ^ (e + 1)) : Int.log b x = e := by
  have hpos : 0 < x := lt_of_lt_of_le (by positivity) hle
  have hlower := (Int.zpow_le_iff_le_log hb hpos).1 hle
  have hupper := (Int.lt_zpow_iff_log_lt hb hpos).1 hlt
  omega

/-! ## Quotients -/

/-- A quotient rounds to one of the whole numbers around it. -/
theorem roundDiv_eq_or (tie : Tie) (a b : ℕ) :
    roundDiv tie a b = a / b ∨ roundDiv tie a b = a / b + 1 := by
  cases tie <;> grind [roundDiv]

/-- A quotient is a whole number and a fraction, and the remainder tells on which side of a half the
fraction lies. -/
theorem exists_fraction (a : ℕ) {b : ℕ} (hb : 0 < b) : ∃ x : ℚ, (a : ℚ) / b = (a / b : ℕ) + x ∧
    0 ≤ x ∧ x < 1 ∧ (2 * (a % b) < b ↔ x < 1 / 2) ∧ (b < 2 * (a % b) ↔ 1 / 2 < x) := by
  have hbpos : (0 : ℚ) < b := by positivity
  refine ⟨(a % b : ℕ) / b, ?_, by positivity, ?_, ?_, ?_⟩
  · have hsum := Nat.div_add_mod a b
    rw [div_eq_iff hbpos.ne', add_mul, div_mul_cancel₀ _ hbpos.ne', mul_comm]
    exact_mod_cast hsum.symm
  · rw [div_lt_one hbpos]
    exact_mod_cast Nat.mod_lt a hb
  · rw [div_lt_iff₀ hbpos, ← Nat.cast_lt (α := ℚ)]
    push_cast
    constructor <;> intro h <;> linarith
  · rw [lt_div_iff₀ hbpos, ← Nat.cast_lt (α := ℚ)]
    push_cast
    constructor <;> intro h <;> linarith

/-- A quotient within half a unit of a whole number rounds to it, at exactly half a unit only if the
whole number is even. -/
theorem roundDiv_even_eq {a b m : ℕ} (hb : 0 < b) (hlow : (m : ℚ) - 1 / 2 ≤ a / b)
    (hhigh : (a : ℚ) / b ≤ m + 1 / 2)
    (hodd : m % 2 = 1 → (m : ℚ) - 1 / 2 ≠ a / b ∧ (a : ℚ) / b ≠ m + 1 / 2) :
    roundDiv .even a b = m := by
  obtain ⟨x, hquotient, hzero, hone, hless, hmore⟩ := exists_fraction a hb
  rw [roundDiv]
  rw [hquotient] at hlow hhigh hodd
  generalize a / b = q at *
  generalize a % b = r at *
  -- The whole number is the quotient or the one after it.
  have hle : q ≤ m := by
    have hlt : (q : ℚ) < m + 1 := by linarith
    exact Nat.lt_succ_iff.1 (by exact_mod_cast hlt)
  have hge : m ≤ q + 1 := by
    have hlt : (m : ℚ) < q + 1 + 1 := by linarith
    exact Nat.lt_succ_iff.1 (by exact_mod_cast hlt)
  obtain rfl | rfl : m = q ∨ m = q + 1 := by omega
  · by_cases hdown : 2 * r < b
    · exact if_pos hdown
    · have hhalf : x = 1 / 2 := le_antisymm (by linarith) (not_lt.1 (mt hless.2 hdown))
      have heven : m % 2 = 0 := by
        by_contra hne
        apply (hodd (by omega)).2
        rw [hhalf]
      have hup : ¬ b < 2 * r := by
        rw [hmore, hhalf]
        exact lt_irrefl _
      rw [if_neg hdown, if_neg hup]
      exact if_pos heven
  · push_cast at hlow hodd
    have hdown : ¬ 2 * r < b := by
      rw [hless]
      linarith
    rw [if_neg hdown]
    by_cases hup : b < 2 * r
    · exact if_pos hup
    · have hhalf : x = 1 / 2 := le_antisymm (not_lt.1 (mt hmore.2 hup)) (by linarith)
      have heven : (q + 1) % 2 = 0 := by
        by_contra hne
        apply (hodd (by omega)).1
        rw [hhalf]
        ring
      rw [if_neg hup]
      exact if_neg (by omega)

/-- A fraction scaled by a power of two rounds to the whole number that is within half a unit. -/
theorem roundDiv_scaled_eq {numerator denominator m : ℕ} (hd : 0 < denominator) (e : ℤ)
    (hlow : (m : ℚ) - 1 / 2 ≤ numerator / denominator / 2 ^ e)
    (hhigh : (numerator : ℚ) / denominator / 2 ^ e ≤ m + 1 / 2)
    (hodd : m % 2 = 1 → (m : ℚ) - 1 / 2 ≠ numerator / denominator / 2 ^ e ∧
      (numerator : ℚ) / denominator / 2 ^ e ≠ m + 1 / 2) :
    roundDiv .even (numerator * Nat.pow 2 (-e).toNat) (denominator * Nat.pow 2 e.toNat) = m := by
  have hquotient : ((numerator * 2 ^ (-e).toNat : ℕ) : ℚ) / (denominator * 2 ^ e.toNat : ℕ) =
      numerator / denominator / 2 ^ e := by
    have hpos : (0 : ℚ) < 2 ^ (-e).toNat := by positivity
    push_cast
    rw [pow_toNat two_ne_zero e, ← mul_assoc, mul_div_mul_right _ _ hpos.ne', div_div]
  apply roundDiv_even_eq
  · exact Nat.mul_pos hd (Nat.pow_pos two_pos)
  · simpa only [Nat.pow_eq, hquotient] using hlow
  · simpa only [Nat.pow_eq, hquotient] using hhigh
  · simpa only [Nat.pow_eq, hquotient] using hodd

/-! ## Numbers of a format -/

/-- The number that a magnitude stands for. -/
def Magnitude.value (d : Magnitude) : ℚ :=
  d.significand * 2 ^ d.exponent

/-- The number that a decimal stands for. -/
def Decimal.value (d : Decimal) : ℚ :=
  d.digits * 10 ^ d.exponent

/-- The magnitudes of a format other than zero, each in the one form that its bits give it: no bit of
the significand is left unused above the least exponent. -/
structure BinaryFormat.Holds (f : BinaryFormat) (d : Magnitude) : Prop where
  pos : 0 < d.significand
  lt : d.significand < 2 ^ f.precision
  minExponent_le : f.minExponent ≤ d.exponent
  le_maxExponent : d.exponent ≤ f.maxExponent
  normal : f.minExponent < d.exponent → 2 ^ (f.precision - 1) ≤ d.significand

namespace Decimal.RoundingInterval

/-- A number lies in the interval. -/
def Contains (i : RoundingInterval) (x : ℚ) : Prop :=
  i.low * 2 ^ i.exponent ≤ x ∧ x ≤ i.high * 2 ^ i.exponent ∧
    (i.closed = false → i.low * 2 ^ i.exponent ≠ x ∧ x ≠ i.high * 2 ^ i.exponent)

section Bounds

variable {f : BinaryFormat} {d : Magnitude}

theorem ofMagnitude_low (f : BinaryFormat) (d : Magnitude) :
    (ofMagnitude f d).low =
      if d.significand = 2 ^ (f.precision - 1) ∧ f.minExponent < d.exponent then
        4 * d.significand - 1
      else 4 * d.significand - 2 := rfl

/-- The upper bound lies half a unit above. -/
theorem cast_high : ((ofMagnitude f d).high : ℚ) = 4 * (d.significand + 1 / 2) := by
  simp only [ofMagnitude]
  push_cast
  ring

/-- Below the least number of a binade the grid is twice as fine, so the lower bound is only a
quarter of a unit away. -/
theorem cast_low_of_least (hpos : 0 < d.significand)
    (h : d.significand = 2 ^ (f.precision - 1) ∧ f.minExponent < d.exponent) :
    ((ofMagnitude f d).low : ℚ) = 4 * (d.significand - 1 / 4) := by
  rw [ofMagnitude_low, if_pos h, Nat.cast_sub (by omega)]
  push_cast
  ring

theorem cast_low (hpos : 0 < d.significand)
    (h : ¬ (d.significand = 2 ^ (f.precision - 1) ∧ f.minExponent < d.exponent)) :
    ((ofMagnitude f d).low : ℚ) = 4 * (d.significand - 1 / 2) := by
  rw [ofMagnitude_low, if_neg h, Nat.cast_sub (by omega)]
  push_cast
  ring

end Bounds

/-- The interval in units of the magnitude. -/
theorem contains_ofMagnitude_iff {f : BinaryFormat} {d : Magnitude} {x : ℚ} :
    (ofMagnitude f d).Contains x ↔
      let y := x / 2 ^ d.exponent;
      let i := ofMagnitude f d;
      i.low ≤ 4 * y ∧ 4 * y ≤ i.high ∧
        (d.significand % 2 = 1 → i.low ≠ 4 * y ∧ 4 * y ≠ i.high) := by
  have hunit : (2 : ℚ) ^ (d.exponent - 2) = 2 ^ d.exponent / 4 := by
    rw [zpow_sub₀ two_ne_zero]
    norm_num
  have hpos : (0 : ℚ) < 2 ^ d.exponent := by positivity
  obtain ⟨y, rfl⟩ : ∃ y, x = y * 2 ^ d.exponent := ⟨x / 2 ^ d.exponent, by field_simp⟩
  have hscale (n : ℕ) : (n : ℚ) * 2 ^ (d.exponent - 2) = n / 4 * 2 ^ d.exponent := by
    rw [hunit]
    ring
  have hopen : (ofMagnitude f d).closed = false ↔
      d.significand % 2 = 1 := by
    simp [ofMagnitude]
  have hexponent : (ofMagnitude f d).exponent = d.exponent - 2 := rfl
  dsimp only
  rw [Contains, hopen, hexponent, hscale, hscale,
    mul_div_cancel_right₀ _ hpos.ne', mul_le_mul_iff_left₀ hpos, mul_le_mul_iff_left₀ hpos,
    ne_eq, ne_eq, mul_left_inj' hpos.ne', mul_left_inj' hpos.ne']
  have hquarter : (0 : ℚ) < 4 := by norm_num
  rw [div_le_iff₀' hquarter, le_div_iff₀' hquarter, div_eq_iff hquarter.ne',
    eq_div_iff hquarter.ne', mul_comm y]

end Decimal.RoundingInterval

namespace Magnitude

open Decimal.RoundingInterval (ofMagnitude cast_high cast_low cast_low_of_least
  contains_ofMagnitude_iff)

/-- The numbers of bits before the point of numerator and denominator give the place of the leading
bit of the quotient, up to one. -/
theorem zpow_log2_bounds {numerator denominator : ℕ} (hn : numerator ≠ 0) (hd : denominator ≠ 0) :
    (2 : ℚ) ^ ((numerator.log2 : ℤ) - denominator.log2 - 1) ≤ numerator / denominator ∧
      (numerator : ℚ) / denominator < 2 ^ ((numerator.log2 : ℤ) - denominator.log2 + 1) := by
  have hn_low : (2 : ℚ) ^ numerator.log2 ≤ numerator := by exact_mod_cast Nat.log2_self_le hn
  have hn_high : (numerator : ℚ) < 2 ^ (numerator.log2 + 1) := by exact_mod_cast Nat.lt_log2_self
  have hd_low : (2 : ℚ) ^ denominator.log2 ≤ denominator := by exact_mod_cast Nat.log2_self_le hd
  have hd_high : (denominator : ℚ) < 2 ^ (denominator.log2 + 1) := by
    exact_mod_cast Nat.lt_log2_self
  have hdpos : (0 : ℚ) < denominator := by positivity
  constructor
  · rw [le_div_iff₀ hdpos]
    calc (2 : ℚ) ^ ((numerator.log2 : ℤ) - denominator.log2 - 1) * denominator
        ≤ 2 ^ ((numerator.log2 : ℤ) - denominator.log2 - 1) * 2 ^ (denominator.log2 + 1) := by
          gcongr
      _ = 2 ^ numerator.log2 := by
          rw [← zpow_natCast, ← zpow_natCast, ← zpow_add₀ two_ne_zero]
          congr 1
          push_cast
          ring
      _ ≤ numerator := hn_low
  · rw [div_lt_iff₀ hdpos]
    calc (numerator : ℚ) < 2 ^ (numerator.log2 + 1) := hn_high
      _ = 2 ^ ((numerator.log2 : ℤ) - denominator.log2 + 1) * 2 ^ denominator.log2 := by
          rw [← zpow_natCast, ← zpow_natCast, ← zpow_add₀ two_ne_zero]
          congr 1
          push_cast
          ring
      _ ≤ 2 ^ ((numerator.log2 : ℤ) - denominator.log2 + 1) * denominator := by gcongr

/-- The exponent is that of the leading bit, less the bits that the format keeps after it, but not
below the least one. -/
theorem exponentFor_eq (f : BinaryFormat) {numerator denominator : ℕ} (hn : numerator ≠ 0)
    (hd : denominator ≠ 0) :
    exponentFor f numerator denominator =
      max (Int.log 2 ((numerator : ℚ) / denominator) - (f.precision - 1)) f.minExponent := by
  obtain ⟨hlow, hhigh⟩ := zpow_log2_bounds hn hd
  have hreach := zpow_le_div_iff two_pos numerator (Nat.pos_of_ne_zero hd)
    ((numerator.log2 : ℤ) - denominator.log2)
  rw [exponentFor]
  simp only [Nat.pow_eq]
  generalize (numerator.log2 : ℤ) - denominator.log2 = scale at *
  have hreaches : (if 0 ≤ scale then denominator * 2 ^ scale.toNat ≤ numerator
      else denominator ≤ numerator * 2 ^ (-scale).toNat) ↔
      (2 : ℚ) ^ scale ≤ numerator / denominator := by
    have hbase : ((2 : ℕ) : ℚ) = 2 := rfl
    rw [← hbase, hreach]
    split <;> rename_i hscale
    · have hzero : (-scale).toNat = 0 := by omega
      rw [hzero, pow_zero, mul_one]
    · have hzero : scale.toNat = 0 := by omega
      rw [hzero, pow_zero, mul_one]
  congr 2
  by_cases h : (2 : ℚ) ^ scale ≤ numerator / denominator
  · rw [if_pos (hreaches.2 h)]
    exact (log_eq one_lt_two h hhigh).symm
  · rw [if_neg (mt hreaches.1 h)]
    apply (log_eq one_lt_two hlow _).symm
    rw [sub_add_cancel]
    exact lt_of_not_ge h

section Nearest

variable {f : BinaryFormat} {d : Magnitude} {numerator denominator : ℕ}

/-- The leading bit of a number in units of a power of two. -/
theorem log_eq_of_scaled {x : ℚ} {p : ℕ} {e : ℤ} (hlow : (2 : ℚ) ^ p ≤ x / 2 ^ e)
    (hhigh : x / 2 ^ e < 2 ^ (p + 1)) : Int.log 2 x = p + e := by
  have hunit : (0 : ℚ) < 2 ^ e := by positivity
  rw [le_div_iff₀ hunit, ← zpow_natCast, ← zpow_add₀ two_ne_zero] at hlow
  rw [div_lt_iff₀ hunit, ← zpow_natCast, ← zpow_add₀ two_ne_zero] at hhigh
  apply log_eq one_lt_two hlow
  rw [show ((p : ℤ) + e + 1) = ((p + 1 : ℕ) : ℤ) + e by push_cast; ring]
  exact hhigh

theorem log_lt_of_scaled {x : ℚ} (hx : 0 < x) {p : ℕ} {e : ℤ} (hhigh : x / 2 ^ e < 2 ^ p) :
    Int.log 2 x < p + e := by
  have hunit : (0 : ℚ) < 2 ^ e := by positivity
  rw [div_lt_iff₀ hunit, ← zpow_natCast, ← zpow_add₀ two_ne_zero] at hhigh
  exact (Int.lt_zpow_iff_log_lt one_lt_two hx).1 hhigh

/-- A fraction in the binade of a magnitude that is within half a unit of it. -/
theorem nearest?_of_binade (hd : f.Holds d) (hn : numerator ≠ 0) (hden : denominator ≠ 0)
    (hlow : (d.significand : ℚ) - 1 / 2 ≤ numerator / denominator / 2 ^ d.exponent)
    (hhigh : (numerator : ℚ) / denominator / 2 ^ d.exponent ≤ d.significand + 1 / 2)
    (hodd : d.significand % 2 = 1 →
      (d.significand : ℚ) - 1 / 2 ≠ numerator / denominator / 2 ^ d.exponent ∧
        (numerator : ℚ) / denominator / 2 ^ d.exponent ≠ d.significand + 1 / 2)
    (hbinade : f.minExponent < d.exponent →
      (2 : ℚ) ^ (f.precision - 1) ≤ numerator / denominator / 2 ^ d.exponent) :
    nearest? f numerator denominator = some d := by
  have hx : (0 : ℚ) < numerator / denominator := by positivity
  have hbelow : (numerator : ℚ) / denominator / 2 ^ d.exponent < 2 ^ f.precision := by
    have htop : (d.significand : ℚ) + 1 ≤ 2 ^ f.precision := by exact_mod_cast hd.lt
    linarith
  have hminimum := hd.minExponent_le
  have hexponent : exponentFor f numerator denominator = d.exponent := by
    rw [exponentFor_eq f hn hden]
    have hupper := log_lt_of_scaled hx hbelow
    by_cases hnormal : f.minExponent < d.exponent
    · have hprecision : f.precision - 1 + 1 = f.precision := by
        by_contra hne
        have hzero : f.precision = 0 := by omega
        have hlt := hd.lt
        have hpos := hd.pos
        rw [hzero, pow_zero] at hlt
        omega
      have hlog := log_eq_of_scaled (hbinade hnormal) (by rwa [hprecision])
      omega
    · omega
  rw [nearest?, hexponent, roundDiv_scaled_eq (Nat.pos_of_ne_zero hden) _ hlow hhigh hodd]
  have hlt : d.significand ≠ Nat.pow 2 f.precision := hd.lt.ne
  rw [if_neg hlt, if_neg hd.le_maxExponent.not_gt]

/-- A fraction less than a quarter below the least number of a binade. It has the exponent of the
binade below, where it rounds up. -/
theorem nearest?_of_below (hd : f.Holds d) (hn : numerator ≠ 0) (hden : denominator ≠ 0)
    (hleast : d.significand = 2 ^ (f.precision - 1)) (hnormal : f.minExponent < d.exponent)
    (hprecision : 0 < f.precision)
    (hlow : (d.significand : ℚ) - 1 / 4 ≤ numerator / denominator / 2 ^ d.exponent)
    (hless : (numerator : ℚ) / denominator / 2 ^ d.exponent < d.significand) :
    nearest? f numerator denominator = some d := by
  obtain ⟨p, hp⟩ : ∃ p, f.precision = p + 1 := ⟨f.precision - 1, by omega⟩
  rw [hp, Nat.add_sub_cancel] at hleast
  have hdouble : (numerator : ℚ) / denominator / 2 ^ (d.exponent - 1) =
      2 * (numerator / denominator / 2 ^ d.exponent) := by
    rw [zpow_sub₀ two_ne_zero, zpow_one]
    field_simp
  have hvalue : (d.significand : ℚ) = 2 ^ p := by
    rw [hleast]
    norm_num
  have hone : (1 : ℚ) ≤ 2 ^ p := one_le_pow₀ (by norm_num)
  rw [hvalue] at hlow hless
  have hexponent : exponentFor f numerator denominator = d.exponent - 1 := by
    rw [exponentFor_eq f hn hden]
    have hlog : Int.log 2 ((numerator : ℚ) / denominator) = p + (d.exponent - 1) := by
      apply log_eq_of_scaled
      · rw [hdouble]
        linarith
      · rw [hdouble, pow_succ']
        linarith
    omega
  have hround : roundDiv .even (numerator * Nat.pow 2 (-(d.exponent - 1)).toNat)
      (denominator * Nat.pow 2 (d.exponent - 1).toNat) = 2 ^ f.precision := by
    have htop : ((2 ^ f.precision : ℕ) : ℚ) = 2 * 2 ^ p := by
      rw [hp, pow_succ']
      norm_num
    apply roundDiv_scaled_eq (Nat.pos_of_ne_zero hden)
    · rw [htop, hdouble]
      linarith
    · rw [htop, hdouble]
      linarith
    · intro hodd
      rw [hp, pow_succ'] at hodd
      omega
  rw [nearest?, hexponent, hround]
  have hcarry : (⟨Nat.pow 2 (f.precision - 1), d.exponent - 1 + 1⟩ : Magnitude) = d := by
    rw [hp, Nat.add_sub_cancel, sub_add_cancel]
    cases d
    cases hleast
    rfl
  have hpow : 2 ^ f.precision = Nat.pow 2 f.precision := rfl
  rw [if_pos hpow, hcarry, if_neg hd.le_maxExponent.not_gt]

/-- Whatever lies in the interval around a number of a format rounds to it. -/
theorem nearest?_eq (hd : f.Holds d) (hprecision : 0 < f.precision) (hn : numerator ≠ 0)
    (hden : denominator ≠ 0)
    (h : (ofMagnitude f d).Contains (numerator / denominator)) :
    nearest? f numerator denominator = some d := by
  obtain ⟨hlow, hhigh, hodd⟩ := contains_ofMagnitude_iff.1 h
  rw [cast_high] at hhigh hodd
  have hhigh' : (numerator : ℚ) / denominator / 2 ^ d.exponent ≤ d.significand + 1 / 2 := by
    linarith
  have hodd' : d.significand % 2 = 1 →
      (numerator : ℚ) / denominator / 2 ^ d.exponent ≠ d.significand + 1 / 2 := by
    intro hone heq
    exact (hodd hone).2 (by rw [heq])
  by_cases hleast : d.significand = 2 ^ (f.precision - 1) ∧ f.minExponent < d.exponent
  · rw [cast_low_of_least hd.pos hleast] at hlow
    by_cases hless : (numerator : ℚ) / denominator / 2 ^ d.exponent < d.significand
    · exact nearest?_of_below hd hn hden hleast.1 hleast.2 hprecision (by linarith) hless
    · rw [not_lt] at hless
      apply nearest?_of_binade hd hn hden _ hhigh'
      · intro hone
        exact ⟨by linarith, hodd' hone⟩
      · intro _
        have hvalue : (d.significand : ℚ) = 2 ^ (f.precision - 1) := by exact_mod_cast hleast.1
        rwa [← hvalue]
      · linarith
  · rw [cast_low hd.pos hleast] at hlow hodd
    apply nearest?_of_binade hd hn hden _ hhigh'
    · intro hone
      refine ⟨?_, hodd' hone⟩
      intro heq
      exact (hodd hone).1 (by rw [heq])
    · intro hnormal
      have hmore : 2 ^ (f.precision - 1) + 1 ≤ d.significand := by
        have hle := hd.normal hnormal
        have hne : d.significand ≠ 2 ^ (f.precision - 1) := fun heq => hleast ⟨heq, hnormal⟩
        omega
      have hmoreQ : (2 : ℚ) ^ (f.precision - 1) + 1 ≤ d.significand := by exact_mod_cast hmore
      linarith
    · linarith

end Nearest

end Magnitude

end Ranging

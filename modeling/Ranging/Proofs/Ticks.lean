import Mathlib.Data.Int.ModEq
import Ranging.Time

/-!
# Counter readings as residues

A radio's tick counter has 40 bits, but readings are kept in words of 64 bits, and nothing makes
sure that the upper bits are clear. `Ticks.elapsed` does not look at them: it depends on the two
readings modulo the counter's period only, and it is the number of ticks between them, as long as
less than a period has passed.
-/

namespace Ranging.Ticks

/-- The bits that are kept are the remainder modulo the period. -/
theorem toNat_and_counterMask (x : UInt64) : (x &&& counterMask).toNat = x.toNat % 2 ^ 40 := by
  have hmask : counterMask.toNat = 2 ^ 40 - 1 := by decide
  rw [UInt64.toNat_and, hmask, Nat.and_two_pow_sub_one_eq_mod]

theorem toNat_toUInt64 (t : Ticks) : (t.toUInt64.toNat : Int) = t.toInt % 2 ^ 64 := by
  have hword : t.toUInt64.toNat = t.toBitVec.toNat := rfl
  have hvalue : t.toInt = t.toBitVec.toInt := rfl
  have hlt := t.toBitVec.isLt
  rw [hword, hvalue, BitVec.toInt_eq_toNat_cond]
  split <;> omega

theorem toInt_toInt64_of_lt {x : UInt64} (h : x.toNat < 2 ^ 63) : x.toInt64.toInt = x.toNat := by
  have hvalue : x.toInt64.toInt = x.toBitVec.toInt := rfl
  rw [hvalue, BitVec.toInt_eq_toNat_of_lt]
  · rfl
  · change 2 * x.toNat < 2 ^ 64
    omega

/-- A reading is reduced to its remainder. -/
theorem toInt_wrap (t : Ticks) : (wrap t).toInt = t.toInt % 2 ^ 40 := by
  have hmask := toNat_and_counterMask t.toUInt64
  have hword := toNat_toUInt64 t
  rw [wrap, toInt_toInt64_of_lt (by omega), hmask]
  omega

/-- Ticks between two readings, whatever their upper bits. -/
theorem toInt_elapsed (earlier later : Ticks) :
    (elapsed earlier later).toInt = (later.toInt - earlier.toInt) % 2 ^ 40 := by
  rw [elapsed, toInt_wrap, Int64.toInt_sub]
  have hbmod : (later.toInt - earlier.toInt).bmod (2 ^ 64) % 2 ^ 64 =
      (later.toInt - earlier.toInt) % 2 ^ 64 := Int.bmod_emod ..
  omega

theorem toInt_elapsed_nonneg (earlier later : Ticks) : 0 ≤ (elapsed earlier later).toInt := by
  rw [toInt_elapsed]
  omega

theorem toInt_elapsed_lt (earlier later : Ticks) : (elapsed earlier later).toInt < 2 ^ 40 := by
  rw [toInt_elapsed]
  omega

/-- The number of ticks between two events, read off a counter at both. -/
theorem toInt_elapsed_of_modEq {earlier later : Ticks} {ticks : Int}
    (h : earlier.toInt ≡ later.toInt - ticks [ZMOD 2 ^ 40]) (hnonneg : 0 ≤ ticks)
    (hlt : ticks < 2 ^ 40) : (elapsed earlier later).toInt = ticks := by
  rw [toInt_elapsed]
  have hmod := Int.emod_emod_of_dvd earlier.toInt (dvd_refl (2 ^ 40 : Int))
  rw [Int.ModEq] at h
  omega

/-- A shift of both readings does not show. -/
theorem elapsed_congr {earlier later earlier' later' : Ticks} {shift : Int}
    (h : earlier'.toInt ≡ earlier.toInt + shift [ZMOD 2 ^ 40])
    (h' : later'.toInt ≡ later.toInt + shift [ZMOD 2 ^ 40]) :
    elapsed earlier' later' = elapsed earlier later := by
  apply Int64.toInt_inj.1
  rw [toInt_elapsed, toInt_elapsed]
  have hdiff := h'.sub h
  rwa [add_sub_add_right_eq_sub] at hdiff

/-- The clock filter forms its differences in unsigned words, which comes to the same. -/
theorem sub_and_counterMask (earlier later : Ticks) :
    (later.toUInt64 - earlier.toUInt64) &&& counterMask = (elapsed earlier later).toUInt64 := by
  rfl

end Ranging.Ticks

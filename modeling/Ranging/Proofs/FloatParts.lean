import Ranging.Proofs.Binary64
import Ranging.Proofs.Rounding

/-!
# The parts of a binary64 number

A finite binary64 number is taken apart into a sign and a magnitude of the format, and put together
again without loss.
-/

namespace Ranging

open Float.Model

/-- A number is finite if the field of its exponent is not the one kept for special values. -/
theorem isFinite_iff (x : Float) :
    x.isFinite = true ↔ x.toBits.toNat / 2 ^ 52 % 2048 ≠ 2047 := by
  let b : BitVec Format.binary64.numBits := x.toBits.toBitVec
  have hfield : (UnpackedFloat.unpackExponent b).toNat = x.toBits.toNat / 2 ^ 52 % 2048 := by
    change x.toBits.toNat >>> 52 % 2 ^ 11 = _
    rw [Nat.shiftRight_eq_div_pow]
  have hspecial : UnpackedFloat.unpackExponent b = -1#11 ↔
      x.toBits.toNat / 2 ^ 52 % 2048 = 2047 := by
    rw [← hfield]
    exact BitVec.toNat_inj.symm
  change (UnpackedFloat.unpack Format.binary64 b).isFinite = true ↔ _
  rw [ne_eq, ← hspecial, UnpackedFloat.unpack]
  dsimp only
  split
  · rename_i hones
    split
    · exact iff_of_false nofun (not_not.2 hones)
    · exact iff_of_false nofun (not_not.2 hones)
  · rename_i hones
    split
    · split
      · exact iff_of_true rfl hones
      · exact iff_of_true rfl hones
    · exact iff_of_true rfl hones

/-- A number between two finite ones is finite. -/
theorem isFinite_of_le_of_lt {x y z : Float} (hle : y ≤ x) (hlt : x < z) (hy : y.isFinite = true)
    (hz : z.isFinite = true) : x.isFinite = true := by
  rw [Binary64.le_iff] at hle
  rw [Binary64.lt_iff] at hlt
  change y.toModel.unpack.isFinite = true at hy
  change z.toModel.unpack.isFinite = true at hz
  change x.toModel.unpack.isFinite = true
  generalize x.toModel.unpack = x at *
  generalize y.toModel.unpack = y at *
  generalize z.toModel.unpack = z at *
  cases x with
  | notANumber => cases z <;> cases hlt
  | infinity sign =>
      cases sign with
      | positive => cases z <;> first | cases hlt | cases hz
      | negative => cases y <;> first | cases hle | cases hy
  | zero sign => rfl
  | finite sign m e hm => rfl

/-- A number strictly between any two is finite. -/
theorem isFinite_of_lt_of_lt {x y z : Float} (hlow : y < x) (hhigh : x < z) :
    x.isFinite = true := by
  rw [Binary64.lt_iff] at hlow hhigh
  change x.toModel.unpack.isFinite = true
  generalize x.toModel.unpack = x at *
  generalize y.toModel.unpack = y at *
  generalize z.toModel.unpack = z at *
  cases x with
  | notANumber => cases z <;> cases hhigh
  | infinity sign =>
      cases sign with
      | positive =>
          cases z with
          | infinity sign => cases sign <;> cases hhigh
          | _ => cases hhigh
      | negative =>
          cases y with
          | infinity sign => cases sign <;> cases hlow
          | _ => cases hlow
  | zero sign => rfl
  | finite sign m e hm => rfl

namespace Magnitude

/-- The fields of a number below the least normal one. -/
theorem toBits_of_lt {m : Magnitude} (h : m.significand < 2 ^ 52) :
    m.toBits .binary64 = m.significand :=
  if_pos h

/-- The fields of a normal number. -/
theorem toBits_normal (fraction : ℕ) {field : ℕ} (h : field ≠ 0) :
    toBits .binary64 ⟨2 ^ 52 + fraction, -1074 + (field - 1 : ℕ)⟩ = field * 2 ^ 52 + fraction := by
  have hnot : ¬ 2 ^ 52 + fraction < Nat.pow 2 (BinaryFormat.binary64.precision - 1) :=
    Nat.not_lt.2 (Nat.le_add_right ..)
  have hexponent : (-1074 + (field - 1 : ℕ) - BinaryFormat.binary64.minExponent : ℤ).toNat =
      field - 1 := by
    change (-1074 + (field - 1 : ℕ) - (-1074) : ℤ).toNat = field - 1
    omega
  rw [toBits, if_neg hnot, hexponent]
  change (field - 1) * 2 ^ 52 + (2 ^ 52 + fraction) = field * 2 ^ 52 + fraction
  omega

/-- A number below the least normal one, other than zero. -/
theorem holds_subnormal {fraction : ℕ} (hne : fraction ≠ 0) (hlt : fraction < 2 ^ 52) :
    BinaryFormat.binary64.Holds ⟨fraction, -1074⟩ where
  pos := Nat.pos_of_ne_zero hne
  lt := Nat.lt_trans hlt (by decide)
  minExponent_le := Int.le_refl _
  le_maxExponent := (by decide : (-1074 : ℤ) ≤ 971)
  normal hless := absurd hless (Int.lt_irrefl _)

/-- A normal number. -/
theorem holds_normal {fraction field : ℕ} (hlt : fraction < 2 ^ 52) (hfield : field < 2047) :
    BinaryFormat.binary64.Holds ⟨2 ^ 52 + fraction, -1074 + (field - 1 : ℕ)⟩ where
  pos := Nat.add_pos_left (by decide) _
  lt := by
    change 2 ^ 52 + fraction < 2 ^ 53
    omega
  minExponent_le := by
    change (-1074 : ℤ) ≤ -1074 + (field - 1 : ℕ)
    omega
  le_maxExponent := by
    change (-1074 + (field - 1 : ℕ) : ℤ) ≤ 971
    omega
  normal _ := Nat.le_add_right ..

/-- The fields of a word, put together again, are the word. -/
theorem toFloat_eq {x : Float} {m : Magnitude} (hm : m.toBits .binary64 = x.toBits.toNat % 2 ^ 63) :
    m.toFloat (decide (x.toBits.toNat / 2 ^ 52 / 2048 % 2 = 1)) = x := by
  have hback : Float.ofBits x.toBits = x := Binary64.ofModel_pack_unpack x
  have hbits : x.toBits.toNat < 2 ^ 64 := x.toBits.toNat_lt
  have hword : ((if decide (x.toBits.toNat / 2 ^ 52 / 2048 % 2 = 1) = true then Nat.pow 2 63 else 0) +
      x.toBits.toNat % 2 ^ 63) = x.toBits.toNat := by
    simp only [decide_eq_true_eq, Nat.pow_eq]
    split <;> omega
  rw [toFloat, hm, hword, Nat.toUInt64_eq, UInt64.ofNat_toNat, hback]

end Magnitude

namespace Binary

theorem ofFloat_eq (x : Float) : ofFloat x =
    let n := x.toBits.toNat;
    let negative : Bool := n / 2 ^ 52 / 2048 % 2 = 1;
    if n / 2 ^ 52 % 2048 = 2047 then
      if n % 2 ^ 52 = 0 then .infinite negative else .nan
    else if n / 2 ^ 52 % 2048 = 0 then .finite negative ⟨n % 2 ^ 52, -1074⟩
    else .finite negative ⟨2 ^ 52 + n % 2 ^ 52, -1074 + (n / 2 ^ 52 % 2048 - 1 : ℕ)⟩ := rfl

/-- A finite number has a sign and a magnitude that the format holds, unless it is zero, and these
give the number back. -/
theorem exists_ofFloat_eq {x : Float} (hx : x.isFinite = true) : ∃ negative m,
    ofFloat x = .finite negative m ∧ (m.significand ≠ 0 → BinaryFormat.binary64.Holds m) ∧
      m.toFloat negative = x := by
  rw [isFinite_iff] at hx
  have hfraction : x.toBits.toNat % 2 ^ 52 < 2 ^ 52 := Nat.mod_lt _ (by decide)
  have hfield : x.toBits.toNat / 2 ^ 52 % 2048 < 2048 := Nat.mod_lt _ (by decide)
  rw [ofFloat_eq]
  dsimp only
  rw [if_neg hx]
  split
  · refine ⟨_, _, rfl, fun hne => Magnitude.holds_subnormal hne hfraction, ?_⟩
    apply Magnitude.toFloat_eq
    rw [Magnitude.toBits_of_lt hfraction]
    change x.toBits.toNat % 2 ^ 52 = x.toBits.toNat % 2 ^ 63
    omega
  · rename_i hne
    refine ⟨_, _, rfl, fun _ => Magnitude.holds_normal hfraction (by omega), ?_⟩
    apply Magnitude.toFloat_eq
    rw [Magnitude.toBits_normal _ hne]
    omega

/-- What is not finite has no digits. -/
theorem ofFloat_of_not_isFinite {x : Float} (hx : ¬ x.isFinite = true) :
    ofFloat x = .nan ∨ ∃ negative, ofFloat x = .infinite negative := by
  rw [isFinite_iff, not_not] at hx
  rw [ofFloat_eq]
  dsimp only
  rw [if_pos hx]
  split
  · exact Or.inr ⟨_, rfl⟩
  · exact Or.inl rfl

end Binary

end Ranging

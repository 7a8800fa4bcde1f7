import Mathlib

/-!
# Signs and sizes in binary64

`Float` operations unpack their arguments to a sign, a mantissa and an exponent, compute exactly,
round, and pack the result into a word. This module collects what the clock filter's results need
of that: the sign of a result survives rounding and packing even if nothing else does, and a number
of normal size keeps 53 bits.

From this follow the facts about `Nonneg` and `Positive` numbers. They are the ones that hold
without an error bound: a product, a quotient or a sum of numbers that are not negative is not
negative either, however much it has been rounded.
-/

open Float.Model Float.Model.UnpackedFloat

namespace Ranging.Binary64

/-- A value with sign `s`: a zero, a finite number or an infinity, but not NaN. -/
def HasSign (s : Sign) : UnpackedFloat → Prop
  | .notANumber => False
  | .infinity t => t = s
  | .zero t => t = s
  | .finite t _ _ _ => t = s

/-! ## Packing -/

theorem hasSign_unpack {f : Format} {b : BitVec f.numBits}
    (h : unpackExponent b = -1#_ → unpackMantissa b = 0#_) :
    HasSign (Sign.ofBitVec (unpackSign b)) (unpack f b) := by
  unfold UnpackedFloat.unpack
  dsimp only
  split
  · rename_i hexponent
    rw [if_pos (h hexponent)]
    rfl
  · split
    · split <;> rfl
    · rfl

/-- Packing keeps the sign, whether or not the exponent fits. -/
theorem hasSign_unpack_pack {s : Sign} {x : UnpackedFloat} (h : HasSign s x) :
    HasSign s (unpack Format.binary64 (pack Format.binary64 x)) := by
  have hpacked : ∀ e m, (e = -1#_ → m = 0#_) →
      HasSign s (unpack Format.binary64 (packComponents Format.binary64 s e m)) := by
    intro e m hnan
    have hsign := hasSign_unpack (b := packComponents Format.binary64 s e m) (by simpa using hnan)
    simpa using hsign
  cases x with
  | notANumber => exact h.elim
  | infinity t =>
      obtain rfl : t = s := h
      exact hpacked _ _ fun _ => rfl
  | zero t =>
      obtain rfl : t = s := h
      exact hpacked _ _ fun _ => rfl
  | finite t m e hm =>
      obtain rfl : t = s := h
      rw [UnpackedFloat.pack]
      dsimp only
      split
      · exact hpacked _ _ fun _ => rfl
      · rename_i hfits
        split
        · refine hpacked _ _ ?_
          intro hones
          exfalso
          have hvalue := congrArg BitVec.toNat hones
          simp at hvalue
          omega
        · refine hpacked _ _ ?_
          intro hones
          exact absurd hones (by decide)

/-! ## The parts of a word -/

theorem toNat_implicit (mantissa : BitVec 52) :
    (1#1 ++ mantissa).toNat = 2 ^ 52 + mantissa.toNat := by
  rw [BitVec.toNat_append, ← Nat.shiftLeft_add_eq_or_of_lt mantissa.isLt]
  rfl

theorem log2_eq_52 {m : Nat} (hle : 2 ^ 52 ≤ m) (hlt : m < 2 ^ 53) : m.log2 = 52 :=
  (Nat.log2_eq_iff (by omega)).2 ⟨hle, hlt⟩

section Words

variable {s : Sign} {x : BitVec 11} {m : BitVec 52}

theorem toNat_ne_zero (h : x ≠ 0#11) : x.toNat ≠ 0 := by
  intro hzero
  exact h (BitVec.eq_of_toNat_eq hzero)

theorem toNat_ne_ones (h : x ≠ -1#11) : x.toNat ≠ 2047 := by
  intro hones
  exact h (BitVec.eq_of_toNat_eq hones)

theorem unpack_normal (hzero : x ≠ 0#11) (hones : x ≠ -1#11) :
    ∃ h, unpack Format.binary64 (packComponents Format.binary64 s x m) =
      .finite s (2 ^ 52 + m.toNat) (x.toNat - 1075) h := by
  refine ⟨by omega, ?_⟩
  rw [UnpackedFloat.unpack]
  simp only [unpackMantissa_packComponents, unpackExponent_packComponents,
    unpackSign_packComponents, Sign.ofBitVec_toBitVec]
  rw [if_neg hones, if_neg hzero]
  simp only [toNat_implicit]
  rfl

theorem pack_normal (hzero : x ≠ 0#11) (hones : x ≠ -1#11)
    (h : 0 < 2 ^ 52 + m.toNat) :
    pack Format.binary64 (.finite s (2 ^ 52 + m.toNat) (x.toNat - 1075) h) =
      packComponents Format.binary64 s x m := by
  have hexponent := x.isLt
  have hmantissa := m.isLt
  have hpos := toNat_ne_zero hzero
  have hmax := toNat_ne_ones hones
  have hlog : (2 ^ 52 + m.toNat).log2 + 1 = 53 := by
    rw [log2_eq_52 (by omega) (by omega)]
  have hbiased : ((x.toNat : Int) - 1075 + 1023 + 52).toNat = x.toNat := by omega
  rw [UnpackedFloat.pack]
  change (if 2 ^ 11 ≤ ((x.toNat : Int) - 1075 + 1023 + 52).toNat + 1 then _ else
    if (2 ^ 52 + m.toNat).log2 + 1 = 53 then packComponents Format.binary64 s
      (BitVec.ofNat 11 ((x.toNat : Int) - 1075 + 1023 + 52).toNat)
      (BitVec.ofNat 52 (2 ^ 52 + m.toNat)) else _) = _
  rw [hbiased, if_neg (by omega), if_pos hlog]
  have hexponent' : BitVec.ofNat 11 x.toNat = x := by simp
  have hmantissa' : BitVec.ofNat 52 (2 ^ 52 + m.toNat) = m := by
    apply BitVec.eq_of_toNat_eq
    rw [BitVec.toNat_ofNat]
    omega
  rw [hexponent', hmantissa']

end Words

/-- A rounded number of normal size is read back as it is, or as an infinity if its exponent does
not fit. -/
theorem unpack_pack_normal {s : Sign} {m : Nat} {e : Int} {h : 0 < m} (hle : 2 ^ 52 ≤ m)
    (hlt : m < 2 ^ 53) (he : -1074 ≤ e) :
    unpack Format.binary64 (pack Format.binary64 (.finite s m e h)) =
      if e ≤ 971 then .finite s m e h else .infinity s := by
  split
  · rename_i hfits
    have hexponent : (BitVec.ofNat 11 (e + 1075).toNat).toNat = (e + 1075).toNat := by
      rw [BitVec.toNat_ofNat]
      omega
    have hmantissa : (BitVec.ofNat 52 (m - 2 ^ 52)).toNat = m - 2 ^ 52 := by
      rw [BitVec.toNat_ofNat]
      omega
    have hzero : BitVec.ofNat 11 (e + 1075).toNat ≠ 0#11 := by
      intro hzero
      have hvalue := congrArg BitVec.toNat hzero
      rw [hexponent] at hvalue
      change _ = 0 at hvalue
      omega
    have hones : BitVec.ofNat 11 (e + 1075).toNat ≠ -1#11 := by
      intro hones
      have hvalue := congrArg BitVec.toNat hones
      rw [hexponent] at hvalue
      change _ = 2047 at hvalue
      omega
    obtain ⟨hpos, hunpack⟩ := unpack_normal (s := s) (m := BitVec.ofNat 52 (m - 2 ^ 52))
      hzero hones
    have hpack := pack_normal (s := s) hzero hones hpos
    have hm : 2 ^ 52 + (m - 2 ^ 52) = m := by omega
    have he' : (((e + 1075).toNat : Nat) : Int) - 1075 = e := by omega
    simp only [hmantissa, hexponent, hm, he'] at hpack hunpack
    rw [hpack]
    exact hunpack
  · rename_i hlarge
    have hinfinity : pack Format.binary64 (.finite s m e h) = packedInfinity Format.binary64 s := by
      rw [UnpackedFloat.pack]
      change (if 2 ^ 11 ≤ (e + 1023 + 52).toNat + 1 then _ else _) = _
      rw [if_pos (by omega)]
    rw [hinfinity]
    cases s <;> rfl

/-! ## Rounding -/

theorem mantissa_shiftRight (x : ExtendedMantissa) (n : Nat) :
    (x >>> n).mantissa = x.mantissa / 2 ^ n := by
  change (n.repeat ExtendedMantissa.shiftRightOne x).mantissa = _
  induction n with
  | zero => simp [Nat.repeat]
  | succ n ih =>
      rw [Nat.repeat, ExtendedMantissa.shiftRightOne, ih, Nat.div_div_eq_div_mul, ← Nat.pow_succ]

theorem mantissa_ofMantissaAndAccuracy (m : Nat) (accuracy : Accuracy) :
    (ExtendedMantissa.ofMantissaAndAccuracy m accuracy).mantissa = m := by
  cases accuracy with
  | exact => rfl
  | inexact ordering => cases ordering <;> rfl

theorem roundedMantissa_bounds (x : ExtendedMantissa) :
    x.mantissa ≤ x.roundedMantissa ∧ x.roundedMantissa ≤ x.mantissa + 1 := by
  simp only [ExtendedMantissa.roundedMantissa, Accuracy.roundToNearestEven]
  split <;> omega

theorem targetExponent_eq (e : Int) : Format.binary64.targetExponent e = max (e - 53) (-1074) := rfl

/-- A mantissa of at least 53 bits is shifted to exactly 53 bits, as long as the number is not
below the normal range. -/
theorem shiftToTargetExponent_normal {m : Nat} {e : Int} (accuracy : Accuracy) (hle : 2 ^ 52 ≤ m)
    (hnormal : -1022 ≤ m.log2 + e) :
    (shiftToTargetExponent Format.binary64 m e accuracy).2 = m.log2 + e - 52 ∧
      (shiftToTargetExponent Format.binary64 m e accuracy).1.mantissa = m / 2 ^ (m.log2 - 52) := by
  have hne : m ≠ 0 := by omega
  have hlog := (Nat.le_log2 hne).2 hle
  have htarget : Format.binary64.targetExponent (totalExponent m e) = m.log2 + e - 52 := by
    rw [targetExponent_eq, totalExponent]
    omega
  have hshift : ((m.log2 : Int) + e - 52 - e).toNat = m.log2 - 52 := by omega
  rw [shiftToTargetExponent, shiftToExponent]
  simp only [htarget, hshift, mantissa_shiftRight, mantissa_ofMantissaAndAccuracy, and_true]
  omega

theorem div_pow_log2_bounds {m : Nat} (hle : 2 ^ 52 ≤ m) :
    2 ^ 52 ≤ m / 2 ^ (m.log2 - 52) ∧ m / 2 ^ (m.log2 - 52) < 2 ^ 53 := by
  have hne : m ≠ 0 := by omega
  have hlog := (Nat.le_log2 hne).2 hle
  have hlower := Nat.log2_self_le hne
  have hupper := Nat.lt_log2_self (n := m)
  have hpos : 0 < 2 ^ (m.log2 - 52) := Nat.two_pow_pos _
  constructor
  · rw [Nat.le_div_iff_mul_le hpos, ← Nat.pow_add]
    have hsum : 52 + (m.log2 - 52) = m.log2 := by omega
    rwa [hsum]
  · rw [Nat.div_lt_iff_lt_mul hpos, ← Nat.pow_add]
    have hsum : 53 + (m.log2 - 52) = m.log2 + 1 := by omega
    rwa [hsum]

/-- Rounding a number of normal size gives 53 bits and an exponent that is off by one at most. -/
theorem roundWithAccuracy_normal {s : Sign} {m : Nat} {e : Int} (accuracy : Accuracy)
    (hle : 2 ^ 52 ≤ m) (hnormal : -1022 ≤ m.log2 + e) :
    ∃ m' e' h, roundWithAccuracy Format.binary64 s m e accuracy = .finite s m' e' h ∧
      2 ^ 52 ≤ m' ∧ m' < 2 ^ 53 ∧ m.log2 + e - 52 ≤ e' ∧ e' ≤ m.log2 + e - 51 := by
  obtain ⟨hexponent, hmantissa⟩ := shiftToTargetExponent_normal accuracy hle hnormal
  obtain ⟨hlower, hupper⟩ := div_pow_log2_bounds hle
  obtain ⟨hround, hround'⟩ := roundedMantissa_bounds
    (shiftToTargetExponent Format.binary64 m e accuracy).1
  rw [hmantissa] at hround hround'
  rw [roundWithAccuracy]
  generalize shiftToTargetExponent Format.binary64 m e accuracy = first at *
  obtain ⟨x, e₁⟩ := first
  dsimp only at hexponent hround hround' ⊢
  have hne : x.roundedMantissa ≠ 0 := by omega
  have hlog : 52 ≤ x.roundedMantissa.log2 := (Nat.le_log2 hne).2 (by omega)
  have hlog' : x.roundedMantissa.log2 < 54 := (Nat.log2_lt hne).2 (by omega)
  obtain ⟨hexponent', hmantissa'⟩ := shiftToTargetExponent_normal (e := e₁) .exact
    (by omega : 2 ^ 52 ≤ x.roundedMantissa) (by omega)
  obtain ⟨hlower', hupper'⟩ := div_pow_log2_bounds (by omega : 2 ^ 52 ≤ x.roundedMantissa)
  rw [dif_neg (by omega)]
  exact ⟨_, _, _, rfl, by omega, by omega, by omega, by omega⟩


/-- Rounding keeps the sign, even if nothing else is left. -/
theorem hasSign_roundWithAccuracy (s : Sign) (m : Nat) (e : Int) (accuracy : Accuracy) :
    HasSign s (roundWithAccuracy Format.binary64 s m e accuracy) := by
  rw [roundWithAccuracy]
  dsimp only
  split <;> rfl

theorem log2_shiftLeft {m : Nat} (hm : m ≠ 0) (n : Nat) : (m <<< n).log2 = m.log2 + n := by
  have hpos := Nat.two_pow_pos n
  rw [Nat.shiftLeft_eq, Nat.log2_eq_iff (Nat.mul_ne_zero hm (Nat.ne_of_gt hpos))]
  constructor
  · rw [Nat.pow_add]
    exact Nat.mul_le_mul_right _ (Nat.log2_self_le hm)
  · rw [Nat.add_right_comm, Nat.pow_add]
    exact Nat.mul_lt_mul_of_pos_right Nat.lt_log2_self hpos

/-- As `roundWithAccuracy_normal`, for a number given exactly. -/
theorem round_normal {s : Sign} {m : Nat} {e : Int} (hm : m ≠ 0)
    (hnormal : -1022 ≤ m.log2 + e) :
    ∃ m' e' h, UnpackedFloat.round Format.binary64 s m e = .finite s m' e' h ∧
      2 ^ 52 ≤ m' ∧ m' < 2 ^ 53 ∧ m.log2 + e - 52 ≤ e' ∧ e' ≤ m.log2 + e - 51 := by
  have htarget : Format.binary64.targetExponent (totalExponent m e) = m.log2 + e - 52 := by
    rw [targetExponent_eq, totalExponent]
    omega
  have hshift : (e - (m.log2 + e - 52)).toNat = 52 - m.log2 := by omega
  have hlog := log2_shiftLeft hm (52 - m.log2)
  have hne : m <<< (52 - m.log2) ≠ 0 := by
    intro hzero
    rw [hzero, Nat.log2_zero] at hlog
    omega
  have hle : 2 ^ 52 ≤ m <<< (52 - m.log2) := (Nat.le_log2 hne).1 (by omega)
  obtain ⟨m', e', h, hround, hlower, hupper, he, he'⟩ := roundWithAccuracy_normal (s := s)
    (e := e - (52 - m.log2 : Nat)) .exact hle (by omega)
  refine ⟨m', e', h, ?_, hlower, hupper, by omega, by omega⟩
  rw [UnpackedFloat.round, decreaseExponent]
  simp only [htarget, hshift, hround]

/-! ## Numbers that are not negative -/

/-- Not negative, and not NaN. The zero has a positive sign. -/
def Nonneg (x : Float) : Prop :=
  HasSign .positive x.toModel.unpack

/-- A number above zero, and not an infinity. -/
def Positive (x : Float) : Prop :=
  ∃ m e h, x.toModel.unpack = .finite .positive m e h

theorem nonneg_ofModel_pack {x : UnpackedFloat} (h : HasSign .positive x) :
    Nonneg (.ofModel (.pack x)) :=
  hasSign_unpack_pack h

theorem Positive.nonneg {x : Float} (h : Positive x) : Nonneg x := by
  obtain ⟨m, e, hm, hx⟩ := h
  rw [Nonneg, hx]
  rfl

theorem nonneg_zero : Nonneg 0.0 := rfl

theorem ofModel_pack_unpack (x : Float) : Float.ofModel (.pack x.toModel.unpack) = x := by
  obtain ⟨⟨bits, hvalid⟩⟩ := x
  simp only [Float.Model.pack, Float.Model.unpack, pack_unpack_of_valid hvalid]

theorem positive_ofModel_pack {m : Nat} {e : Int} {h : 0 < m} (hle : 2 ^ 52 ≤ m)
    (hlt : m < 2 ^ 53) (he : -1074 ≤ e) (he' : e ≤ 971) :
    (Float.ofModel (.pack (.finite .positive m e h))).toModel.unpack = .finite .positive m e h := by
  have hunpack := unpack_pack_normal (s := .positive) (h := h) hle hlt he
  rw [if_pos he'] at hunpack
  exact hunpack

theorem Nonneg.cases {x : Float} (h : Nonneg x) :
    x.toModel.unpack = .zero .positive ∨ x.toModel.unpack = .infinity .positive ∨ Positive x := by
  rw [Nonneg] at h
  cases hx : x.toModel.unpack with
  | notANumber =>
      rw [hx] at h
      exact h.elim
  | infinity s =>
      rw [hx] at h
      obtain rfl : s = .positive := h
      exact Or.inr (Or.inl rfl)
  | zero s =>
      rw [hx] at h
      obtain rfl : s = .positive := h
      exact Or.inl rfl
  | finite s m e hm =>
      rw [hx] at h
      obtain rfl : s = .positive := h
      exact Or.inr (Or.inr ⟨m, e, hm, hx⟩)

theorem Nonneg.mul {x y : Float} (hx : Nonneg x) (hy : Positive y) : Nonneg (x * y) := by
  obtain ⟨m, e, hm, hy⟩ := hy
  refine nonneg_ofModel_pack ?_
  rw [hy]
  obtain hx | hx | ⟨m', e', hm', hx⟩ := hx.cases
  · rw [hx]
    rfl
  · rw [hx]
    rfl
  · rw [hx]
    exact hasSign_roundWithAccuracy ..

theorem Nonneg.div {x y : Float} (hx : Nonneg x) (hy : Positive y) : Nonneg (x / y) := by
  obtain ⟨m, e, hm, hy⟩ := hy
  refine nonneg_ofModel_pack ?_
  rw [hy]
  obtain hx | hx | ⟨m', e', hm', hx⟩ := hx.cases
  · rw [hx]
    rfl
  · rw [hx]
    rfl
  · rw [hx]
    exact hasSign_roundWithAccuracy ..

theorem hasSign_normalize_of_pos {m : Int} (e : Int) (zeroSign : Sign) (hm : 0 < m) :
    HasSign .positive (UnpackedFloat.normalize Format.binary64 m e zeroSign) := by
  have hcompare : compare m 0 = .gt := Int.compare_eq_gt.2 hm
  rw [UnpackedFloat.normalize, hcompare]
  exact hasSign_roundWithAccuracy ..

theorem Nonneg.add {x y : Float} (hx : Nonneg x) (hy : Nonneg y) : Nonneg (x + y) := by
  refine nonneg_ofModel_pack ?_
  obtain hx | hx | ⟨m, e, hm, hx⟩ := hx.cases <;>
    obtain hy | hy | ⟨m', e', hm', hy⟩ := hy.cases <;>
    rw [hx, hy] <;> try rfl
  have hpos : 0 < m <<< (e - min e e').toNat := by
    rw [Nat.shiftLeft_eq]
    exact Nat.mul_pos hm (Nat.two_pow_pos _)
  refine hasSign_normalize_of_pos _ _ ?_
  change (0 : Int) < (m <<< (e - min e e').toNat : Nat) + (m' <<< (e' - min e e').toNat : Nat)
  exact_mod_cast Nat.add_pos_left hpos (m' <<< (e' - min e e').toNat)

/-! ## Whole numbers -/

/-- A counter of a machine word is converted by one rounding. -/
theorem toUInt64_toFloat_eq {n : Nat} (hpos : n ≠ 0) (hlt : n < 2 ^ 64) :
    n.toUInt64.toFloat =
      .ofModel (.pack (UnpackedFloat.round Format.binary64 .positive n 0)) := by
  have hvalue : n.toUInt64.toNat = n := by
    simp
    omega
  have hcompare : compare (n : Int) 0 = .gt := Int.compare_eq_gt.2 (by omega)
  unfold UInt64.toFloat Float.Model.ofUInt64 UnpackedFloat.ofUInt64 UnpackedFloat.ofNat
    UnpackedFloat.ofInt UnpackedFloat.normalize
  rw [hvalue, hcompare]
  simp only [Int.toNat_natCast]

theorem toUInt64_toFloat_unpack {n : Nat} (hpos : n ≠ 0) (hlt : n < 2 ^ 53) :
    ∃ m e h, n.toUInt64.toFloat.toModel.unpack = .finite .positive m e h ∧
      2 ^ 52 ≤ m ∧ m < 2 ^ 53 ∧ -52 ≤ e ∧ e ≤ 1 := by
  have hlog := (Nat.log2_lt hpos).2 hlt
  obtain ⟨m, e, h, hround, hle, hlt', he, he'⟩ := round_normal (s := .positive) (e := 0) hpos
    (by omega)
  refine ⟨m, e, h, ?_, hle, hlt', by omega, by omega⟩
  rw [toUInt64_toFloat_eq hpos (by omega), hround,
    positive_ofModel_pack hle hlt' (by omega) (by omega)]

theorem ofNat_eq {n : Nat} (hlt : n < 2 ^ 53) : Float.ofNat n = n.toUInt64.toFloat * 1.0 := by
  rw [Float.ofNat]
  change Float.ofScientific n false 0 = _
  rw [Float.ofScientific, dif_pos ⟨hlt, by decide⟩]
  simp only [Bool.false_eq_true, if_false]
  congr 1

theorem unpack_one : (1.0 : Float).toModel.unpack = .finite .positive (2 ^ 52) (-52) (by decide) :=
  rfl

/-- Whole numbers below the limit of exactness, other than zero, are positive. -/
theorem positive_ofNat {n : Nat} (hpos : n ≠ 0) (hlt : n < 2 ^ 53) : Positive (Float.ofNat n) := by
  obtain ⟨m, e, h, hunpack, hle, hlt', he, he'⟩ := toUInt64_toFloat_unpack hpos hlt
  have hlog : (m * 2 ^ 52).log2 = 104 := by
    rw [← Nat.shiftLeft_eq, log2_shiftLeft (by omega), log2_eq_52 hle hlt']
  have hmul : 2 ^ 52 ≤ m * 2 ^ 52 := by omega
  obtain ⟨m', e', h', hround, hle', hlt'', hlower, hupper⟩ :=
    roundWithAccuracy_normal (s := .positive) (e := e + -52) .exact hmul (by omega)
  have hproduct : Float.ofNat n = .ofModel (.pack (.finite .positive m' e' h')) := by
    rw [ofNat_eq hlt, ← hround]
    change Float.ofModel (.pack (UnpackedFloat.mul _ n.toUInt64.toFloat.toModel.unpack
      (1.0 : Float).toModel.unpack)) = _
    rw [hunpack, unpack_one]
    rfl
  exact ⟨m', e', h', by rw [hproduct, positive_ofModel_pack hle' hlt'' (by omega) (by omega)]⟩

theorem nonneg_ofNat {n : Nat} (hlt : n < 2 ^ 53) : Nonneg (Float.ofNat n) := by
  by_cases hzero : n = 0
  · subst hzero
    exact nonneg_zero
  · exact (positive_ofNat hzero hlt).nonneg

/-! ## Order -/

theorem lt_iff {x y : Float} :
    x < y ↔ x.toModel.unpack.compare y.toModel.unpack = some .lt := by
  have hlt : x < y ↔ decide (x.toModel < y.toModel) = true := Iff.rfl
  have hmodel : x.toModel < y.toModel ↔
      (x.toModel.unpack.compare y.toModel.unpack == some .lt) = true := Iff.rfl
  rw [hlt, decide_eq_true_iff, hmodel, beq_iff_eq]

theorem le_iff {x y : Float} :
    x ≤ y ↔ (x.toModel.unpack.compare y.toModel.unpack).any (·.isLE) = true := by
  have hle : x ≤ y ↔ decide (x.toModel ≤ y.toModel) = true := Iff.rfl
  have hmodel : x.toModel ≤ y.toModel ↔
      (x.toModel.unpack.compare y.toModel.unpack).any (·.isLE) = true := Iff.rfl
  rw [hle, decide_eq_true_iff, hmodel]

theorem unpack_zero : (0.0 : Float).toModel.unpack = .zero .positive := rfl

theorem Nonneg.zero_le {x : Float} (h : Nonneg x) : 0.0 ≤ x := by
  rw [le_iff, unpack_zero]
  obtain hx | hx | ⟨m, e, hm, hx⟩ := h.cases <;> rw [hx] <;> rfl

/-- There is no other zero among the numbers that are not negative. -/
theorem Nonneg.eq_zero_of_not_lt {x : Float} (h : Nonneg x) (hx : ¬ 0.0 < x) : x = 0.0 := by
  rw [lt_iff, unpack_zero] at hx
  obtain hzero | hinfinity | ⟨m, e, hm, hfinite⟩ := h.cases
  · rw [← ofModel_pack_unpack x, hzero]
    rfl
  · rw [hinfinity] at hx
    exact absurd rfl hx
  · rw [hfinite] at hx
    exact absurd rfl hx

theorem Nonneg.sub_zero {x : Float} (h : Nonneg x) : x - 0.0 = x := by
  have hsub : x - 0.0 = .ofModel (.pack
      (UnpackedFloat.sub Format.binary64 x.toModel.unpack (0.0 : Float).toModel.unpack)) := rfl
  rw [hsub, unpack_zero]
  conv_rhs => rw [← ofModel_pack_unpack x]
  obtain hx | hx | ⟨m, e, hm, hx⟩ := h.cases <;> rw [hx] <;> rfl

/-- A number with a negative sign that is not a zero lies below. -/
theorem Nonneg.neg_lt {x y : Float} (h : Nonneg x) {m : Nat} {e : Int} {hm : 0 < m}
    (hy : y.toModel.unpack = .finite .negative m e hm) : y < x := by
  rw [lt_iff, hy]
  obtain hx | hx | ⟨m', e', hm', hx⟩ := h.cases <;> rw [hx] <;> rfl

theorem unpack_neg_one :
    (-1.0 : Float).toModel.unpack = .finite .negative (2 ^ 52) (-52) (by decide) := rfl

/-- A positive number subtracted from a negative one: the magnitudes add up on the scale of the
smaller exponent. -/
theorem sub_neg_pos {m m' : Nat} {e e' : Int} {h : 0 < m} {h' : 0 < m'} :
    UnpackedFloat.sub Format.binary64 (.finite .negative m e h) (.finite .positive m' e' h') =
      UnpackedFloat.round Format.binary64 .negative
        (m <<< (e - min e e').toNat + m' <<< (e' - min e e').toNat) (min e e') := by
  simp only [UnpackedFloat.sub, decreaseExponent, Sign.apply]
  generalize hscaled : m <<< (e - min e e').toNat = a
  generalize m' <<< (e' - min e e').toNat = b
  have ha : 0 < a := by
    rw [← hscaled, Nat.shiftLeft_eq]
    exact Nat.mul_pos h (Nat.two_pow_pos _)
  have hcompare : compare (-(a : Int) - b) 0 = .lt := Int.compare_eq_lt.2 (by omega)
  have hmagnitude : (-(-(a : Int) - b)).toNat = a + b := by omega
  rw [UnpackedFloat.normalize, hcompare]
  simp only [hmagnitude]

/-- Less than minus one by something that is not negative: an infinity, or a number with at least
the exponent of one. -/
theorem Nonneg.unpack_neg_one_sub {x : Float} (h : Nonneg x) :
    ((-1.0 : Float) - x).toModel.unpack = .infinity .negative ∨
    ∃ m e hm, ((-1.0 : Float) - x).toModel.unpack = .finite .negative m e hm ∧ -52 ≤ e := by
  have hsub : ((-1.0 : Float) - x).toModel.unpack = UnpackedFloat.unpack Format.binary64
      (UnpackedFloat.pack Format.binary64 (UnpackedFloat.sub Format.binary64
        (-1.0 : Float).toModel.unpack x.toModel.unpack)) := rfl
  rw [hsub, unpack_neg_one]
  obtain hx | hx | ⟨m, e, hm, hx⟩ := h.cases
  · rw [hx]
    exact Or.inr ⟨2 ^ 52, -52, by decide, rfl, by decide⟩
  · rw [hx]
    exact Or.inl rfl
  · rw [hx, sub_neg_pos]
    generalize hE : min (-52) e = E
    generalize m <<< (e - E).toNat = b
    -- On the common scale the mantissa of one alone reaches up to the exponent zero.
    have hone : ((2 ^ 52) <<< (-52 - E).toNat).log2 = 52 + (-52 - E).toNat := by
      rw [log2_shiftLeft (by decide), Nat.log2_two_pow]
    generalize (2 ^ 52) <<< (-52 - E).toNat = a at hone
    have hpos : a ≠ 0 := by
      intro hzero
      rw [hzero, Nat.log2_zero] at hone
      omega
    have hlog : a.log2 ≤ (a + b).log2 :=
      (Nat.le_log2 (by omega)).2 (Nat.le_trans (Nat.log2_self_le hpos) (Nat.le_add_right a b))
    obtain ⟨m', e', hm', hround, hle, hlt, he, -⟩ := round_normal (s := .negative) (m := a + b)
      (e := E) (by omega) (by omega)
    rw [hround, unpack_pack_normal hle hlt (by omega)]
    split
    · exact Or.inr ⟨m', e', hm', rfl, by omega⟩
    · exact Or.inl rfl

/-! ## Negation, and a difference of nothing -/

/-- Negation turns the sign and nothing else. -/
theorem unpack_neg {x : Float} (hx : x.toModel.unpack ≠ .notANumber) :
    (-x).toModel.unpack = x.toModel.unpack.neg := by
  let b : BitVec Format.binary64.numBits := x.toModel.toBits.toBitVec
  let turned := packComponents Format.binary64 (-Sign.ofBitVec (unpackSign b)) (unpackExponent b)
    (unpackMantissa b)
  have hunpack : unpack Format.binary64 turned = (unpack Format.binary64 b).neg := by
    simp only [turned, UnpackedFloat.unpack, unpackExponent_packComponents,
      unpackMantissa_packComponents, unpackSign_packComponents, Sign.ofBitVec_toBitVec]
    split
    · split <;> rfl
    · split
      · split <;> rfl
      · rfl
  have hvalid : Format.binary64.Valid turned := by
    refine ⟨fun hexponent hmantissa => absurd ?_ hx⟩
    rw [unpackExponent_packComponents] at hexponent
    rw [unpackMantissa_packComponents] at hmantissa
    change unpack Format.binary64 b = .notANumber
    simp only [UnpackedFloat.unpack, hexponent, if_true, if_neg hmantissa]
  change unpack Format.binary64 (pack Format.binary64 (unpack Format.binary64 b).neg) = _
  rw [← hunpack, pack_unpack_of_valid hvalid, hunpack]
  rfl

/-- The sign turned twice. There is only one NaN, and it has no sign. -/
theorem neg_neg_eq (x : Float) : - -x = x := by
  by_cases hnan : x.toModel.unpack = .notANumber
  · rw [← ofModel_pack_unpack x, hnan]
    rfl
  · have hneg := unpack_neg hnan
    have hnumber : (-x).toModel.unpack ≠ .notANumber := by
      rw [hneg]
      generalize x.toModel.unpack = u at hnan
      cases u with
      | notANumber => exact absurd rfl hnan
      | _ => nofun
    have htwice : (- -x).toModel.unpack = x.toModel.unpack := by
      rw [unpack_neg hnumber, hneg]
      generalize x.toModel.unpack = u
      cases u with
      | notANumber => rfl
      | infinity s => cases s <;> rfl
      | zero s => cases s <;> rfl
      | finite s m e hm => cases s <;> rfl
    rw [← ofModel_pack_unpack (- -x), htwice, ofModel_pack_unpack]

theorem neg_lt_zero {x : Float} (h : 0.0 < x) : -x < 0.0 := by
  rw [lt_iff, unpack_zero] at h ⊢
  have hnumber : x.toModel.unpack ≠ .notANumber := by
    intro hnan
    rw [hnan] at h
    cases h
  rw [unpack_neg hnumber]
  generalize x.toModel.unpack = x at h
  cases x with
  | notANumber => cases h
  | infinity s =>
      cases s with
      | positive => rfl
      | negative => cases h
  | zero s => cases h
  | finite s m e hm =>
      cases s with
      | positive => rfl
      | negative => cases h

theorem sub_self {x : Float} (hx : x.isFinite = true) : x - x = 0.0 := by
  change x.toModel.unpack.isFinite = true at hx
  change Float.ofModel (.pack
    (UnpackedFloat.sub Format.binary64 x.toModel.unpack x.toModel.unpack)) = _
  generalize x.toModel.unpack = x at hx
  cases x with
  | notANumber => cases hx
  | infinity s => cases hx
  | zero s => cases s <;> rfl
  | finite s m e hm =>
      have hzero : UnpackedFloat.sub Format.binary64 (.finite s m e hm) (.finite s m e hm) =
          .zero .positive := by
        simp only [UnpackedFloat.sub, Int.sub_self]
        rfl
      rw [hzero]
      rfl

end Ranging.Binary64

import Ranging.Proofs.FloatParts

/-!
# Binary64 numbers up to one

The checks of the clock filter compare its constants with one and with a half. What follows from
that for the rounded arithmetic is collected here: doubling a number below a half stays below one,
one minus a number below one is positive, and a number of at most one is not further below zero than
minus one minus anything.

The first needs that doubling does not round. A product with a power of two has the mantissa of the
other factor with zeros behind it, and shifting these out again loses nothing.
-/

open Float.Model Float.Model.UnpackedFloat

namespace Ranging.Binary64

/-! ## The parts of a finite number -/

/-- The parts of a finite number are a magnitude that the format holds. -/
theorem holds_unpack {x : Float} {s : Sign} {m : Nat} {e : Int} {hm : 0 < m}
    (h : x.toModel.unpack = .finite s m e hm) : BinaryFormat.binary64.Holds ⟨m, e⟩ := by
  let b : BitVec Format.binary64.numBits := x.toModel.toBits.toBitVec
  have hmantissa : (unpackMantissa b).toNat < 2 ^ 52 := (unpackMantissa b).isLt
  have hfield : (unpackExponent b).toNat < 2048 := (unpackExponent b).isLt
  change UnpackedFloat.unpack Format.binary64 b = _ at h
  rw [UnpackedFloat.unpack] at h
  dsimp only at h
  split at h
  · split at h <;> cases h
  · rename_i hones
    split at h
    · rename_i hzero
      split at h
      · cases h
      · rename_i hne
        cases h
        rw [hzero]
        apply Magnitude.holds_subnormal _ hmantissa
        intro hnone
        exact hne (BitVec.eq_of_toNat_eq hnone)
    · rename_i hzero
      have hpos := toNat_ne_zero hzero
      have hmax := toNat_ne_ones hones
      have hnormal : BinaryFormat.binary64.Holds ⟨2 ^ 52 + (unpackMantissa b).toNat,
          -1074 + ((unpackExponent b).toNat - 1 : Nat)⟩ :=
        Magnitude.holds_normal hmantissa (by omega)
      have hexponent : (-1074 : Int) + ((unpackExponent b).toNat - 1 : Nat) =
          (unpackExponent b).toNat - 1075 := by omega
      rw [hexponent] at hnormal
      cases h
      rw [toNat_implicit]
      exact hnormal

/-- Fewer than 53 bits come with the least exponent only. -/
theorem exponent_of_lt {m : Nat} {e : Int} (hholds : BinaryFormat.binary64.Holds ⟨m, e⟩)
    (h : m < 2 ^ 52) : e = -1074 := by
  by_contra hne
  have hless : -1074 < e := lt_of_le_of_ne hholds.minExponent_le (Ne.symm hne)
  exact absurd (hholds.normal hless) (Nat.not_le.2 h)

/-- Such a number is packed and read back as it is. -/
theorem unpack_pack_of_holds {s : Sign} {m : Nat} {e : Int} {h : 0 < m}
    (hholds : BinaryFormat.binary64.Holds ⟨m, e⟩) :
    unpack Format.binary64 (pack Format.binary64 (.finite s m e h)) = .finite s m e h := by
  have hlt : m < 2 ^ 53 := hholds.lt
  have hmin : -1074 ≤ e := hholds.minExponent_le
  have hmax : e ≤ 971 := hholds.le_maxExponent
  by_cases hnormal : 2 ^ 52 ≤ m
  · rw [unpack_pack_normal hnormal hlt hmin, if_pos hmax]
  · have hexponent := exponent_of_lt hholds (Nat.not_le.1 hnormal)
    have hmantissa : (BitVec.ofNat 52 m).toNat = m := by
      rw [BitVec.toNat_ofNat]
      omega
    have hlog : m.log2 < 52 := (Nat.log2_lt (by omega)).2 (by omega)
    subst hexponent
    have hpack : pack Format.binary64 (.finite s m (-1074) h) =
        packComponents Format.binary64 s 0#11 (BitVec.ofNat 52 m) := by
      rw [UnpackedFloat.pack]
      change (if 2 ^ 11 ≤ (-1074 + 1023 + 52 : Int).toNat + 1 then _ else
        if m.log2 + 1 = 53 then _ else _) = _
      rw [if_neg (by decide), if_neg (by omega)]
    have hne : BitVec.ofNat 52 m ≠ 0#52 := by
      intro hzero
      rw [hzero] at hmantissa
      change 0 = m at hmantissa
      omega
    rw [hpack, UnpackedFloat.unpack]
    simp only [unpackMantissa_packComponents, unpackExponent_packComponents,
      unpackSign_packComponents, Sign.ofBitVec_toBitVec]
    rw [if_neg (by decide), if_pos trivial, dif_neg hne]
    simp only [hmantissa]
    rfl

theorem unpack_sub (x y : Float) : (x - y).toModel.unpack = unpack Format.binary64
    (pack Format.binary64
      (UnpackedFloat.sub Format.binary64 x.toModel.unpack y.toModel.unpack)) := rfl

theorem unpack_mul (x y : Float) : (x * y).toModel.unpack = unpack Format.binary64
    (pack Format.binary64
      (UnpackedFloat.mul Format.binary64 x.toModel.unpack y.toModel.unpack)) := rfl

/-! ## Doubling -/

/-- Zeros that are shifted out leave nothing to round. -/
theorem shiftRight_zeros (m n : Nat) :
    ExtendedMantissa.ofMantissaAndAccuracy (m * 2 ^ n) .exact >>> n =
      ExtendedMantissa.ofMantissaAndAccuracy m .exact := by
  change n.repeat ExtendedMantissa.shiftRightOne _ = _
  induction n generalizing m with
  | zero => simp [Nat.repeat]
  | succ n ih =>
      rw [Nat.repeat, Nat.pow_succ', ← Nat.mul_assoc, ih]
      simp [ExtendedMantissa.shiftRightOne, ExtendedMantissa.ofMantissaAndAccuracy]

/-- A number that the format holds has the exponent that rounding aims at. -/
theorem targetExponent_of_holds {m : Nat} {e : Int}
    (hholds : BinaryFormat.binary64.Holds ⟨m, e⟩) :
    Format.binary64.targetExponent (totalExponent m e) = e := by
  have hpos : m ≠ 0 := Nat.ne_of_gt hholds.pos
  have hmin : -1074 ≤ e := hholds.minExponent_le
  have hlog : m.log2 < 53 := (Nat.log2_lt hpos).2 hholds.lt
  rw [targetExponent_eq, totalExponent]
  rcases hmin.eq_or_lt with rfl | hlt
  · omega
  · have hnormal : 52 ≤ m.log2 := (Nat.le_log2 hpos).2 (hholds.normal hlt)
    omega

/-- Rounding finds such a number again behind zeros. -/
theorem roundWithAccuracy_zeros {s : Sign} {m : Nat} {e : Int} (h : 0 < m) (n : Nat)
    (hholds : BinaryFormat.binary64.Holds ⟨m, e⟩) :
    roundWithAccuracy Format.binary64 s (m * 2 ^ n) (e - n) .exact = .finite s m e h := by
  have htarget := targetExponent_of_holds hholds
  have htotal : totalExponent (m * 2 ^ n) (e - n) = totalExponent m e := by
    rw [totalExponent, totalExponent, ← Nat.shiftLeft_eq, log2_shiftLeft (by omega)]
    omega
  have hfirst : shiftToTargetExponent Format.binary64 (m * 2 ^ n) (e - n) .exact =
      (ExtendedMantissa.ofMantissaAndAccuracy m .exact, e) := by
    have hshift : (e - (e - n)).toNat = n := by omega
    rw [shiftToTargetExponent, htotal, htarget, shiftToExponent, hshift, shiftRight_zeros,
      sub_add_cancel]
  have hagain : shiftToTargetExponent Format.binary64 m e .exact =
      (ExtendedMantissa.ofMantissaAndAccuracy m .exact, e) := by
    have hzeros := shiftRight_zeros m 0
    rw [Nat.pow_zero, Nat.mul_one] at hzeros
    rw [shiftToTargetExponent, htarget, shiftToExponent, Int.sub_self, Int.toNat_zero, hzeros]
    simp
  have hrounded : (ExtendedMantissa.ofMantissaAndAccuracy m .exact).roundedMantissa = m := rfl
  rw [roundWithAccuracy, hfirst]
  simp only [hrounded, hagain, mantissa_ofMantissaAndAccuracy]
  exact dif_neg (Nat.ne_of_gt h)

theorem unpack_two : (2.0 : Float).toModel.unpack = .finite .positive (2 ^ 52) (-51) (by decide) :=
  rfl

theorem unpack_half : (0.5 : Float).toModel.unpack = .finite .positive (2 ^ 52) (-53) (by decide) :=
  rfl

/-- One finite number is below another with the same positive sign if its exponent is, or, for equal
exponents, its mantissa. -/
theorem lt_iff_of_finite {x y : Float} {m m' : Nat} {e e' : Int} {hm : 0 < m} {hm' : 0 < m'}
    (hx : x.toModel.unpack = .finite .positive m e hm)
    (hy : y.toModel.unpack = .finite .positive m' e' hm') : x < y ↔ e < e' ∨ e = e' ∧ m < m' := by
  rw [lt_iff, hx, hy]
  change some ((compare e e').then (compare m m')) = some .lt ↔ _
  rw [Option.some.injEq, Ordering.then_eq_lt, Int.compare_eq_lt, Int.compare_eq_eq,
    Nat.compare_eq_lt]

/-- A product with two that the format holds is exact. -/
theorem unpack_double {x : Float} {m m' n : Nat} {e e' : Int} {hm : 0 < m}
    (hx : x.toModel.unpack = .finite .positive m e hm)
    (hholds : BinaryFormat.binary64.Holds ⟨m', e'⟩) (hmantissa : m * 2 ^ 52 = m' * 2 ^ n)
    (hexponent : e - 51 = e' - n) :
    (x * 2.0).toModel.unpack = .finite .positive m' e' hholds.pos := by
  have hround : UnpackedFloat.mul Format.binary64 (.finite .positive m e hm)
      (.finite .positive (2 ^ 52) (-51) (by decide)) =
      roundWithAccuracy Format.binary64 .positive (m * 2 ^ 52) (e - 51) .exact := rfl
  rw [unpack_mul, hx, unpack_two, hround, hmantissa, hexponent,
    roundWithAccuracy_zeros hholds.pos n hholds, unpack_pack_of_holds hholds]

/-- Doubling turns a number below a half into one below one. -/
theorem Positive.double_lt_one {x : Float} (h : Positive x) (hlt : x < 0.5) :
    Positive (x * 2.0) ∧ x * 2.0 < 1.0 := by
  obtain ⟨m, e, hm, hx⟩ := h
  have hholds := holds_unpack hx
  have hbits : m < 2 ^ 53 := hholds.lt
  have hmin : -1074 ≤ e := hholds.minExponent_le
  rw [lt_iff_of_finite hx unpack_half] at hlt
  -- A normal number keeps its mantissa, any other one its exponent.
  by_cases hnormal : 2 ^ 52 ≤ m
  · have hdouble : BinaryFormat.binary64.Holds ⟨m, e + 1⟩ := by
      refine ⟨hm, hholds.lt, ?_, ?_, fun _ => hnormal⟩
      · show -1074 ≤ e + 1
        omega
      · show e + 1 ≤ 971
        omega
    have hunpack := unpack_double (n := 52) hx hdouble rfl (by omega)
    exact ⟨⟨_, _, _, hunpack⟩, (lt_iff_of_finite hunpack unpack_one).2 (Or.inl (by omega))⟩
  · obtain rfl := exponent_of_lt hholds (Nat.not_le.1 hnormal)
    have hdouble : BinaryFormat.binary64.Holds ⟨m * 2, -1074⟩ := by
      refine ⟨Nat.mul_pos hm (by decide), ?_, hholds.minExponent_le, hholds.le_maxExponent, ?_⟩
      · show m * 2 < 2 ^ 53
        omega
      · intro hless
        exact absurd hless (lt_irrefl _)
    have hunpack := unpack_double (n := 51) hx hdouble (by omega) (by omega)
    exact ⟨⟨_, _, _, hunpack⟩, (lt_iff_of_finite hunpack unpack_one).2 (Or.inl (by omega))⟩

/-! ## One minus a number below it -/

/-- A positive number subtracted from a greater one, on the scale of the smaller exponent. -/
theorem sub_pos_pos {m m' : Nat} {e e' : Int} {h : 0 < m} {h' : 0 < m'}
    (hlt : m' <<< (e' - min e e').toNat < m <<< (e - min e e').toNat) :
    UnpackedFloat.sub Format.binary64 (.finite .positive m e h) (.finite .positive m' e' h') =
      UnpackedFloat.round Format.binary64 .positive
        (m <<< (e - min e e').toNat - m' <<< (e' - min e e').toNat) (min e e') := by
  simp only [UnpackedFloat.sub, decreaseExponent, Sign.apply]
  generalize m <<< (e - min e e').toNat = a at hlt
  generalize m' <<< (e' - min e e').toNat = b at hlt
  have hcompare : compare ((a : Int) - b) 0 = .gt := Int.compare_eq_gt.2 (by omega)
  have hmagnitude : ((a : Int) - b).toNat = a - b := by omega
  rw [UnpackedFloat.normalize, hcompare]
  simp only [hmagnitude]

/-- What 53 bits leave of a power of two is about as long as the power, unless this has few more
bits itself. -/
theorem log2_sub_bounds {m k : Nat} (hbits : m < 2 ^ 53) (hlt : m < 2 ^ (52 + k)) :
    (2 ^ (52 + k) - m).log2 ≤ 52 + k ∧ (51 + k ≤ (2 ^ (52 + k) - m).log2 ∨ k ≤ 1) := by
  have hne : 2 ^ (52 + k) - m ≠ 0 := by omega
  constructor
  · apply Nat.lt_succ_iff.1
    apply (Nat.log2_lt hne).2
    have hdouble : 2 ^ (52 + k + 1) = 2 * 2 ^ (52 + k) := Nat.pow_succ'
    omega
  · rcases Nat.lt_or_ge 1 k with hk | hk
    · left
      apply (Nat.le_log2 hne).2
      have hhalf : 2 ^ (52 + k) = 2 * 2 ^ (51 + k) := by
        rw [← Nat.pow_succ']
        congr 1
        omega
      have hlarge : 2 ^ 53 ≤ 2 ^ (51 + k) := Nat.pow_le_pow_right (by decide) (by omega)
      omega
    · exact Or.inr hk

/-- What a positive number below one leaves of one is positive. -/
theorem Positive.one_sub {x : Float} (h : Positive x) (hlt : x < 1.0) : Positive (1.0 - x) := by
  obtain ⟨m, e, hm, hx⟩ := h
  have hbits : m < 2 ^ 53 := (holds_unpack hx).lt
  rw [lt_iff_of_finite hx unpack_one] at hlt
  -- Both on the scale of `x`, where one is a power of two.
  obtain ⟨k, hk⟩ : ∃ k : Nat, e = -52 - k := ⟨(-52 - e).toNat, by omega⟩
  have hmin : min (-52) e = e := by omega
  have hone : (2 ^ 52) <<< (-52 - min (-52) e).toNat = 2 ^ (52 + k) := by
    have hshift : (-52 - e).toNat = k := by omega
    rw [hmin, hshift, Nat.shiftLeft_eq, Nat.pow_add]
  have hself : m <<< (e - min (-52) e).toNat = m := by
    rw [hmin, Int.sub_self]
    rfl
  have hless : m < 2 ^ (52 + k) := by
    rcases Nat.eq_zero_or_pos k with rfl | hpos
    · omega
    · exact lt_of_lt_of_le hbits (Nat.pow_le_pow_right (by decide) (by omega))
  obtain ⟨hupper, hlower⟩ := log2_sub_bounds hbits hless
  obtain ⟨m', e', h', hround, hle', hlt', hlow, hhigh⟩ :=
    round_normal (s := .positive) (m := 2 ^ (52 + k) - m) (e := e) (by omega) (by omega)
  refine ⟨m', e', h', ?_⟩
  rw [unpack_sub, hx, unpack_one, sub_pos_pos (by rwa [hone, hself]), hone, hself, hmin, hround,
    unpack_pack_normal hle' hlt' (by omega), if_pos (by omega)]

/-- A number from zero up to one, itself left out, is a zero of either sign or positive. -/
theorem zero_or_positive {x : Float} (hle : 0.0 ≤ x) (hlt : x < 1.0) :
    (∃ s, x.toModel.unpack = .zero s) ∨ Positive x := by
  rw [le_iff, unpack_zero] at hle
  rw [lt_iff, unpack_one] at hlt
  cases hx : x.toModel.unpack with
  | notANumber =>
      rw [hx] at hlt
      cases hlt
  | infinity s =>
      rw [hx] at hle hlt
      cases s with
      | positive => cases hlt
      | negative => cases hle
  | zero s => exact Or.inl ⟨s, rfl⟩
  | finite s m e hm =>
      rw [hx] at hle
      cases s with
      | positive => exact Or.inr ⟨m, e, hm, hx⟩
      | negative => cases hle

/-- What such a number leaves of one is positive. -/
theorem positive_one_sub {x : Float} (hle : 0.0 ≤ x) (hlt : x < 1.0) : Positive (1.0 - x) := by
  obtain ⟨s, hx⟩ | hx := zero_or_positive hle hlt
  · have hself : UnpackedFloat.sub Format.binary64 (.finite .positive (2 ^ 52) (-52) (by decide))
        (.zero s) = .finite .positive (2 ^ 52) (-52) (by decide) := rfl
    refine ⟨2 ^ 52, -52, by decide, ?_⟩
    rw [unpack_sub, hx, unpack_one, hself]
    exact unpack_one
  · exact hx.one_sub hlt

/-! ## The negative of a number up to one -/

/-- A finite number above zero is positive. -/
theorem positive_of_isFinite {x : Float} (hlt : 0.0 < x) (hfinite : x.isFinite = true) :
    Positive x := by
  change x.toModel.unpack.isFinite = true at hfinite
  rw [lt_iff, unpack_zero] at hlt
  cases hx : x.toModel.unpack with
  | notANumber =>
      rw [hx] at hfinite
      cases hfinite
  | infinity s =>
      rw [hx] at hfinite
      cases hfinite
  | zero s =>
      rw [hx] at hlt
      cases hlt
  | finite s m e hm =>
      rw [hx] at hlt
      cases s with
      | positive => exact ⟨m, e, hm, hx⟩
      | negative => cases hlt

/-- A number above zero that is at most one is finite. -/
theorem isFinite_of_le_one {x : Float} (hlt : 0.0 < x) (hle : x ≤ 1.0) : x.isFinite = true := by
  change x.toModel.unpack.isFinite = true
  rw [lt_iff, unpack_zero] at hlt
  rw [le_iff, unpack_one] at hle
  generalize x.toModel.unpack = x at hlt hle
  cases x with
  | notANumber => cases hlt
  | infinity s =>
      cases s with
      | positive => cases hle
      | negative => cases hlt
  | zero s => rfl
  | finite s m e hm => rfl

/-- What is not negative is not below minus one. -/
theorem Nonneg.not_lt_neg_one {x : Float} (h : Nonneg x) : ¬ x < -1.0 := by
  rw [lt_iff, unpack_neg_one]
  obtain hx | hx | ⟨m, e, hm, hx⟩ := h.cases <;> rw [hx] <;> nofun

/-- At most minus one is not above the negative of a number that is at most one. -/
theorem Nonneg.not_neg_lt {x y : Float} (hx : Nonneg x) (hlt : 0.0 < y) (hle : y ≤ 1.0) :
    ¬ -y < -1.0 - x := by
  obtain ⟨m, e, hm, hy⟩ := positive_of_isFinite hlt (isFinite_of_le_one hlt hle)
  have hnumber : y.toModel.unpack ≠ .notANumber := by
    rw [hy]
    nofun
  rw [le_iff, hy, unpack_one] at hle
  change ((compare e (-52)).then (compare m (2 ^ 52))).isLE = true at hle
  rw [Ordering.isLE_iff_ne_gt, Ordering.then_eq_gt, Int.compare_eq_gt, Int.compare_eq_eq,
    Nat.compare_eq_gt] at hle
  rw [lt_iff, unpack_neg hnumber, hy]
  obtain hinfinity | ⟨m', e', hm', hfinite, he'⟩ := hx.unpack_neg_one_sub
  · rw [hinfinity]
    nofun
  · have hm' : 2 ^ 52 ≤ m' := (holds_unpack hfinite).normal (by
      show -1074 < e'
      omega)
    rw [hfinite]
    change ¬ some ((compare e e').then (compare m m')).swap = some .lt
    rw [Option.some.injEq, Ordering.swap_eq_lt, Ordering.then_eq_gt, Int.compare_eq_gt,
      Int.compare_eq_eq, Nat.compare_eq_gt]
    omega

/-! ## Weighted sums -/

/-- What is not finite does not become so by packing. -/
theorem isFinite_unpack_pack {x : UnpackedFloat} (h : x.isFinite = false) :
    (unpack Format.binary64 (pack Format.binary64 x)).isFinite = false := by
  cases x with
  | notANumber => rfl
  | infinity s => cases s <;> rfl
  | zero s => cases h
  | finite s m e hm => cases h

/-- What is taken away to leave something finite is finite. -/
theorem isFinite_of_isFinite_sub {x y : Float} (h : (x - y).isFinite = true) :
    y.isFinite = true := by
  change (x - y).toModel.unpack.isFinite = true at h
  by_contra hnot
  have hy : y.toModel.unpack.isFinite = false := Bool.eq_false_iff.2 hnot
  have hspecial : (UnpackedFloat.sub Format.binary64 x.toModel.unpack
      y.toModel.unpack).isFinite = false := by
    generalize x.toModel.unpack = x
    generalize y.toModel.unpack = y at hy
    cases y with
    | notANumber => cases x <;> rfl
    | infinity t =>
        cases x with
        | infinity s => cases s <;> cases t <;> rfl
        | _ => rfl
    | zero t => cases hy
    | finite t m e hm => cases hy
  rw [unpack_sub, isFinite_unpack_pack hspecial] at h
  cases h

/-- Adding what is not negative to a zero of any sign gives what is not negative. -/
theorem Nonneg.zero_add {x y : Float} {s : Sign} (hx : x.toModel.unpack = .zero s)
    (hy : Nonneg y) : Nonneg (x + y) := by
  refine nonneg_ofModel_pack ?_
  rw [hx]
  obtain hy | hy | ⟨m, e, hm, hy⟩ := hy.cases <;> rw [hy] <;> cases s <;> rfl

/-- A weight may be a zero of either sign. The product is one then, too, and what is added to it
decides about the sign of the sum. -/
theorem Nonneg.mul_add {x w y : Float} (hx : Nonneg x) (hfinite : x.isFinite = true)
    (hle : 0.0 ≤ w) (hlt : w < 1.0) (hy : Nonneg y) : Nonneg (x * w + y) := by
  obtain ⟨s, hw⟩ | hw := zero_or_positive hle hlt
  · have hzero : (x * w).toModel.unpack = .zero s := by
      rw [unpack_mul, hw]
      obtain hx | hx | ⟨m, e, hm, hx⟩ := hx.cases
      · rw [hx]
        cases s <;> rfl
      · change x.toModel.unpack.isFinite = true at hfinite
        rw [hx] at hfinite
        cases hfinite
      · have hproduct : UnpackedFloat.mul Format.binary64 (.finite .positive m e hm) (.zero s) =
            .zero s := by cases s <;> rfl
        rw [hx, hproduct]
        cases s <;> rfl
    exact hy.zero_add hzero
  · exact (hx.mul hw).add hy

end Ranging.Binary64

import Ranging.Proofs.UnitInterval

/-!
# Rounding keeps the order

A quotient of two counters is a share of one only if the rounding of the counters and that of the
quotient leave their order as it is. For positive numbers of normal size this follows from the two
steps of rounding. A mantissa with its two residual bits is read as one number, its `rank`; shifting
and rounding are monotone in it. The second shift, after the rounding has reached the next power of
two, goes up by one exponent and back to the least mantissa.
-/

open Float.Model Float.Model.UnpackedFloat

namespace Ranging.Binary64

/-! ## Mantissas with residual bits -/

/-- The place of a mantissa with its residual bits among all others. -/
def rank (x : ExtendedMantissa) : Nat :=
  4 * x.mantissa + 2 * x.roundBit.toNat + x.stickyBit.toNat

theorem rank_shiftRightOne (x : ExtendedMantissa) :
    rank x.shiftRightOne = 2 * (rank x / 4) + min 1 (rank x % 4) := by
  obtain ⟨m, r, s⟩ := x
  rcases Nat.mod_two_eq_zero_or_one m with hm | hm <;> cases r <;> cases s <;>
    simp [rank, ExtendedMantissa.shiftRightOne, hm] <;> omega

theorem rank_shiftRight_le {x y : ExtendedMantissa} (h : rank x ≤ rank y) (n : Nat) :
    rank (x >>> n) ≤ rank (y >>> n) := by
  change rank (n.repeat ExtendedMantissa.shiftRightOne x) ≤
    rank (n.repeat ExtendedMantissa.shiftRightOne y)
  induction n with
  | zero => exact h
  | succ n ih =>
      rw [Nat.repeat, Nat.repeat, rank_shiftRightOne, rank_shiftRightOne]
      omega

/-- Half of the last place rounds to the even mantissa, more of it upwards. -/
theorem roundedMantissa_eq (x : ExtendedMantissa) :
    x.roundedMantissa = rank x / 4 +
      if rank x % 4 < 2 then 0 else if rank x % 4 = 2 then rank x / 4 % 2 else 1 := by
  obtain ⟨m, r, s⟩ := x
  have hdiv : rank ⟨m, r, s⟩ / 4 = m := by
    cases r <;> cases s <;> simp only [rank, Bool.toNat_true, Bool.toNat_false] <;> omega
  have hmod : rank ⟨m, r, s⟩ % 4 = 2 * r.toNat + s.toNat := by
    cases r <;> cases s <;> simp only [rank, Bool.toNat_true, Bool.toNat_false] <;> omega
  rw [hdiv, hmod]
  cases r <;> cases s <;> rfl

theorem roundedMantissa_le {x y : ExtendedMantissa} (h : rank x ≤ rank y) :
    x.roundedMantissa ≤ y.roundedMantissa := by
  rw [roundedMantissa_eq, roundedMantissa_eq]
  have hdiv : rank x / 4 ≤ rank y / 4 := Nat.div_le_div_right h
  split_ifs <;> omega

/-! ## Rounding to 53 bits -/

/-- What rounding makes of a mantissa of normal size before a carry is taken care of. -/
def carried (m : Nat) (accuracy : Accuracy) : Nat :=
  (ExtendedMantissa.ofMantissaAndAccuracy m accuracy >>> (m.log2 - 52)).roundedMantissa

theorem carried_bounds {m : Nat} (accuracy : Accuracy) (hle : 2 ^ 52 ≤ m) :
    2 ^ 52 ≤ carried m accuracy ∧ carried m accuracy ≤ 2 ^ 53 := by
  obtain ⟨hlower, hupper⟩ := div_pow_log2_bounds hle
  obtain ⟨hround, hround'⟩ := roundedMantissa_bounds
    (ExtendedMantissa.ofMantissaAndAccuracy m accuracy >>> (m.log2 - 52))
  rw [mantissa_shiftRight, mantissa_ofMantissaAndAccuracy] at hround hround'
  rw [carried]
  omega

/-- Rounding is two shifts: the second one starts from the mantissa rounded after the first. -/
theorem roundWithAccuracy_of_shifts {s : Sign} {m : Nat} {e e₁ e₂ : Int} {accuracy : Accuracy}
    {x y : ExtendedMantissa} (h : 0 < y.mantissa)
    (hfirst : shiftToTargetExponent Format.binary64 m e accuracy = (x, e₁))
    (hlast : shiftToTargetExponent Format.binary64 x.roundedMantissa e₁ .exact = (y, e₂)) :
    roundWithAccuracy Format.binary64 s m e accuracy = .finite s y.mantissa e₂ h := by
  rw [roundWithAccuracy, hfirst]
  simp only [hlast]
  exact dif_neg (Nat.ne_of_gt h)

/-- Rounding a number of normal size ends with 53 bits: either those of the first step, or, if they
have become 54, the least ones with the next exponent. -/
theorem exists_roundWithAccuracy {s : Sign} {m : Nat} {e : Int} (accuracy : Accuracy)
    (hle : 2 ^ 52 ≤ m) (hnormal : -1022 ≤ m.log2 + e) :
    ∃ m' e' h, roundWithAccuracy Format.binary64 s m e accuracy = .finite s m' e' h ∧
      2 ^ 52 ≤ m' ∧ m' < 2 ^ 53 ∧
      (m' = carried m accuracy ∧ e' = m.log2 + e - 52 ∨
        carried m accuracy = 2 ^ 53 ∧ m' = 2 ^ 52 ∧ e' = m.log2 + e - 51) := by
  have hne : m ≠ 0 := by omega
  have hlog := (Nat.le_log2 hne).2 hle
  obtain ⟨hcarried, hcarried'⟩ := carried_bounds accuracy hle
  have hbits := (Nat.le_log2 (by omega)).2 hcarried
  have hfirst : shiftToTargetExponent Format.binary64 m e accuracy =
      (ExtendedMantissa.ofMantissaAndAccuracy m accuracy >>> (m.log2 - 52), m.log2 + e - 52) := by
    have htarget : Format.binary64.targetExponent (totalExponent m e) = m.log2 + e - 52 := by
      rw [targetExponent_eq, totalExponent]
      omega
    have hshift : ((m.log2 : Int) + e - 52 - e).toNat = m.log2 - 52 := by omega
    rw [shiftToTargetExponent, shiftToExponent]
    simp only [htarget, hshift, Prod.mk.injEq, true_and]
    omega
  obtain ⟨hexponent, hmantissa⟩ := shiftToTargetExponent_normal (m := carried m accuracy)
    (e := m.log2 + e - 52) .exact hcarried (by omega)
  rcases hlast : shiftToTargetExponent Format.binary64 (carried m accuracy) (m.log2 + e - 52)
    .exact with ⟨y, e'⟩
  rw [hlast] at hexponent hmantissa
  dsimp only at hexponent hmantissa
  rcases hcarried'.lt_or_eq with hlt | heq
  · have hsame : (carried m accuracy).log2 = 52 := log2_eq_52 hcarried hlt
    rw [hsame, Nat.sub_self, Nat.pow_zero, Nat.div_one] at hmantissa
    exact ⟨y.mantissa, e', by omega, roundWithAccuracy_of_shifts _ hfirst hlast, by omega,
      by omega, Or.inl ⟨hmantissa, by omega⟩⟩
  · have hmore : (carried m accuracy).log2 = 53 := by
      rw [heq, Nat.log2_two_pow]
    have hhalf : y.mantissa = 2 ^ 52 := by
      rw [hmantissa, hmore, heq]
      rfl
    exact ⟨y.mantissa, e', by omega, roundWithAccuracy_of_shifts _ hfirst hlast, by omega,
      by omega, Or.inr ⟨heq, hhalf, by omega⟩⟩

/-- The order of positive finite numbers of normal size, by their parts. -/
def PartsLe (m : Nat) (e : Int) (m' : Nat) (e' : Int) : Prop :=
  e < e' ∨ e = e' ∧ m ≤ m'

theorem le_iff_of_finite {x y : Float} {m m' : Nat} {e e' : Int} {hm : 0 < m} {hm' : 0 < m'}
    (hx : x.toModel.unpack = .finite .positive m e hm)
    (hy : y.toModel.unpack = .finite .positive m' e' hm') : x ≤ y ↔ PartsLe m e m' e' := by
  rw [le_iff, hx, hy]
  change ((compare e e').then (compare m m')).isLE = true ↔ _
  rw [Ordering.isLE_iff_ne_gt, Ordering.then_eq_gt, Int.compare_eq_gt, Int.compare_eq_eq,
    Nat.compare_eq_gt, PartsLe]
  omega

theorem log2_le_log2_of_rank_le {m m' : Nat} {accuracy accuracy' : Accuracy}
    (h : rank (.ofMantissaAndAccuracy m accuracy) ≤ rank (.ofMantissaAndAccuracy m' accuracy'))
    (hm : m ≠ 0) : m.log2 ≤ m'.log2 := by
  have hmantissa : ∀ n a, rank (.ofMantissaAndAccuracy n a) / 4 = n := by
    intro n a
    obtain _ | ⟨_ | _ | _⟩ := a <;> simp [rank, ExtendedMantissa.ofMantissaAndAccuracy] <;> omega
  have hle : m ≤ m' := by
    rw [← hmantissa m accuracy, ← hmantissa m' accuracy']
    exact Nat.div_le_div_right h
  exact (Nat.le_log2 (by omega)).2 ((Nat.log2_self_le hm).trans hle)

/-- Rounding keeps the order of two numbers on one scale. -/
theorem partsLe_of_roundWithAccuracy {s : Sign} {m m' a a' : Nat} {e d d' : Int} {ha : 0 < a}
    {ha' : 0 < a'} {accuracy accuracy' : Accuracy} (hle : 2 ^ 52 ≤ m)
    (hnormal : -1022 ≤ m.log2 + e)
    (h : rank (.ofMantissaAndAccuracy m accuracy) ≤ rank (.ofMantissaAndAccuracy m' accuracy'))
    (hround : roundWithAccuracy Format.binary64 s m e accuracy = .finite s a d ha)
    (hround' : roundWithAccuracy Format.binary64 s m' e accuracy' = .finite s a' d' ha') :
    PartsLe a d a' d' := by
  have hlog := log2_le_log2_of_rank_le h (by omega)
  have hle' : 2 ^ 52 ≤ m' := by
    have hbits := (Nat.le_log2 (by omega)).2 hle
    exact (Nat.le_log2 (by rintro rfl; simp at hlog; omega)).1 (hbits.trans hlog)
  obtain ⟨b, c, hb, hfinite, hlow, hhigh, hparts⟩ :=
    exists_roundWithAccuracy (s := s) accuracy hle hnormal
  obtain ⟨b', c', hb', hfinite', hlow', hhigh', hparts'⟩ :=
    exists_roundWithAccuracy (s := s) (e := e) accuracy' hle' (by omega)
  rw [hfinite] at hround
  rw [hfinite'] at hround'
  cases hround
  cases hround'
  rw [PartsLe]
  rcases hlog.lt_or_eq with hless | hsame
  · omega
  · have hcarried : carried m accuracy ≤ carried m' accuracy' := by
      rw [carried, carried, ← hsame]
      exact roundedMantissa_le (rank_shiftRight_le h _)
    obtain ⟨-, hcarried'⟩ := carried_bounds accuracy' hle'
    omega

/-! ## Quotients up to one -/

theorem unpack_div (x y : Float) : (x / y).toModel.unpack = unpack Format.binary64
    (pack Format.binary64
      (UnpackedFloat.div Format.binary64 x.toModel.unpack y.toModel.unpack)) := rfl

theorem rank_exact (m : Nat) : rank (.ofMantissaAndAccuracy m .exact) = 4 * m := rfl

theorem rank_le (m : Nat) (accuracy : Accuracy) :
    rank (.ofMantissaAndAccuracy m accuracy) ≤ 4 * m + 3 := by
  obtain _ | ⟨_ | _ | _⟩ := accuracy <;> simp [rank, ExtendedMantissa.ofMantissaAndAccuracy]

/-- A quotient of two mantissas of normal size, on the scale where it has enough bits. -/
theorem div_normal {m m' : Nat} {e e' : Int} {h : 0 < m} {h' : 0 < m'} (hm : 2 ^ 52 ≤ m)
    (hm' : 2 ^ 52 ≤ m') (hlt : m < 2 ^ 53) (hlt' : m' < 2 ^ 53) (hscale : -1021 ≤ e - e') :
    UnpackedFloat.div Format.binary64 (.finite .positive m e h) (.finite .positive m' e' h') =
      roundWithAccuracy Format.binary64 .positive (m * 2 ^ 53 / m') (e - e' - 53)
        (accuracyOfFraction (m * 2 ^ 53 % m') m') := by
  have htarget : min (e - e') (Format.binary64.targetExponent
      (totalExponent m e - totalExponent m' e')) = e - e' - 53 := by
    rw [targetExponent_eq, totalExponent, totalExponent, log2_eq_52 hm hlt, log2_eq_52 hm' hlt']
    omega
  have hshift : (e - e' - (e - e' - 53)).toNat = 53 := by omega
  have hcore : divCore Format.binary64 m e m' e' = (m * 2 ^ 53 / m', e - e' - 53,
      accuracyOfFraction (m * 2 ^ 53 % m') m') := by
    rw [divCore]
    simp only [htarget, hshift, Nat.shiftLeft_eq]
  have hround : UnpackedFloat.div Format.binary64 (.finite .positive m e h)
      (.finite .positive m' e' h') = roundWithAccuracy Format.binary64 .positive
        (divCore Format.binary64 m e m' e').1 (divCore Format.binary64 m e m' e').2.1
        (divCore Format.binary64 m e m' e').2.2 := rfl
  rw [hround, hcore]

/-- A quotient of a number and one that is not below it is at most one, if both are of normal
size and the quotient is. -/
theorem div_le_one {x y : Float} {m m' : Nat} {e e' : Int} {h : 0 < m} {h' : 0 < m'}
    (hx : x.toModel.unpack = .finite .positive m e h)
    (hy : y.toModel.unpack = .finite .positive m' e' h') (hm : 2 ^ 52 ≤ m) (hm' : 2 ^ 52 ≤ m')
    (hscale : -1021 ≤ e - e') (hle : PartsLe m e m' e') : x / y ≤ 1.0 := by
  have hlt : m < 2 ^ 53 := (holds_unpack hx).lt
  have hlt' : m' < 2 ^ 53 := (holds_unpack hy).lt
  rw [PartsLe] at hle
  obtain ⟨k, hk⟩ : ∃ k : Nat, e - e' = -k := ⟨(e' - e).toNat, by omega⟩
  -- The quotient keeps at least 53 bits and stays below the power of two that stands for one.
  have hbits : 2 ^ 52 ≤ m * 2 ^ 53 / m' := by
    rw [Nat.le_div_iff_mul_le h']
    calc 2 ^ 52 * m' ≤ 2 ^ 52 * 2 ^ 53 := Nat.mul_le_mul_left _ hlt'.le
      _ ≤ m * 2 ^ 53 := Nat.mul_le_mul_right _ hm
  have hlog : 52 ≤ (m * 2 ^ 53 / m').log2 := (Nat.le_log2 (by omega)).2 hbits
  have hrank : rank (.ofMantissaAndAccuracy (m * 2 ^ 53 / m')
      (accuracyOfFraction (m * 2 ^ 53 % m') m')) ≤
      rank (.ofMantissaAndAccuracy (2 ^ 52 * 2 ^ (1 + k)) .exact) := by
    have hpower : 2 ^ 52 * 2 ^ (1 + k) = 2 ^ 53 * 2 ^ k := by
      rw [Nat.pow_add]
      omega
    rw [rank_exact, hpower]
    by_cases hsame : m = m' ∧ k = 0
    · obtain ⟨rfl, rfl⟩ := hsame
      have hquotient : m * 2 ^ 53 / m = 2 ^ 53 := Nat.mul_div_cancel_left _ h
      have hremainder : m * 2 ^ 53 % m = 0 := Nat.mul_mod_right _ _
      rw [hquotient, hremainder, Nat.pow_zero, Nat.mul_one]
      exact (rank_exact (2 ^ 53)).le
    · have hless : m * 2 ^ 53 / m' < 2 ^ 53 * 2 ^ k := by
        rw [Nat.div_lt_iff_lt_mul h']
        rcases Nat.eq_zero_or_pos k with rfl | hpos
        · omega
        · have htwo : 2 ≤ 2 ^ k := Nat.le_self_pow (by omega) 2
          calc m * 2 ^ 53 < 2 * m' * 2 ^ 53 := by omega
            _ ≤ 2 ^ k * m' * 2 ^ 53 := Nat.mul_le_mul_right _ (Nat.mul_le_mul_right _ htwo)
            _ = 2 ^ 53 * 2 ^ k * m' := by ring
      have hfour := rank_le (m * 2 ^ 53 / m') (accuracyOfFraction (m * 2 ^ 53 % m') m')
      omega
  have hone : roundWithAccuracy Format.binary64 .positive (2 ^ 52 * 2 ^ (1 + k)) (e - e' - 53)
      .exact = .finite .positive (2 ^ 52) (-52) (by decide) := by
    have hexponent : e - e' - 53 = -52 - (1 + k : Nat) := by omega
    rw [hexponent]
    exact roundWithAccuracy_zeros (by decide) (1 + k) (holds_unpack unpack_one)
  obtain ⟨q, d, hq, hround, hlow, hhigh, hparts⟩ := exists_roundWithAccuracy (s := .positive)
    (e := e - e' - 53) (accuracyOfFraction (m * 2 ^ 53 % m') m') hbits (by omega)
  have hquotient := partsLe_of_roundWithAccuracy hbits (by omega) hrank hround hone
  have hupper : d ≤ -52 := by
    rw [PartsLe] at hquotient
    omega
  have hunpack : (x / y).toModel.unpack = .finite .positive q d hq := by
    rw [unpack_div, hx, hy, div_normal hm hm' hlt hlt' hscale, hround,
      unpack_pack_normal hlow hhigh (by omega), if_pos (by omega)]
  exact (le_iff_of_finite hunpack unpack_one).2 hquotient

/-! ## Counters -/

/-- A whole number below the limit of exactness, with its bits moved to the top. -/
theorem holds_whole {n : Nat} (hpos : n ≠ 0) (hlt : n < 2 ^ 53) :
    BinaryFormat.binary64.Holds ⟨n * 2 ^ (52 - n.log2), n.log2 - 52⟩ := by
  have hlog := (Nat.log2_lt hpos).2 hlt
  have hbits : (n * 2 ^ (52 - n.log2)).log2 = 52 := by
    rw [← Nat.shiftLeft_eq, log2_shiftLeft hpos]
    omega
  have hne : n * 2 ^ (52 - n.log2) ≠ 0 := Nat.mul_ne_zero hpos (Nat.two_pow_pos _).ne'
  obtain ⟨hlower, hupper⟩ := (Nat.log2_eq_iff hne).1 hbits
  refine ⟨Nat.pos_of_ne_zero hne, hupper, ?_, ?_, fun _ => hlower⟩
  · show -1074 ≤ (n.log2 : Int) - 52
    omega
  · show (n.log2 : Int) - 52 ≤ 971
    omega

/-- It is converted as it is. -/
theorem unpack_ofNat_of_lt {n : Nat} (hpos : n ≠ 0) (hlt : n < 2 ^ 53) :
    (Float.ofNat n).toModel.unpack =
      .finite .positive (n * 2 ^ (52 - n.log2)) (n.log2 - 52) (holds_whole hpos hlt).pos := by
  have hlog := (Nat.log2_lt hpos).2 hlt
  have hholds := holds_whole hpos hlt
  have hround : UnpackedFloat.round Format.binary64 .positive n 0 =
      .finite .positive (n * 2 ^ (52 - n.log2)) (n.log2 - 52) hholds.pos := by
    have htarget : Format.binary64.targetExponent (totalExponent n 0) = n.log2 - 52 := by
      rw [targetExponent_eq, totalExponent]
      omega
    have hshift : (0 - ((n.log2 : Int) - 52)).toNat = 52 - n.log2 := by omega
    have hexponent : (0 : Int) - (52 - n.log2 : Nat) = n.log2 - 52 - (0 : Nat) := by omega
    have hzeros := roundWithAccuracy_zeros (s := .positive) hholds.pos 0 hholds
    rw [Nat.pow_zero, Nat.mul_one] at hzeros
    rw [UnpackedFloat.round, decreaseExponent]
    simp only [htarget, hshift, Nat.shiftLeft_eq, hexponent, hzeros]
  have hunpack : n.toUInt64.toFloat.toModel.unpack =
      .finite .positive (n * 2 ^ (52 - n.log2)) (n.log2 - 52) hholds.pos := by
    rw [toUInt64_toFloat_eq hpos (by omega), hround]
    exact unpack_pack_of_holds hholds
  have hproduct : UnpackedFloat.mul Format.binary64
      (.finite .positive (n * 2 ^ (52 - n.log2)) (n.log2 - 52) hholds.pos)
      (.finite .positive (2 ^ 52) (-52) (by decide)) =
      roundWithAccuracy Format.binary64 .positive (n * 2 ^ (52 - n.log2) * 2 ^ 52)
        (n.log2 - 52 - (52 : Nat)) .exact := rfl
  rw [ofNat_eq hlt, unpack_mul, hunpack, unpack_one, hproduct,
    roundWithAccuracy_zeros hholds.pos 52 hholds, unpack_pack_of_holds hholds]

/-- Any greater one is scaled and rounded once. -/
theorem ofNat_eq_of_le {n : Nat} (hle : 2 ^ 53 ≤ n) : Float.ofNat n = .ofModel (.pack
    (roundWithAccuracy Format.binary64 .positive (n * 2 ^ 53) (-53) .exact)) := by
  have hmodel : Float.ofNat n =
      .ofModel (.pack (UnpackedFloat.ofScientific Format.binary64 n 0)) := by
    rw [Float.ofNat]
    change Float.ofScientific n false 0 = _
    rw [Float.ofScientific, dif_neg (by omega)]
    rfl
  have hround : UnpackedFloat.ofScientific Format.binary64 n 0 =
      roundWithAccuracy Format.binary64 .positive (n <<< 53 * 10 ^ 0) (-53 + 0) .exact := by
    have hsmall : ¬ (0 : Int) < -(2 ^ Format.binary64.exponentBits + n.log2) := by
      change ¬ (0 : Int) < -(2048 + n.log2)
      omega
    rw [UnpackedFloat.ofScientific, dif_neg (by omega), if_neg (by decide), if_neg hsmall,
      if_pos (by decide)]
    rfl
  rw [hmodel, hround, Nat.pow_zero, Nat.mul_one, Nat.shiftLeft_eq, Int.add_zero]

/-- In both cases the parts are those of the number rounded to 53 bits. -/
theorem exists_unpack_ofNat {n : Nat} (hpos : n ≠ 0) (hlt : n < 2 ^ 64) :
    ∃ m e h, (Float.ofNat n).toModel.unpack = .finite .positive m e h ∧
      roundWithAccuracy Format.binary64 .positive (n * 2 ^ 53) (-53) .exact =
        .finite .positive m e h ∧ 2 ^ 52 ≤ m ∧ -52 ≤ e ∧ e ≤ 12 := by
  have hlog : n.log2 < 64 := (Nat.log2_lt hpos).2 hlt
  have hbits : (n * 2 ^ 53).log2 = n.log2 + 53 := by
    rw [← Nat.shiftLeft_eq, log2_shiftLeft hpos]
  by_cases hexact : n < 2 ^ 53
  · have hlog' : n.log2 < 53 := (Nat.log2_lt hpos).2 hexact
    have hholds := holds_whole hpos hexact
    refine ⟨_, _, hholds.pos, unpack_ofNat_of_lt hpos hexact, ?_, ?_, by omega, by omega⟩
    · have hmantissa : n * 2 ^ 53 = n * 2 ^ (52 - n.log2) * 2 ^ (1 + n.log2) := by
        rw [Nat.mul_assoc, ← Nat.pow_add]
        congr 2
        omega
      have hexponent : (-53 : Int) = n.log2 - 52 - (1 + n.log2 : Nat) := by omega
      rw [hmantissa, hexponent]
      exact roundWithAccuracy_zeros hholds.pos _ hholds
    · have hnormal : 2 ^ 52 ≤ n * 2 ^ (52 - n.log2) := hholds.normal (by
        show (-1074 : Int) < n.log2 - 52
        omega)
      exact hnormal
  · obtain ⟨m, e, h, hround, hle, hlt', hparts⟩ := exists_roundWithAccuracy (s := .positive)
      (e := -53) (m := n * 2 ^ 53) .exact (by omega) (by omega)
    refine ⟨m, e, h, ?_, hround, hle, by omega, by omega⟩
    rw [ofNat_eq_of_le (by omega), hround]
    exact positive_ofModel_pack hle hlt' (by omega) (by omega)

/-- A share of one: the quotient of two counters, the second of which is not behind. -/
theorem ofNat_div_ofNat_mem {m n : Nat} (hle : m ≤ n) (hpos : n ≠ 0) (hlt : n < 2 ^ 64) :
    0.0 ≤ Float.ofNat m / Float.ofNat n ∧ Float.ofNat m / Float.ofNat n ≤ 1.0 := by
  obtain ⟨b, d, hb, hn, hround, hnormal, hd, hd'⟩ := exists_unpack_ofNat hpos hlt
  have hn' : Positive (Float.ofNat n) := ⟨b, d, hb, hn⟩
  by_cases hzero : m = 0
  · subst hzero
    have hquotient : Float.ofNat 0 / Float.ofNat n = 0.0 := by
      change Float.ofModel (.pack (UnpackedFloat.div Format.binary64
        (Float.ofNat 0).toModel.unpack (Float.ofNat n).toModel.unpack)) = _
      rw [hn]
      rfl
    rw [hquotient]
    decide
  · obtain ⟨a, c, ha, hm, hround', hnormal', hc, hc'⟩ := exists_unpack_ofNat hzero (by omega)
    have hm' : Positive (Float.ofNat m) := ⟨a, c, ha, hm⟩
    have hbits : (m * 2 ^ 53).log2 = m.log2 + 53 := by
      rw [← Nat.shiftLeft_eq, log2_shiftLeft hzero]
    have hparts : PartsLe a c b d := by
      refine partsLe_of_roundWithAccuracy (by omega) (by omega) ?_ hround' hround
      rw [rank_exact, rank_exact]
      omega
    exact ⟨(hm'.nonneg.div hn').zero_le, div_le_one hm hn hnormal' hnormal (by omega) hparts⟩

end Ranging.Binary64

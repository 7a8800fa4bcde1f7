import Ranging.Proofs.Rounding

/-!
# The shortest decimal reads back

The search for the shortest decimal looks at ever finer grids and takes the first point that lies in
the interval around the number. So whatever it finds reads back. That it finds anything takes an
estimate: a number of at most 53 bits is less than `10 ^ 17` quarters of its unit, so that the points
of the last grids lie closer together than a quarter of the unit.

Reading a decimal depends on its value only. Digits that are laid out in another way, with zeros
after the point or before the first digit, are the same number.
-/

namespace Ranging

namespace Decimal

/-! ## Orders of magnitude -/

/-- A whole number lies between two powers of ten that its number of digits gives. -/
theorem pow_width_bounds {n : ℕ} (hn : n ≠ 0) : 10 ^ (width n - 1) ≤ n ∧ n < 10 ^ width n := by
  have hpos : 0 < width n := Nat.length_toDigits_pos
  constructor
  · by_cases hone : width n = 1
    · rw [hone]
      exact Nat.one_le_iff_ne_zero.2 hn
    · have hshort : ¬ width n ≤ width n - 1 := by omega
      rw [width, Nat.length_toDigits_le_iff (by decide) (by rw [← width]; omega), not_lt] at hshort
      exact hshort
  · exact (Nat.length_toDigits_le_iff (by decide) hpos).1 (Nat.le_refl _)

/-- So does a quotient that is not below one. -/
theorem zpow_width_bounds {a b : ℕ} (hb : b ≠ 0) (hle : b ≤ a) :
    (10 : ℚ) ^ ((width (a / b) : ℤ) - 1) ≤ a / b ∧ (a : ℚ) / b < 10 ^ (width (a / b) : ℤ) := by
  have hquotient : a / b ≠ 0 := (Nat.div_pos hle (Nat.pos_of_ne_zero hb)).ne'
  obtain ⟨hlow, hhigh⟩ := pow_width_bounds hquotient
  have hbpos : (0 : ℚ) < b := by positivity
  have hwidth : ((width (a / b) : ℤ) - 1) = ((width (a / b) - 1 : ℕ) : ℤ) := by
    have hpos : 0 < width (a / b) := Nat.length_toDigits_pos
    omega
  constructor
  · rw [hwidth, zpow_natCast]
    calc (10 : ℚ) ^ (width (a / b) - 1) ≤ (a / b : ℕ) := by exact_mod_cast hlow
      _ ≤ a / b := Nat.cast_div_le
  · rw [zpow_natCast]
    calc (a : ℚ) / b < (a / b : ℕ) + 1 := by
          rw [div_lt_iff₀ hbpos, mul_comm]
          exact_mod_cast Nat.lt_mul_div_succ a (Nat.pos_of_ne_zero hb)
      _ ≤ 10 ^ width (a / b) := by exact_mod_cast hhigh

/-- The order of a fraction is the power of ten at or below it. -/
theorem order_eq {numerator denominator : ℕ} (hn : numerator ≠ 0) (hd : denominator ≠ 0) :
    order numerator denominator = Int.log 10 ((numerator : ℚ) / denominator) := by
  have hten : 1 < 10 := by decide
  symm
  rw [order]
  split
  · rename_i hle
    obtain ⟨hlow, hhigh⟩ := zpow_width_bounds hd hle
    apply log_eq hten hlow
    rwa [sub_add_cancel]
  · rename_i hlt
    -- Below one, the reciprocal has a whole part.
    obtain ⟨hlow, hhigh⟩ := zpow_width_bounds hn (le_of_not_ge hlt)
    have hreach := zpow_le_div_iff (b := 10) (by decide) numerator (Nat.pos_of_ne_zero hd)
      (-((width (denominator / numerator) : ℤ) - 1))
    have hpos : 0 < width (denominator / numerator) := Nat.length_toDigits_pos
    dsimp only
    generalize width (denominator / numerator) = w at *
    have hinverse : ((numerator : ℚ) / denominator)⁻¹ = denominator / numerator := inv_div ..
    have hx : (0 : ℚ) < numerator / denominator := by positivity
    rw [← hinverse] at hlow hhigh
    have hupper : (numerator : ℚ) / denominator ≤ 10 ^ (-((w : ℤ) - 1)) := by
      rw [zpow_neg]
      exact (le_inv_comm₀ (by positivity) hx).1 hlow
    have hlower : (10 : ℚ) ^ (-(w : ℤ)) < numerator / denominator := by
      rw [zpow_neg]
      exact (inv_lt_comm₀ hx (by positivity)).1 hhigh
    have hexponent : (-(-((w : ℤ) - 1))).toNat = w - 1 := by omega
    have hzero : (-((w : ℤ) - 1)).toNat = 0 := by omega
    rw [hexponent, hzero, pow_zero, mul_one] at hreach
    split <;> rename_i hpower
    · apply log_eq hten (hreach.2 hpower)
      refine lt_of_le_of_lt hupper ?_
      exact zpow_lt_zpow_right₀ (by norm_num) (by omega)
    · apply log_eq hten hlower.le
      rw [show -(w : ℤ) + 1 = -((w : ℤ) - 1) by ring]
      exact lt_of_not_ge (mt hreach.1 hpower)

end Decimal

namespace Decimal.RoundingInterval

variable {i : RoundingInterval} {k : ℤ}

/-! ## Points of a grid -/

/-- What numbers are multiplied by on the common scale. -/
def scale (i : RoundingInterval) (k : ℤ) : ℚ :=
  2 ^ (-i.exponent).toNat * 10 ^ (-k).toNat

theorem scale_pos (i : RoundingInterval) (k : ℤ) : 0 < i.scale k := by
  rw [scale]
  positivity

theorem scaled_eq (i : RoundingInterval) (k : ℤ) (quarters : ℕ) :
    (i.scaled k quarters : ℚ) = quarters * 2 ^ i.exponent * i.scale k := by
  rw [scaled, scale]
  simp only [Nat.pow_eq]
  push_cast
  rw [pow_toNat two_ne_zero]
  ring

theorem step_eq (i : RoundingInterval) (k : ℤ) : (i.step k : ℚ) = 10 ^ k * i.scale k := by
  rw [step, scale]
  simp only [Nat.pow_eq]
  push_cast
  rw [pow_toNat (b := 10) (by norm_num)]
  ring

/-- A point is covered if it lies in the interval. -/
theorem covers_iff {n : ℕ} : i.covers k n = true ↔ i.Contains (n * 10 ^ k) := by
  have hscale := i.scale_pos k
  have hle (a b : ℕ) {x y : ℚ} (ha : (a : ℚ) = x * i.scale k) (hb : (b : ℚ) = y * i.scale k) :
      a ≤ b ↔ x ≤ y := by
    rw [← Nat.cast_le (α := ℚ), ha, hb, mul_le_mul_iff_left₀ hscale]
  have hpoint : ((n * i.step k : ℕ) : ℚ) = n * 10 ^ k * i.scale k := by
    push_cast
    rw [step_eq, mul_assoc]
  have hlow := hle _ _ (i.scaled_eq k i.low) hpoint
  have hhigh := hle _ _ hpoint (i.scaled_eq k i.high)
  have hlow' := hle _ _ hpoint (i.scaled_eq k i.low)
  have hhigh' := hle _ _ (i.scaled_eq k i.high) hpoint
  rw [covers, Contains]
  cases i.closed with
  | true => simp [hlow, hhigh]
  | false =>
      simp only [Bool.false_eq_true, if_false, Bool.and_eq_true, decide_eq_true_eq, ← not_le,
        hlow', hhigh']
      simp only [not_le, lt_iff_le_and_ne, forall_const, ne_eq, eq_comm]
      tauto

/-- The point of a grid at or below the number and the next one. -/
theorem below_bounds (i : RoundingInterval) (k : ℤ) :
    ((i.scaled k i.centre / i.step k : ℕ) : ℚ) * 10 ^ k ≤ i.centre * 2 ^ i.exponent ∧
      (i.centre : ℚ) * 2 ^ i.exponent <
        ((i.scaled k i.centre / i.step k + 1 : ℕ) : ℚ) * 10 ^ k := by
  have hscale := i.scale_pos k
  have hstep : 0 < i.step k := Nat.mul_pos (Nat.pow_pos two_pos) (Nat.pow_pos (by decide))
  have hlow : ((i.scaled k i.centre / i.step k : ℕ) : ℚ) * i.step k ≤ i.scaled k i.centre := by
    exact_mod_cast Nat.div_mul_le_self (i.scaled k i.centre) (i.step k)
  have hhigh : (i.scaled k i.centre : ℚ) <
      ((i.scaled k i.centre / i.step k + 1 : ℕ) : ℚ) * i.step k := by
    rw [mul_comm]
    exact_mod_cast Nat.lt_mul_div_succ (i.scaled k i.centre) hstep
  rw [scaled_eq, step_eq, ← mul_assoc] at hlow hhigh
  exact ⟨le_of_mul_le_mul_right hlow hscale, lt_of_mul_lt_mul_right hhigh hscale.le⟩

/-- What is found on a grid is covered. -/
theorem covers_of_onGrid? {tie : Tie} {n : ℕ} (h : i.onGrid? tie k = some n) :
    i.covers k n = true := by
  rw [onGrid?] at h
  split at h
  · cases h
  · rename_i hbelow _
    cases h
    exact hbelow
  · rename_i _ habove
    cases h
    exact habove
  · rename_i hbelow habove
    cases h
    rcases roundDiv_eq_or tie (i.scaled k i.centre) (i.step k) with heq | heq
    · rw [heq]
      exact hbelow
    · rw [heq]
      exact habove

/-- A grid that is finer than a quarter of the unit has a point in the interval. -/
theorem isSome_onGrid? (tie : Tie) (hlow : i.low + 1 ≤ i.centre) (hhigh : i.centre < i.high)
    (hfine : (10 : ℚ) ^ k < 2 ^ i.exponent) : (i.onGrid? tie k).isSome = true := by
  obtain ⟨hbelow, habove⟩ := i.below_bounds k
  have hlowQ : (i.low : ℚ) + 1 ≤ i.centre := by exact_mod_cast hlow
  have hhighQ : (i.centre : ℚ) < i.high := by exact_mod_cast hhigh
  have hunit : (0 : ℚ) < 2 ^ i.exponent := by positivity
  have hcovers : i.covers k (i.scaled k i.centre / i.step k) = true := by
    rw [covers_iff]
    push_cast at habove
    have hless : (i.low : ℚ) * 2 ^ i.exponent <
        (i.scaled k i.centre / i.step k : ℕ) * 10 ^ k := by nlinarith
    have hmore : ((i.scaled k i.centre / i.step k : ℕ) : ℚ) * 10 ^ k < i.high * 2 ^ i.exponent := by
      nlinarith
    exact ⟨hless.le, hmore.le, fun _ => ⟨hless.ne, hmore.ne⟩⟩
  rw [onGrid?, hcovers]
  cases i.covers k (i.scaled k i.centre / i.step k + 1) <;> rfl

end Decimal.RoundingInterval

namespace Decimal

open RoundingInterval

variable {f : BinaryFormat} {m : Magnitude}

/-- The order at which the search starts is that of the number. -/
theorem order_scaled_eq (i : RoundingInterval) (hcentre : i.centre ≠ 0) :
    order (i.scaled 0 i.centre) (i.step 0) = Int.log 10 ((i.centre : ℚ) * 2 ^ i.exponent) := by
  have hscale := (i.scale_pos 0).ne'
  have hscaled : i.scaled 0 i.centre ≠ 0 :=
    Nat.mul_ne_zero (Nat.mul_ne_zero hcentre (Nat.pow_pos two_pos).ne') (Nat.pow_pos (by decide)).ne'
  have hstep : i.step 0 ≠ 0 :=
    Nat.mul_ne_zero (Nat.pow_pos two_pos).ne' (Nat.pow_pos (by decide)).ne'
  rw [order_eq hscaled hstep, scaled_eq, step_eq, zpow_zero, one_mul,
    mul_div_cancel_right₀ _ hscale]

/-- The search gets to a grid that is finer than a quarter of the unit. -/
theorem zpow_order_lt (hm : f.Holds m) (hprecision : f.precision ≤ 53) :
    (10 : ℚ) ^ (order ((ofMagnitude f m).scaled 0 (ofMagnitude f m).centre)
      ((ofMagnitude f m).step 0) - 18) < 2 ^ (ofMagnitude f m).exponent := by
  have hcentre : (ofMagnitude f m).centre ≠ 0 := Nat.mul_ne_zero (by decide) hm.pos.ne'
  have hunit : (0 : ℚ) < 2 ^ (ofMagnitude f m).exponent := by positivity
  have hvalue : (0 : ℚ) < (ofMagnitude f m).centre * 2 ^ (ofMagnitude f m).exponent := by positivity
  have horder := Int.zpow_log_le_self (b := 10) (by decide) hvalue
  have hbits : ((ofMagnitude f m).centre : ℚ) < 4 * 2 ^ 53 := by
    have hlt : m.significand < 2 ^ 53 :=
      Nat.lt_of_lt_of_le hm.lt (Nat.pow_le_pow_right two_pos hprecision)
    have hltQ : (m.significand : ℚ) < 2 ^ 53 := by exact_mod_cast hlt
    change ((4 * m.significand : ℕ) : ℚ) < _
    push_cast
    linarith
  rw [order_scaled_eq _ hcentre, zpow_sub₀ (by norm_num), div_lt_iff₀ (by norm_num)]
  calc (10 : ℚ) ^ Int.log 10 ((ofMagnitude f m).centre * 2 ^ (ofMagnitude f m).exponent : ℚ)
      ≤ (ofMagnitude f m).centre * 2 ^ (ofMagnitude f m).exponent := horder
    _ < 4 * 2 ^ 53 * 2 ^ (ofMagnitude f m).exponent := by gcongr
    _ ≤ 2 ^ (ofMagnitude f m).exponent * 10 ^ (18 : ℤ) := by
        rw [mul_comm]
        gcongr
        norm_num

/-- The shortest decimal of a number of a format rounds to it. -/
theorem shortest_contains (tie : Tie) (hm : f.Holds m) (hprecision : f.precision ≤ 53) :
    (ofMagnitude f m).Contains (shortest tie f m).value := by
  have hpos := hm.pos
  have hlow : (ofMagnitude f m).low + 1 ≤ (ofMagnitude f m).centre := by
    rw [ofMagnitude_low]
    change _ ≤ 4 * m.significand
    split <;> omega
  have hhigh : (ofMagnitude f m).centre < (ofMagnitude f m).high := by
    change 4 * m.significand < 4 * m.significand + 2
    omega
  have hfine := zpow_order_lt hm hprecision
  rw [shortest]
  dsimp only
  generalize order ((ofMagnitude f m).scaled 0 (ofMagnitude f m).centre)
    ((ofMagnitude f m).step 0) = top at *
  have hfound : ((List.range 20).findSome? fun (finer : ℕ) =>
      ((ofMagnitude f m).onGrid? tie (top + 1 - finer)).map fun digits =>
        ({ digits, exponent := top + 1 - finer } : Decimal)).isSome = true := by
    rw [List.findSome?_isSome_iff]
    refine ⟨19, List.mem_range.2 (by decide), ?_⟩
    have hgrid : top + 1 - ((19 : ℕ) : ℤ) = top - 18 := by omega
    rw [Option.isSome_map, hgrid]
    exact isSome_onGrid? tie hlow hhigh hfine
  obtain ⟨d, hd⟩ := Option.isSome_iff_exists.1 hfound
  rw [hd, Option.getD_some]
  obtain ⟨finer, -, hgrid⟩ := List.exists_of_findSome?_eq_some hd
  obtain ⟨n, hn, rfl⟩ := Option.map_eq_some_iff.1 hgrid
  exact covers_iff.1 (covers_of_onGrid? hn)

/-! ## Reading decimals -/

/-- A decimal lies between two powers of ten that its number of digits and its exponent give. -/
theorem value_bounds {d : Decimal} (hd : d.digits ≠ 0) :
    (10 : ℚ) ^ (width d.digits + d.exponent - 1) ≤ d.value ∧
      d.value < 10 ^ (width d.digits + d.exponent) := by
  obtain ⟨hlow, hhigh⟩ := pow_width_bounds hd
  have hpos : 0 < width d.digits := Nat.length_toDigits_pos
  have hten : (10 : ℚ) ≠ 0 := by norm_num
  rw [value]
  constructor
  · have hsplit : (width d.digits + d.exponent - 1 : ℤ) =
        ((width d.digits - 1 : ℕ) : ℤ) + d.exponent := by omega
    rw [hsplit, zpow_add₀ hten, zpow_natCast]
    gcongr
    exact_mod_cast hlow
  · rw [zpow_add₀ hten, zpow_natCast]
    gcongr
    exact_mod_cast hhigh

/-- Whatever rounds to a number other than zero is neither below the least number nor beyond the
greatest one by much. -/
theorem bounds_of_contains (hm : BinaryFormat.binary64.Holds m) {x : ℚ}
    (h : (ofMagnitude .binary64 m).Contains x) : (10 : ℚ) ^ (-330 : ℤ) ≤ x ∧ x < 10 ^ (310 : ℤ) := by
  obtain ⟨hlow, hhigh, -⟩ := h
  have hminimum : (-1076 : ℤ) ≤ m.exponent - 2 := by
    have hle : (-1074 : ℤ) ≤ m.exponent := hm.minExponent_le
    omega
  have hmaximum : m.exponent - 2 ≤ 969 := by
    have hle : m.exponent ≤ 971 := hm.le_maxExponent
    omega
  have hbottom : (1 : ℚ) ≤ (ofMagnitude .binary64 m).low := by
    have hpos := hm.pos
    have hone : 1 ≤ (ofMagnitude .binary64 m).low := by
      rw [ofMagnitude_low]
      split <;> omega
    exact_mod_cast hone
  have htop : ((ofMagnitude .binary64 m).high : ℚ) ≤ 2 ^ (55 : ℤ) := by
    have hle : 4 * m.significand + 2 ≤ 2 ^ 55 := by
      have hlt : m.significand < 2 ^ 53 := hm.lt
      omega
    exact_mod_cast hle
  have hleast : 2 ^ 1076 ≤ 10 ^ 330 := by decide +kernel
  have hgreatest : 2 ^ 55 * 2 ^ 969 < 10 ^ 310 := by decide +kernel
  constructor
  · calc (10 : ℚ) ^ (-330 : ℤ) ≤ 2 ^ (-1076 : ℤ) := by
          rw [zpow_neg, zpow_neg]
          apply inv_anti₀ (by positivity)
          exact_mod_cast hleast
      _ ≤ 2 ^ (m.exponent - 2) := zpow_le_zpow_right₀ (by norm_num) hminimum
      _ ≤ (ofMagnitude .binary64 m).low * 2 ^ (m.exponent - 2) :=
          le_mul_of_one_le_left (by positivity) hbottom
      _ ≤ x := hlow
  · calc x ≤ (ofMagnitude .binary64 m).high * 2 ^ (m.exponent - 2) := hhigh
      _ ≤ 2 ^ (55 : ℤ) * 2 ^ (969 : ℤ) := by
          have hpow : (2 : ℚ) ^ (m.exponent - 2) ≤ 2 ^ (969 : ℤ) :=
            zpow_le_zpow_right₀ (by norm_num) hmaximum
          gcongr
      _ < 10 ^ (310 : ℤ) := by exact_mod_cast hgreatest

theorem digits_ne_zero {d : Decimal} (hm : BinaryFormat.binary64.Holds m)
    (h : (ofMagnitude .binary64 m).Contains d.value) : d.digits ≠ 0 := by
  obtain ⟨hleast, -⟩ := bounds_of_contains hm h
  intro hzero
  rw [value, hzero, Nat.cast_zero, zero_mul] at hleast
  exact absurd hleast (not_le.2 (by positivity))

/-- A decimal that rounds to a number is read as this number. -/
theorem toFloat?_eq {d : Decimal} (negative : Bool) (hm : BinaryFormat.binary64.Holds m)
    (h : (ofMagnitude .binary64 m).Contains d.value) :
    d.toFloat? negative = some (m.toFloat negative) := by
  obtain ⟨hleast, hgreatest⟩ := bounds_of_contains hm h
  have hdigits := digits_ne_zero hm h
  obtain ⟨hlow, hhigh⟩ := value_bounds hdigits
  have hnotSmall : ¬ (width d.digits + d.exponent : ℤ) < -330 := by
    intro hlt
    have hpow : (10 : ℚ) ^ (width d.digits + d.exponent : ℤ) ≤ 10 ^ (-330 : ℤ) :=
      zpow_le_zpow_right₀ (by norm_num) (by omega)
    linarith
  have hnotLarge : ¬ (310 : ℤ) < width d.digits + d.exponent := by
    intro hlt
    have hpow : (10 : ℚ) ^ (310 : ℤ) ≤ 10 ^ (width d.digits + d.exponent - 1 : ℤ) :=
      zpow_le_zpow_right₀ (by norm_num) (by omega)
    linarith
  have hquotient : ((d.digits * 10 ^ d.exponent.toNat : ℕ) : ℚ) / (10 ^ (-d.exponent).toNat : ℕ) =
      d.value := by
    have hpos : (0 : ℚ) < 10 ^ (-d.exponent).toNat := by positivity
    push_cast
    rw [pow_toNat (by norm_num), ← mul_assoc, mul_div_cancel_right₀ _ hpos.ne', value]
  have hnearest : Magnitude.nearest? .binary64 (d.digits * 10 ^ d.exponent.toNat)
      (10 ^ (-d.exponent).toNat) = some m := by
    apply Magnitude.nearest?_eq hm
    · decide
    · positivity
    · positivity
    · rwa [hquotient]
  have hguard : ¬ (d.digits = 0 ∨ (width d.digits + d.exponent : ℤ) < -330) :=
    not_or.2 ⟨hdigits, hnotSmall⟩
  rw [toFloat?]
  simp only [if_neg hguard, if_neg hnotLarge, Nat.pow_eq, hnearest, Option.map_some]

end Decimal

end Ranging

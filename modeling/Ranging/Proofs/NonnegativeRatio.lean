import Ranging.Proofs.Run
import Ranging.Proofs.Ticks
import Ranging.Proofs.UnitInterval
import Ranging.Proofs.Validation

/-!
# Ratios are never negative

Where no ratio can be formed, a number stands for it that is also a candidate for the clock filter:
minus one. It is rejected like any other candidate that is out of bounds and far from the current
ratio, and that it is far rests on two things: the noise band is no wider than one, and the current
ratio is not negative.

The second is an invariant. Counter readings give a candidate that is not negative, or the number
that stands for none. The former leave a ratio that is not negative either, by whatever valid
constants the two are blended, and the latter is not accepted and not within bounds.
-/

namespace Ranging

open Binary64

namespace RatioFilter

theorem candidate_eq_noRatio_or_nonneg (newReference oldReference newOther oldOther : UInt64) :
    candidate newReference oldReference newOther oldOther Ticks.counterMask = (noRatio : Float) ∨
    Nonneg (candidate newReference oldReference newOther oldOther Ticks.counterMask) := by
  have hlt : ∀ x : UInt64, (x &&& Ticks.counterMask).toNat < 2 ^ 53 := by
    intro x
    rw [Ticks.toNat_and_counterMask]
    omega
  unfold candidate
  by_cases hother : (newOther - oldOther) &&& Ticks.counterMask = 0
  · exact Or.inl (if_pos hother)
  · refine Or.inr ?_
    dsimp only
    rw [if_neg hother]
    have hne : ((newOther - oldOther) &&& Ticks.counterMask).toNat ≠ 0 := by
      intro hzero
      exact hother (UInt64.toNat_inj.1 hzero)
    exact (nonneg_ofNat (hlt _)).div (positive_ofNat hne (hlt _))

/-- No ratio is not within bounds, because the lower bound is positive. -/
theorem Valid.inBounds_noRatio {f : RatioFilter Float} (hvalid : f.Valid) :
    f.inBounds noRatio = false := by
  obtain ⟨hpos, hlt⟩ := hvalid.deviation
  have hpositive := positive_of_isFinite hpos (isFinite_of_lt_of_lt hpos hlt)
  obtain ⟨hdouble, hbelow⟩ := hpositive.double_lt_one hlt
  have hlower : ¬ f.lowerBound < noRatio := (hdouble.one_sub hbelow).nonneg.not_lt_neg_one
  rw [inBounds, Bool.and_eq_false_iff]
  exact Or.inl (decide_eq_false hlower)

variable {f : RatioFilter Float} {s : RatioState Float} {c : Float}

section Valid

variable (hvalid : f.Valid) (hratio : Nonneg s.ratio)

include hvalid hratio

/-- No ratio is not accepted either. -/
theorem Valid.accepts_noRatio (hnoise : f.acceptedNoise ≤ 1.0) : f.accepts s noRatio = false := by
  have hlow : ¬ -f.acceptedNoise < noRatio - s.ratio := hratio.not_neg_lt hvalid.noise hnoise
  rw [accepts, isNoise, Bool.and_eq_false_iff]
  exact Or.inl (decide_eq_false hlow)

/-- The blend with an accepted candidate is not negative. -/
theorem Valid.nonneg_blend (hc : Nonneg c) (haccepts : f.accepts s c = true) :
    Nonneg (f.blend s.ratio c) := by
  rw [accepts, isNoise, Bool.and_eq_true, decide_eq_true_eq, decide_eq_true_eq] at haccepts
  have hfinite := isFinite_of_isFinite_sub (isFinite_of_lt_of_lt haccepts.1 haccepts.2)
  obtain ⟨hle, hlt⟩ := hvalid.weight
  exact hratio.mul_add hfinite hle hlt (hc.mul (positive_one_sub hle hlt))

/-- Whatever the candidate, the ratio does not become negative. -/
theorem Valid.nonneg_update (hnoise : f.acceptedNoise ≤ 1.0) (hc : c = noRatio ∨ Nonneg c) :
    Nonneg (f.update s c).2.ratio := by
  rw [update_ratio]
  rcases hc with rfl | hc
  · rw [hvalid.accepts_noRatio hratio hnoise, takesReference, hvalid.inBounds_noRatio,
      Bool.and_false]
    exact hratio
  · split
    · rename_i haccepts
      exact hvalid.nonneg_blend hratio hc haccepts
    · split
      · exact hc
      · exact hratio

end Valid

end RatioFilter

namespace Receiver

theorem ratioCandidate?_noRatio_or_nonneg {ρ : Record Float} {txTime rxTime : Ticks}
    {candidate : Float} (h : ratioCandidate? ρ txTime rxTime = some candidate) :
    candidate = RatioFilter.noRatio ∨ Nonneg candidate := by
  simp only [ratioCandidate?, Option.bind_eq_bind, Option.bind_eq_some_iff, Option.pure_def,
    Option.some.injEq] at h
  obtain ⟨_, -, _, -, rfl⟩ := h
  exact RatioFilter.candidate_eq_noRatio_or_nonneg ..

section Valid

variable {f : RatioFilter Float} (hvalid : f.Valid) (hnoise : f.acceptedNoise ≤ 1.0)

include hvalid hnoise

/-- A packet keeps its anchor's ratio from being negative. -/
theorem nonneg_timing {ρ : Record Float} (h : Nonneg ρ.clock.ratio) (a : Arrival Float) :
    Nonneg (ρ.timing f a).2.ratio := by
  rw [Record.timing]
  split
  · exact h
  · rename_i hcandidate
    exact hvalid.nonneg_update h hnoise (ratioCandidate?_noRatio_or_nonneg hcandidate)

theorem nonneg_receiveAll {ρ : Record Float} (h : Nonneg ρ.clock.ratio)
    (as : List (Arrival Float)) : Nonneg (ρ.receiveAll f as).clock.ratio := by
  induction as using List.reverseRecOn with
  | nil => exact h
  | append_singleton as a ih =>
      rw [Record.receiveAll_concat, Record.receive_clock]
      exact nonneg_timing hvalid hnoise ih a

end Valid

/-- No stored ratio is negative. -/
theorem nonneg_ratio_of_find? {r : Receiver Float} (hsound : r.table.Sound)
    (hvalid : r.filter.Valid) (hnoise : r.filter.acceptedNoise ≤ 1.0) {id : AnchorId}
    (hstart : r.table.find? id = none) {as : List (Arrival Float)} {ρ : Record Float}
    (hfind : (r.afterAll as).table.find? id = some ρ) : Nonneg ρ.clock.ratio := by
  obtain ⟨_, _, -, -, -, rfl⟩ := exists_record_eq hsound hstart hfind
  exact nonneg_receiveAll hvalid hnoise (ρ := r.table.blank id) nonneg_zero _

end Receiver

end Ranging

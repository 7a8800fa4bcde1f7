import Mathlib.Algebra.Order.Group.MinMax
import Mathlib.Order.Interval.Set.UnorderedInterval
import Mathlib.Tactic.Linarith
import Mathlib.Tactic.Ring
import Ranging.Proofs.ExactArithmetic
import Ranging.Proofs.FilterRun
import Ranging.Proofs.Validation

/-!
# A drifting clock

The filter follows a clock whose frequency drifts, and lags behind it. With exact arithmetic the lag
can be bounded: after an accepted candidate it is the weight of the old ratio times what it was
before, and so at most the weight times the accepted noise. A candidate that is less than the rest of
the noise away from the one before therefore falls into the noise band around the ratio again. That
is the invariant of `RatioFilter.drifting_accepted`.
-/

namespace Ranging

namespace RatioFilter

variable {K : Type} [Field K] [LinearOrder K] [FloorRing K]
  {f : RatioFilter K} {s : RatioState K} {c : K}

/-- The candidate takes what the weight leaves. -/
theorem blend_eq (ratio : K) : f.blend ratio c = ratio * f.weight + c * (1 - f.weight) := by
  rw [blend]
  norm_num

theorem sub_blend (ratio : K) : c - f.blend ratio c = f.weight * (c - ratio) := by
  rw [blend_eq]
  ring

theorem Valid.weight_nonneg (hvalid : f.Valid) : 0 ≤ f.weight := by
  have h := hvalid.weight.1
  norm_num at h
  exact h

theorem Valid.weight_lt_one (hvalid : f.Valid) : f.weight < 1 := by
  have h := hvalid.weight.2
  norm_num at h
  exact h

variable [IsStrictOrderedRing K]

theorem accepts_iff_abs_lt : f.accepts s c = true ↔ |c - s.ratio| < f.acceptedNoise := by
  rw [accepts, isNoise, Bool.and_eq_true, decide_eq_true_eq, decide_eq_true_eq, abs_lt]

section Valid

variable (hvalid : f.Valid)

include hvalid

/-- A blend lies between its two parts. -/
theorem Valid.blend_mem_uIcc (ratio : K) : f.blend ratio c ∈ Set.uIcc ratio c := by
  have hrest : 0 ≤ 1 - f.weight := sub_nonneg.2 hvalid.weight_lt_one.le
  have hbehind := sub_blend (f := f) (c := c) ratio
  have hahead : f.blend ratio c - ratio = (1 - f.weight) * (c - ratio) := by
    rw [blend_eq]
    ring
  rw [Set.mem_uIcc]
  rcases le_total ratio c with hle | hle
  · refine Or.inl ⟨sub_nonneg.1 ?_, sub_nonneg.1 ?_⟩
    · rw [hahead]
      exact mul_nonneg hrest (sub_nonneg.2 hle)
    · rw [hbehind]
      exact mul_nonneg hvalid.weight_nonneg (sub_nonneg.2 hle)
  · refine Or.inr ⟨sub_nonpos.1 ?_, sub_nonpos.1 ?_⟩
    · rw [hbehind]
      exact mul_nonpos_of_nonneg_of_nonpos hvalid.weight_nonneg (sub_nonpos.2 hle)
    · rw [hahead]
      exact mul_nonpos_of_nonneg_of_nonpos hrest (sub_nonpos.2 hle)

/-- After a candidate within the noise band the ratio is behind it by a fraction of the noise. -/
theorem Valid.abs_sub_update_le (h : |c - s.ratio| < f.acceptedNoise) :
    |c - (f.update s c).2.ratio| ≤ f.weight * f.acceptedNoise := by
  rw [update_of_accepts (accepts_iff_abs_lt.2 h)]
  calc |c - f.blend s.ratio c| = f.weight * |c - s.ratio| := by
        rw [sub_blend, abs_mul, abs_of_nonneg hvalid.weight_nonneg]
    _ ≤ f.weight * f.acceptedNoise := mul_le_mul_of_nonneg_left h.le hvalid.weight_nonneg

/-- So the next candidate falls into the band again, unless it is too far from this one. -/
theorem Valid.abs_sub_update_lt {d : K} (h : |c - s.ratio| < f.acceptedNoise)
    (hdrift : |d - c| < (1 - f.weight) * f.acceptedNoise) :
    |d - (f.update s c).2.ratio| < f.acceptedNoise := by
  have hlag := hvalid.abs_sub_update_le h
  calc |d - (f.update s c).2.ratio| ≤ |d - c| + |c - (f.update s c).2.ratio| := abs_sub_le _ _ _
    _ < (1 - f.weight) * f.acceptedNoise + f.weight * f.acceptedNoise := by linarith
    _ = f.acceptedNoise := by ring

end Valid

/-- Candidates of which the first is within the noise band, and each other one is close enough to
the one before, are all accepted. After each of them the ratio lies between what it was and the
candidate, and differs from the candidate by at most the weight times the accepted noise. -/
theorem drifting_accepted (hvalid : f.validate = .ok ()) {cs : List K}
    (hfirst : |c - s.ratio| < f.acceptedNoise)
    (hdrift : (c :: cs).IsChain fun d d' => |d' - d| < (1 - f.weight) * f.acceptedNoise)
    {before after : List K} {d : K} (hsplit : c :: cs = before ++ d :: after) :
    let t := f.updateAll s before
    (f.update t d).1 = true ∧ |d - (f.update t d).2.ratio| ≤ f.weight * f.acceptedNoise ∧
      (f.update t d).2.ratio ∈ Set.uIcc t.ratio d := by
  have hvalid' := validate_eq_ok_iff.1 hvalid
  induction before generalizing s c cs with
  | nil =>
      cases hsplit
      have haccepts := accepts_iff_abs_lt.2 hfirst
      refine ⟨(update_fst ..).trans haccepts, hvalid'.abs_sub_update_le hfirst, ?_⟩
      rw [updateAll_nil, update_of_accepts haccepts]
      exact hvalid'.blend_mem_uIcc _
  | cons b before ih =>
      rw [List.cons_append] at hsplit
      obtain ⟨rfl, rfl⟩ := List.cons.inj hsplit
      -- What follows the first candidate begins with some candidate, which is close to it.
      obtain ⟨c', cs', hnext⟩ := List.exists_cons_of_ne_nil (l := before ++ d :: after) (by simp)
      rw [hnext, List.isChain_cons_cons] at hdrift
      exact ih (hvalid'.abs_sub_update_lt hfirst hdrift.1) hdrift.2 hnext.symm

/-- A clock that gets faster by 20 parts in a billion from candidate to candidate. -/
def speedingUp : List ℚ :=
  [1 + 20 / 10 ^ 9, 1 + 40 / 10 ^ 9, 1 + 60 / 10 ^ 9]

/-- By the third candidate it is out of the band in which it began, and still followed. -/
theorem drifting_accepted_speedingUp :
    (standard (K := ℚ)).validate = .ok () ∧
    (speedingUp.IsChain fun d d' =>
      |d' - d| < (1 - standard.weight) * (standard (K := ℚ)).acceptedNoise) ∧
    ∃ t, t = standard.updateAll ⟨1, 0⟩ (speedingUp.take 2) ∧
      (standard.update t (1 + 60 / 10 ^ 9)).1 = true ∧
      |1 + 60 / 10 ^ 9 - (standard.update t (1 + 60 / 10 ^ 9)).2.ratio| ≤ 3 / 10 ^ 9 ∧
      ¬ |(1 + 60 / 10 ^ 9 : ℚ) - 1| < (standard (K := ℚ)).acceptedNoise := by
  have hvalid : (standard (K := ℚ)).validate = .ok () :=
    validate_eq_ok_iff.2 ⟨by decide +kernel, by decide +kernel, by decide +kernel, by decide⟩
  have hfirst : |(1 + 20 / 10 ^ 9 : ℚ) - (⟨1, 0⟩ : RatioState ℚ).ratio| <
      (standard (K := ℚ)).acceptedNoise := by decide +kernel
  have hdrift : speedingUp.IsChain fun d d' =>
      |d' - d| < (1 - standard.weight) * (standard (K := ℚ)).acceptedNoise := by decide +kernel
  have hsplit : speedingUp = speedingUp.take 2 ++ (1 + 60 / 10 ^ 9) :: [] := rfl
  obtain ⟨haccepted, hlag, -⟩ := drifting_accepted hvalid hfirst hdrift hsplit
  have hnoise : (standard (K := ℚ)).weight * (standard (K := ℚ)).acceptedNoise = 3 / 10 ^ 9 := by
    decide +kernel
  rw [hnoise] at hlag
  exact ⟨hvalid, hdrift, _, rfl, haccepted, hlag, by decide +kernel⟩

end RatioFilter

end Ranging

import Ranging.Proofs.Tracking
import Ranging.Proofs.Bucket

/-!
# The physical bounds of a ratio

A new reference has to lie within the physical bounds. A candidate that is accepted does not: it is
close to the ratio, and that is all that is asked of it. So a ratio near a bound can be moved across
it by a candidate that lies beyond (`RatioFilter.leaves_bounds`).

How far a ratio can stray is up to the candidates. One that is accepted moves the ratio across a
bound exactly if it lies far enough beyond, compared with the distance that the ratio keeps from the
bound (`Overshoots`). And any interval around the bounds that has all accepted candidates also has
the ratio (`RatioFilter.within_bounds_iff`).
-/

namespace Ranging

namespace RatioFilter

section Reference

variable {K : Type} [Scalar K] {f : RatioFilter K} {s : RatioState K} {c : K}

/-- A candidate that is not accepted leaves the ratio alone, or replaces it from within the
bounds. -/
theorem update_ratio_of_not_accepts (h : f.accepts s c = false) :
    (f.update s c).2.ratio = s.ratio ∨
      (f.update s c).2.ratio = c ∧ f.lowerBound < c ∧ c < f.upperBound := by
  by_cases hsame : (f.update s c).2.ratio = s.ratio
  · exact Or.inl hsame
  · obtain ⟨-, hbounds, hupdate⟩ := reference_of_ratio_ne h hsame
    exact Or.inr ⟨congrArg RatioState.ratio hupdate, inBounds_iff.1 hbounds⟩

end Reference

variable {K : Type} [Field K] [LinearOrder K] [FloorRing K]

/-- The ratio lies within the physical bounds, or on one of them. -/
def Within (f : RatioFilter K) (s : RatioState K) : Prop :=
  f.lowerBound ≤ s.ratio ∧ s.ratio ≤ f.upperBound

/-- The candidate is accepted and lies so far beyond a bound that its share of the new ratio
outweighs the distance that the old one keeps from this bound. -/
def Overshoots (f : RatioFilter K) (s : RatioState K) (c : K) : Prop :=
  f.accepts s c = true ∧
    (f.weight * (f.upperBound - s.ratio) < (1 - f.weight) * (c - f.upperBound) ∨
      f.weight * (s.ratio - f.lowerBound) < (1 - f.weight) * (f.lowerBound - c))

variable [IsStrictOrderedRing K] {f : RatioFilter K} {s : RatioState K} {c : K}

/-- The only way across a bound. -/
theorem within_update_iff (h : f.Within s) : f.Within (f.update s c).2 ↔ ¬ f.Overshoots s c := by
  obtain ⟨hlow, hhigh⟩ := h
  cases haccepts : f.accepts s c with
  | true =>
      have habove : f.upperBound - f.blend s.ratio c =
          f.weight * (f.upperBound - s.ratio) - (1 - f.weight) * (c - f.upperBound) := by
        rw [blend_eq]
        ring
      have hbelow : f.blend s.ratio c - f.lowerBound =
          f.weight * (s.ratio - f.lowerBound) - (1 - f.weight) * (f.lowerBound - c) := by
        rw [blend_eq]
        ring
      rw [Within, Overshoots, update_of_accepts haccepts]
      simp only [haccepts, true_and, not_or, not_lt]
      rw [← sub_nonneg, hbelow, sub_nonneg, ← sub_nonneg (b := f.blend _ _), habove, sub_nonneg]
      exact and_comm
  | false =>
      have hnone : ¬ f.Overshoots s c := by
        rintro ⟨haccepted, -⟩
        rw [haccepts] at haccepted
        cases haccepted
      refine iff_of_true ?_ hnone
      rcases update_ratio_of_not_accepts haccepts with hratio | ⟨hratio, hlow', hhigh'⟩
      · rw [Within, hratio]
        exact ⟨hlow, hhigh⟩
      · rw [Within, hratio]
        exact ⟨hlow'.le, hhigh'.le⟩

/-- An interval around the bounds keeps the ratio if it has the candidate, or the candidate is not
accepted. -/
theorem Valid.update_ratio_mem (hvalid : f.Valid) {lo hi : K} (hlo : lo ≤ f.lowerBound)
    (hhi : f.upperBound ≤ hi) (hc : f.accepts s c = true → lo ≤ c ∧ c ≤ hi)
    (h : lo ≤ s.ratio ∧ s.ratio ≤ hi) :
    lo ≤ (f.update s c).2.ratio ∧ (f.update s c).2.ratio ≤ hi := by
  cases haccepts : f.accepts s c with
  | true =>
      rw [update_of_accepts haccepts]
      exact Set.uIcc_subset_Icc h (hc haccepts) (hvalid.blend_mem_uIcc s.ratio)
  | false =>
      rcases update_ratio_of_not_accepts haccepts with hratio | ⟨hratio, hlow, hhigh⟩
      · rwa [hratio]
      · rw [hratio]
        exact ⟨hlo.trans hlow.le, hhigh.le.trans hhi⟩

/-- From a reference within bounds, the ratio stays within them all along exactly if no candidate
overshoots, and it stays in any interval around the bounds that has all accepted candidates. -/
theorem within_bounds_iff (hvalid : f.validate = .ok ())
    (hreference : f.lowerBound < s.ratio ∧ s.ratio < f.upperBound) (cs : List K) :
    ((∀ before, before <+: cs → f.Within (f.updateAll s before)) ↔
      ∀ before c after, cs = before ++ c :: after → ¬ f.Overshoots (f.updateAll s before) c) ∧
    ∀ lo hi, lo ≤ f.lowerBound → f.upperBound ≤ hi →
      (∀ before c after, cs = before ++ c :: after → f.accepts (f.updateAll s before) c = true →
        lo ≤ c ∧ c ≤ hi) →
      ∀ before, before <+: cs →
        lo ≤ (f.updateAll s before).ratio ∧ (f.updateAll s before).ratio ≤ hi := by
  have hstart : f.Within s := ⟨hreference.1.le, hreference.2.le⟩
  constructor
  · constructor
    · intro hwithin before c after hsplit
      have hlater := hwithin (before ++ [c]) ⟨after, by simp [hsplit]⟩
      rw [updateAll_append] at hlater
      exact (within_update_iff (hwithin before ⟨_, hsplit.symm⟩)).1 hlater
    · intro hnone
      apply forall_prefix_of_update hstart
      intro before c after hsplit hwithin
      exact (within_update_iff hwithin).2 (hnone before c after hsplit)
  · intro lo hi hlo hhi hcandidates
    apply forall_prefix_of_update (P := fun t => lo ≤ t.ratio ∧ t.ratio ≤ hi)
    · exact ⟨hlo.trans hstart.1, hstart.2.trans hhi⟩
    · intro before c after hsplit
      apply (validate_eq_ok_iff.1 hvalid).update_ratio_mem hlo hhi
      exact hcandidates before c after hsplit

/-- A candidate just beyond the upper bound of the standard filter, and one just within. -/
def edge : List ℚ :=
  [1 + 20.01 / 10 ^ 6, 1 + 19.99 / 10 ^ 6]

/-- From a reference just within, the first candidate overshoots. No candidate is beyond the first,
and so the ratio is not either. -/
theorem within_bounds_iff_edge : ∃ s : RatioState ℚ, s = ⟨1 + 19.99 / 10 ^ 6, 0⟩ ∧
    (standard (K := ℚ)).validate = .ok () ∧ standard.Overshoots s (1 + 20.01 / 10 ^ 6) ∧
    (¬ ∀ before, before <+: edge → standard.Within (standard.updateAll s before)) ∧
    ∀ before, before <+: edge → (standard.updateAll s before).ratio ≤ 1 + 20.01 / 10 ^ 6 := by
  have hvalid : (standard (K := ℚ)).validate = .ok () :=
    validate_eq_ok_iff.2 ⟨by decide +kernel, by decide +kernel, by decide +kernel, by decide⟩
  have hovershoots : standard.Overshoots ⟨1 + 19.99 / 10 ^ 6, 0⟩ (1 + 20.01 / 10 ^ 6 : ℚ) :=
    ⟨by decide +kernel, Or.inl (by decide +kernel)⟩
  have hedge : ∀ c ∈ edge, standard.lowerBound ≤ c ∧ c ≤ 1 + 20.01 / 10 ^ 6 := by decide +kernel
  obtain ⟨hwithin, hinterval⟩ := within_bounds_iff (K := ℚ) (s := ⟨1 + 19.99 / 10 ^ 6, 0⟩) hvalid
    (by decide +kernel) edge
  refine ⟨_, rfl, hvalid, hovershoots, ?_, ?_⟩
  · intro hall
    exact hwithin.1 hall [] _ _ rfl hovershoots
  · intro before hbefore
    have hratio := hinterval standard.lowerBound (1 + 20.01 / 10 ^ 6) le_rfl (by decide +kernel)
    refine (hratio ?_ before hbefore).2
    intro before c after hsplit _
    apply hedge
    rw [hsplit]
    exact List.mem_append_right _ List.mem_cons_self

/-- The standard filter takes a reference within bounds, accepts the next candidate, and leaves the
bounds with it. Rounding has nothing to do with it. -/
theorem leaves_bounds :
    (∃ s : RatioState Float, s = (standard.update RatioState.initial 1.00001999).2 ∧
      (standard (K := Float)).validate = .ok () ∧
      standard.lowerBound < s.ratio ∧ s.ratio < standard.upperBound ∧
      standard.upperBound < (standard.update s 1.00002001).2.ratio) ∧
    ∃ s : RatioState ℚ, s = (standard.update RatioState.initial 1.00001999).2 ∧
      (standard (K := ℚ)).validate = .ok () ∧
      standard.lowerBound < s.ratio ∧ s.ratio < standard.upperBound ∧
      standard.upperBound < (standard.update s 1.00002001).2.ratio := by
  constructor
  · exact ⟨_, rfl, rfl, by decide +kernel, by decide +kernel, by decide +kernel⟩
  · refine ⟨_, rfl, validate_eq_ok_iff.2 ?_, by decide +kernel, by decide +kernel,
      by decide +kernel⟩
    exact ⟨by decide +kernel, by decide +kernel, by decide +kernel, by decide⟩

end RatioFilter

end Ranging

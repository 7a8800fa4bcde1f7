import Ranging.Proofs.Tracking
import Ranging.Proofs.Bucket

/-!
# A clock that has jumped

A clock that jumps to another frequency and then runs steadily gives the filter the same candidate
over and over. If the candidate is not within the noise band, it drains the bucket, and one more of
it becomes the reference. From then on it is met exactly, and accepted.

So a full bucket is all that the filter can hold against a steady clock within tolerance, whatever
it has taken for a ratio before: no ratio yet, or one that is out of bounds
(`RatioFilter.steady_reacquired`). The arithmetic is exact here. What is needed of it is that the
blend of a ratio with a candidate is no further from the candidate than the ratio was.
-/

namespace Ranging

namespace RatioFilter

section Draining

variable {K : Type} [Scalar K] {f : RatioFilter K} {s : RatioState K} {c : K}

/-- A candidate that is not accepted at first is not accepted while the bucket lasts, and once
more. -/
theorem allRejected_replicate (h : f.accepts s c = false) {n : Nat} (hn : n ≤ s.bucket + 1) :
    f.AllRejected s (List.replicate n c) := by
  induction n generalizing s with
  | zero =>
      intro reliable hmem
      cases hmem
  | succ n ih =>
      apply allRejected_cons.2
      refine ⟨h, ?_⟩
      by_cases hbucket : 0 < s.bucket
      · rw [update_of_bucket_pos h hbucket]
        apply ih
        · exact h
        · show n ≤ s.bucket - 1 + 1
          omega
      · obtain rfl : n = 0 := by omega
        intro reliable hmem
        cases hmem

/-- If it lies within bounds, it has become the reference by then. -/
theorem updateAll_replicate (h : f.accepts s c = false) (hbounds : f.inBounds c = true) :
    f.updateAll s (List.replicate (s.bucket + 1) c) = ⟨c, 0⟩ := by
  have hrejected := allRejected_replicate h (Nat.le_refl (s.bucket + 1))
  have hindex : s.bucket < (List.replicate (s.bucket + 1) c).length := by
    rw [List.length_replicate]
    exact Nat.lt_succ_self _
  have hreference := hrejected.updateAll_take_eq hindex
  rw [List.getElem_replicate, List.take_replicate, Nat.min_self] at hreference
  exact hreference hbounds

end Draining

variable {K : Type} [Field K] [LinearOrder K] [FloorRing K] [IsStrictOrderedRing K]
  {f : RatioFilter K} {s : RatioState K} {c : K}

/-- A steady candidate that is accepted at first is accepted for ever. -/
theorem Valid.allAccepted_replicate (hvalid : f.Valid) (h : |c - s.ratio| < f.acceptedNoise)
    (n : Nat) : f.AllAccepted s (List.replicate n c) := by
  induction n generalizing s with
  | zero =>
      intro reliable hmem
      cases hmem
  | succ n ih =>
      apply allAccepted_cons.2
      refine ⟨accepts_iff_abs_lt.2 h, ?_⟩
      apply ih
      apply hvalid.abs_sub_update_lt h
      have hnoise : 0 < f.acceptedNoise := lt_of_le_of_lt (abs_nonneg _) h
      rw [sub_self, abs_zero]
      exact mul_pos (sub_pos.2 hvalid.weight_lt_one) hnoise

/-- Once the run has taken the candidate for its reference, it goes on as from a fresh one. -/
theorem Valid.allAccepted_drained (hvalid : f.Valid) (hbounds : f.inBounds c = true)
    (h : f.accepts s c = false) (n : Nat) :
    f.AllAccepted (f.updateAll s (List.replicate (s.bucket + 1) c)) (List.replicate n c) := by
  rw [updateAll_replicate h hbounds]
  apply hvalid.allAccepted_replicate
  have hnoise := hvalid.noise
  norm_num at hnoise
  show |c - c| < f.acceptedNoise
  rwa [sub_self, abs_zero]

/-- A steady candidate within bounds is not accepted for a while, and accepted from then on. -/
theorem Valid.steady_splits (hvalid : f.Valid) (hbounds : f.inBounds c = true) {n lost : Nat}
    (hlost : lost = if |c - s.ratio| < f.acceptedNoise then 0 else min n (s.bucket + 1)) :
    lost ≤ n ∧ lost ≤ s.bucket + 1 ∧ f.AllRejected s (List.replicate lost c) ∧
      f.AllAccepted (f.updateAll s (List.replicate lost c)) (List.replicate (n - lost) c) := by
  by_cases hnoise : |c - s.ratio| < f.acceptedNoise
  · obtain rfl : lost = 0 := hlost.trans (if_pos hnoise)
    exact ⟨by omega, by omega, nofun, hvalid.allAccepted_replicate hnoise n⟩
  · have haccepts : f.accepts s c = false :=
      Bool.eq_false_iff.2 (mt accepts_iff_abs_lt.1 hnoise)
    rw [if_neg hnoise] at hlost
    have hle : lost ≤ s.bucket + 1 := by omega
    refine ⟨by omega, hle, allRejected_replicate haccepts hle, ?_⟩
    rcases le_total n (s.bucket + 1) with hn | hn
    · have hnone : n - lost = 0 := by omega
      rw [hnone]
      nofun
    · rw [hlost, Nat.min_eq_right hn]
      exact hvalid.allAccepted_drained hbounds haccepts _

/-- Of a steady candidate within bounds, those that are not accepted come first: none if it lies
within the noise band, and else as many as the bucket holds and one more. Those that follow are
accepted, and once they are as many as the bucket can hold, it is full. So no more than one and the
capacity of the bucket are ever not accepted. -/
theorem steady_reacquired (hvalid : f.validate = .ok ()) (hs : s.bucket ≤ f.bucketMax)
    (hbounds : f.lowerBound < c ∧ c < f.upperBound) (n : Nat) :
    let steady := List.replicate n c
    let lost := if |c - s.ratio| < f.acceptedNoise then 0 else min n (s.bucket + 1)
    f.verdicts s steady = List.replicate lost false ++ List.replicate (n - lost) true ∧
    (f.bucketMax ≤ (f.verdicts s steady).count true →
      (f.updateAll s steady).bucket = f.bucketMax) ∧
    (f.verdicts s steady).count false ≤ f.bucketMax + 1 := by
  intro steady lost
  obtain ⟨hle, hdrained, hrejected, haccepted⟩ :=
    (validate_eq_ok_iff.1 hvalid).steady_splits (inBounds_iff.2 hbounds) (rfl : lost = _)
  have hsplit : steady = List.replicate lost c ++ List.replicate (n - lost) c := by
    rw [List.replicate_append_replicate, Nat.add_sub_cancel' hle]
  have hverdicts : f.verdicts s steady =
      List.replicate lost false ++ List.replicate (n - lost) true := by
    rw [hsplit, verdicts_append, hrejected.verdicts_eq, haccepted.verdicts_eq,
      List.length_replicate, List.length_replicate]
  have hreliable : (f.verdicts s steady).count true = n - lost := by
    simp [hverdicts, List.count_replicate]
  have hunreliable : (f.verdicts s steady).count false = lost := by
    simp [hverdicts, List.count_replicate]
  refine ⟨hverdicts, ?_, ?_⟩
  · intro hcount
    have hbucket := haccepted.updateAll_bucket (updateAll_bucket_le hs)
    rw [List.length_replicate, ← updateAll_append, ← hsplit] at hbucket
    omega
  · omega

/-- A clock jumps by five parts in a million while the bucket of the standard filter holds three.
Four candidates are lost, and four more fill the bucket. -/
theorem steady_reacquired_jump : ∃ (s : RatioState ℚ) (c : ℚ), s = ⟨1, 3⟩ ∧ c = 1 + 5 / 10 ^ 6 ∧
    (standard (K := ℚ)).validate = .ok () ∧
    standard.verdicts s (List.replicate 8 c) =
      [false, false, false, false, true, true, true, true] ∧
    (standard.updateAll s (List.replicate 8 c)).bucket = 4 := by
  have hvalid : (standard (K := ℚ)).validate = .ok () :=
    validate_eq_ok_iff.2 ⟨by decide +kernel, by decide +kernel, by decide +kernel, by decide⟩
  have hbounds : (standard (K := ℚ)).lowerBound < 1 + 5 / 10 ^ 6 ∧
      1 + 5 / 10 ^ 6 < (standard (K := ℚ)).upperBound := by decide +kernel
  obtain ⟨hverdicts, hbucket, -⟩ :=
    steady_reacquired (K := ℚ) (s := ⟨1, 3⟩) hvalid (by decide) hbounds 8
  have hfar : ¬ |(1 + 5 / 10 ^ 6 : ℚ) - 1| < (standard (K := ℚ)).acceptedNoise := by decide +kernel
  rw [if_neg hfar] at hverdicts
  refine ⟨_, _, rfl, rfl, hvalid, hverdicts, hbucket ?_⟩
  rw [hverdicts]
  decide

end RatioFilter

end Ranging

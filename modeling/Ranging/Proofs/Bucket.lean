import Ranging.Proofs.FilterRun
import Ranging.Proofs.FloatParts
import Ranging.Proofs.Validation

/-!
# What the bucket guards

A single outlier must not move a clock's reference, but a clock that has really changed must get a
new one. The bucket decides between the two by counting (`RatioFilter.bucket_guards_reference`):
candidates that are not accepted leave the reference alone as long as there are no more of them than
were accepted before, and the first one too many replaces it.

Over binary64 this holds for all candidates, also for those that are no numbers. A candidate within
bounds that is not accepted differs from the ratio, because the difference of a finite number to
itself is zero, and zero lies within the noise band.
-/

namespace Ranging

namespace RatioFilter

open Binary64

section Decidable

variable {K : Type} [Scalar K]

instance (f : RatioFilter K) (s : RatioState K) (cs : List K) : Decidable (f.AllAccepted s cs) :=
  inferInstanceAs (Decidable (∀ reliable ∈ f.verdicts s cs, reliable = true))

instance (f : RatioFilter K) (s : RatioState K) (cs : List K) : Decidable (f.AllRejected s cs) :=
  inferInstanceAs (Decidable (∀ reliable ∈ f.verdicts s cs, reliable = false))

theorem inBounds_iff {f : RatioFilter K} {c : K} :
    f.inBounds c = true ↔ f.lowerBound < c ∧ c < f.upperBound := by
  rw [inBounds, Bool.and_eq_true, decide_eq_true_eq, decide_eq_true_eq]

end Decidable

variable {f : RatioFilter Float} {s : RatioState Float} {c : Float}

/-- The ratio itself would be accepted, so long as it is finite. -/
theorem accepts_ratio (hnoise : 0.0 < f.acceptedNoise) (hratio : s.ratio.isFinite = true) :
    f.accepts s s.ratio = true := by
  rw [accepts, sub_self hratio, isNoise, Bool.and_eq_true, decide_eq_true_eq, decide_eq_true_eq]
  exact ⟨neg_lt_zero hnoise, hnoise⟩

theorem ne_ratio_of_not_accepts (hnoise : 0.0 < f.acceptedNoise) (hbounds : f.inBounds c = true)
    (h : f.accepts s c = false) : c ≠ s.ratio := by
  rintro rfl
  obtain ⟨hlow, hhigh⟩ := inBounds_iff.1 hbounds
  rw [accepts_ratio hnoise (isFinite_of_lt_of_lt hlow hhigh)] at h
  cases h

/-- After any candidates the bucket is at most full, and from there on

* after accepted candidates, no more candidates that are not accepted than these, or than the bucket
  can hold, change the ratio,
* a candidate that is not accepted changes the ratio only at an empty bucket and only if it lies
  within bounds, and then it becomes the ratio while the bucket stays empty, and
* of candidates within bounds that are not accepted, one more than the bucket can hold, the one after
  as many as the bucket holds becomes the ratio, which was a different one until then. -/
theorem bucket_guards_reference (hvalid : f.validate = .ok ()) (hs : s.bucket ≤ f.bucketMax)
    (cs : List Float) :
    let t := f.updateAll s cs
    t.bucket ≤ f.bucketMax ∧
    (∀ accepted rejected, f.AllAccepted t accepted →
      f.AllRejected (f.updateAll t accepted) rejected →
      rejected.length ≤ min accepted.length f.bucketMax →
      (f.updateAll t (accepted ++ rejected)).ratio = (f.updateAll t accepted).ratio) ∧
    (∀ c, (f.update t c).1 = false → (f.update t c).2.ratio ≠ t.ratio →
      t.bucket = 0 ∧ (f.lowerBound < c ∧ c < f.upperBound) ∧ (f.update t c).2 = ⟨c, 0⟩) ∧
    (∀ rejected, f.AllRejected t rejected → rejected.length = f.bucketMax + 1 →
      (∀ c ∈ rejected, f.lowerBound < c ∧ c < f.upperBound) →
      ∃ c, rejected[t.bucket]? = some c ∧ c ≠ t.ratio ∧
        (∀ n ≤ t.bucket, (f.updateAll t (rejected.take n)).ratio = t.ratio) ∧
        f.updateAll t (rejected.take (t.bucket + 1)) = ⟨c, 0⟩) := by
  have ht : (f.updateAll s cs).bucket ≤ f.bucketMax := updateAll_bucket_le hs
  have hnoise := (validate_eq_ok_iff.1 hvalid).noise
  generalize f.updateAll s cs = t at ht
  refine ⟨ht, ?_, ?_, ?_⟩
  · intro accepted rejected haccepted hrejected hlength
    have hbucket := haccepted.updateAll_bucket ht
    rw [updateAll_append, hrejected.updateAll_eq (by omega)]
  · intro c hc hne
    rw [update_fst] at hc
    obtain ⟨hbucket, hbounds, hupdate⟩ := reference_of_ratio_ne hc hne
    exact ⟨hbucket, inBounds_iff.1 hbounds, hupdate⟩
  · intro rejected hrejected hlength hbounds
    have hindex : t.bucket < rejected.length := by omega
    have hbound := inBounds_iff.2 (hbounds _ (List.getElem_mem hindex))
    have hlast := (hrejected.accepts_getElem hindex).2
    refine ⟨rejected[t.bucket], List.getElem?_eq_getElem hindex,
      ne_ratio_of_not_accepts hnoise hbound hlast, ?_, hrejected.updateAll_take_eq hindex hbound⟩
    intro n hn
    rw [(hrejected.take n).updateAll_eq (by rw [List.length_take]; omega)]

/-- Candidates within bounds, each of them far from the one before. -/
def outliers : List Float :=
  [1.00001, 0.99999, 1.00001, 0.99999, 1.00001]

/-- Two candidates are accepted, one that is no number is not, and then the standard filter needs two
of the outliers to replace the reference. -/
theorem bucket_guards_reference_outliers :
    (standard (K := Float)).validate = .ok () ∧
    ∃ t, t = standard.updateAll ⟨1.0, 0⟩ [1.00000001, 1.00000001, 0.0 / 0.0] ∧ t.bucket = 1 ∧
      standard.AllRejected t outliers ∧ (0.99999 : Float) ≠ t.ratio ∧
      (standard.updateAll t (outliers.take 1)).ratio = t.ratio ∧
      standard.updateAll t (outliers.take 2) = ⟨0.99999, 0⟩ := by
  let t : RatioState Float := standard.updateAll ⟨1.0, 0⟩ [1.00000001, 1.00000001, 0.0 / 0.0]
  have hbucket : t.bucket = 1 := by decide +kernel
  have hrejected : standard.AllRejected t outliers := by decide +kernel
  have hbounds : ∀ c ∈ outliers, (standard (K := Float)).lowerBound < c ∧
      c < (standard (K := Float)).upperBound := by decide +kernel
  obtain ⟨-, -, -, hlast⟩ := bucket_guards_reference (f := standard) rfl (s := ⟨1.0, 0⟩)
    (Nat.zero_le _) [1.00000001, 1.00000001, 0.0 / 0.0]
  obtain ⟨c, hc, hne, hkept, hreference⟩ := hlast outliers hrejected rfl hbounds
  change outliers[t.bucket]? = some c at hc
  rw [hbucket] at hc
  cases hc
  change standard.updateAll t (outliers.take (t.bucket + 1)) = _ at hreference
  rw [hbucket] at hreference
  exact ⟨rfl, t, rfl, hbucket, hrejected, hne, hkept 1 (Nat.le_of_eq hbucket.symm), hreference⟩

end RatioFilter

end Ranging

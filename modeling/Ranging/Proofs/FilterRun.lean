import Mathlib.Data.List.Induction
import Ranging.Proofs.RatioFilter

/-!
# Runs of the clock filter

An accepted candidate fills the bucket by one, up to its capacity, and any other drains it by one.
So the bucket counts: after accepted candidates it holds as many as they were, and as long as it is
not empty, candidates that are not accepted leave the ratio alone. Only at an empty bucket can one of
them become the new reference.

None of this depends on the arithmetic of the ratios, only on which candidates are accepted.
-/

namespace Ranging

namespace RatioFilter

variable {K : Type} [Scalar K]

/-! ## Several candidates -/

/-- The state after some candidates. -/
def updateAll (f : RatioFilter K) (s : RatioState K) (cs : List K) : RatioState K :=
  cs.foldl (fun s c => (f.update s c).2) s

/-- Which of some candidates are accepted. -/
def verdicts (f : RatioFilter K) (s : RatioState K) : List K → List Bool
  | [] => []
  | c :: cs => (f.update s c).1 :: f.verdicts (f.update s c).2 cs

/-- All of some candidates are accepted, one after the other. -/
def AllAccepted (f : RatioFilter K) (s : RatioState K) (cs : List K) : Prop :=
  ∀ reliable ∈ f.verdicts s cs, reliable = true

/-- None of some candidates is accepted, one after the other. -/
def AllRejected (f : RatioFilter K) (s : RatioState K) (cs : List K) : Prop :=
  ∀ reliable ∈ f.verdicts s cs, reliable = false

variable {f : RatioFilter K} {s : RatioState K} {c : K} {cs : List K}

@[simp] theorem updateAll_nil : f.updateAll s [] = s := rfl

@[simp] theorem updateAll_cons :
    f.updateAll s (c :: cs) = f.updateAll (f.update s c).2 cs := rfl

@[simp] theorem updateAll_append (ds : List K) :
    f.updateAll s (cs ++ ds) = f.updateAll (f.updateAll s cs) ds :=
  List.foldl_append

/-- What each update of a run preserves holds all along. -/
theorem forall_prefix_of_update {P : RatioState K → Prop} (hs : P s)
    (hupdate : ∀ before c after, cs = before ++ c :: after → P (f.updateAll s before) →
      P (f.update (f.updateAll s before) c).2) :
    ∀ before, before <+: cs → P (f.updateAll s before) := by
  intro before
  induction before using List.reverseRecOn with
  | nil =>
      intro _
      exact hs
  | append_singleton before c ih =>
      rintro ⟨after, hsplit⟩
      rw [List.append_assoc, List.singleton_append] at hsplit
      rw [updateAll_append]
      apply hupdate before c after hsplit.symm
      exact ih ⟨c :: after, hsplit⟩

@[simp] theorem length_verdicts : (f.verdicts s cs).length = cs.length := by
  induction cs generalizing s with
  | nil => rfl
  | cons c cs ih => rw [verdicts, List.length_cons, List.length_cons, ih]

theorem verdicts_append (ds : List K) :
    f.verdicts s (cs ++ ds) = f.verdicts s cs ++ f.verdicts (f.updateAll s cs) ds := by
  induction cs generalizing s with
  | nil => rfl
  | cons c cs ih => rw [List.cons_append, verdicts, verdicts, ih, List.cons_append, updateAll_cons]

theorem AllAccepted.verdicts_eq (h : f.AllAccepted s cs) :
    f.verdicts s cs = List.replicate cs.length true :=
  List.eq_replicate_iff.2 ⟨length_verdicts, h⟩

theorem AllRejected.verdicts_eq (h : f.AllRejected s cs) :
    f.verdicts s cs = List.replicate cs.length false :=
  List.eq_replicate_iff.2 ⟨length_verdicts, h⟩

theorem allAccepted_cons :
    f.AllAccepted s (c :: cs) ↔ f.accepts s c = true ∧ f.AllAccepted (f.update s c).2 cs := by
  simp [AllAccepted, verdicts]

theorem allRejected_cons :
    f.AllRejected s (c :: cs) ↔ f.accepts s c = false ∧ f.AllRejected (f.update s c).2 cs := by
  simp [AllRejected, verdicts]

theorem allRejected_append (ds : List K) :
    f.AllRejected s (cs ++ ds) ↔ f.AllRejected s cs ∧ f.AllRejected (f.updateAll s cs) ds := by
  induction cs generalizing s with
  | nil => simp [AllRejected, verdicts]
  | cons c cs ih => simp [allRejected_cons, ih, and_assoc]

/-! ## The bucket -/

theorem update_of_accepts (h : f.accepts s c = true) :
    (f.update s c).2 =
      ⟨f.blend s.ratio c, if s.bucket < f.bucketMax then s.bucket + 1 else s.bucket⟩ := by
  rw [update, if_pos h]

/-- While the bucket is not empty, the ratio is safe. -/
theorem update_of_bucket_pos (h : f.accepts s c = false) (hbucket : 0 < s.bucket) :
    (f.update s c).2 = { s with bucket := s.bucket - 1 } := by
  rw [update, if_neg (Bool.not_eq_true _ ▸ h), if_pos hbucket]

/-- At an empty bucket, a candidate within bounds becomes the new reference, and the bucket stays
empty. -/
theorem update_of_bucket_zero (h : f.accepts s c = false) (hbucket : s.bucket = 0) :
    (f.update s c).2 = if f.inBounds c then ⟨c, 0⟩ else s := by
  rw [update, if_neg (Bool.not_eq_true _ ▸ h), if_neg (by omega)]
  split
  · rw [hbucket]
  · rfl

theorem update_bucket_of_not_accepts (h : f.accepts s c = false) :
    (f.update s c).2.bucket = s.bucket - 1 := by
  by_cases hbucket : 0 < s.bucket
  · rw [update_of_bucket_pos h hbucket]
  · have hzero : s.bucket = 0 := by omega
    rw [update_of_bucket_zero h hzero]
    split
    · rw [hzero]
    · omega

theorem update_bucket_le (hs : s.bucket ≤ f.bucketMax) :
    (f.update s c).2.bucket ≤ f.bucketMax := by
  cases h : f.accepts s c with
  | true =>
      rw [update_of_accepts h]
      dsimp only
      split <;> omega
  | false =>
      rw [update_bucket_of_not_accepts h]
      omega

theorem updateAll_bucket_le (hs : s.bucket ≤ f.bucketMax) :
    (f.updateAll s cs).bucket ≤ f.bucketMax := by
  induction cs generalizing s with
  | nil => exact hs
  | cons c cs ih => exact ih (update_bucket_le hs)

/-- Accepted candidates fill the bucket one by one, until it is full. -/
theorem AllAccepted.updateAll_bucket (h : f.AllAccepted s cs) (hs : s.bucket ≤ f.bucketMax) :
    (f.updateAll s cs).bucket = min (s.bucket + cs.length) f.bucketMax := by
  induction cs generalizing s with
  | nil =>
      rw [updateAll_nil, List.length_nil]
      omega
  | cons c cs ih =>
      obtain ⟨hc, hcs⟩ := allAccepted_cons.1 h
      rw [updateAll_cons, ih hcs (update_bucket_le hs), update_of_accepts hc, List.length_cons]
      dsimp only
      split <;> omega

/-- As many candidates as the bucket holds do nothing but drain it. -/
theorem AllRejected.updateAll_eq (h : f.AllRejected s cs) (hlength : cs.length ≤ s.bucket) :
    f.updateAll s cs = { s with bucket := s.bucket - cs.length } := by
  induction cs generalizing s with
  | nil => rfl
  | cons c cs ih =>
      rw [List.length_cons] at hlength
      obtain ⟨hc, hcs⟩ := allRejected_cons.1 h
      have hupdate := update_of_bucket_pos hc (by omega)
      rw [hupdate] at hcs
      rw [updateAll_cons, hupdate, ih hcs (by dsimp only; omega), List.length_cons, Nat.sub_sub,
        Nat.add_comm]

/-- The only way in which a candidate that is not accepted changes the ratio. -/
theorem reference_of_ratio_ne (h : f.accepts s c = false) (hne : (f.update s c).2.ratio ≠ s.ratio) :
    s.bucket = 0 ∧ f.inBounds c = true ∧ (f.update s c).2 = ⟨c, 0⟩ := by
  by_cases hbucket : 0 < s.bucket
  · rw [update_of_bucket_pos h hbucket] at hne
    exact absurd rfl hne
  · have hzero : s.bucket = 0 := by omega
    have hupdate := update_of_bucket_zero h hzero
    cases hbounds : f.inBounds c with
    | true =>
        rw [hbounds, if_pos rfl] at hupdate
        exact ⟨hzero, rfl, hupdate⟩
    | false =>
        rw [hbounds, if_neg Bool.false_ne_true] at hupdate
        exact absurd (congrArg RatioState.ratio hupdate) hne

theorem AllRejected.take (h : f.AllRejected s cs) (n : Nat) : f.AllRejected s (cs.take n) := by
  rw [← List.take_append_drop n cs, allRejected_append] at h
  exact h.1

/-- The candidate after as many as the bucket holds meets the ratio unchanged, and an empty bucket. -/
theorem AllRejected.accepts_getElem (h : f.AllRejected s cs) (hindex : s.bucket < cs.length) :
    f.updateAll s (cs.take s.bucket) = ⟨s.ratio, 0⟩ ∧ f.accepts ⟨s.ratio, 0⟩ cs[s.bucket] = false := by
  have hlength : (cs.take s.bucket).length = s.bucket := by
    rw [List.length_take]
    omega
  have hdrained : f.updateAll s (cs.take s.bucket) = ⟨s.ratio, 0⟩ := by
    rw [(h.take s.bucket).updateAll_eq (Nat.le_of_eq hlength), hlength, Nat.sub_self]
  have hone := h.take (s.bucket + 1)
  rw [List.take_add_one, List.getElem?_eq_getElem hindex, allRejected_append, hdrained] at hone
  exact ⟨hdrained, (allRejected_cons.1 hone.2).1⟩

/-- One candidate more than the bucket holds becomes the new reference. -/
theorem AllRejected.updateAll_take_eq (h : f.AllRejected s cs) (hindex : s.bucket < cs.length)
    (hbounds : f.inBounds cs[s.bucket] = true) :
    f.updateAll s (cs.take (s.bucket + 1)) = ⟨cs[s.bucket], 0⟩ := by
  obtain ⟨hdrained, hrejected⟩ := h.accepts_getElem hindex
  rw [List.take_add_one, List.getElem?_eq_getElem hindex, updateAll_append, hdrained,
    Option.toList_some, updateAll_cons, updateAll_nil, update_of_bucket_zero hrejected rfl,
    if_pos hbounds]

end RatioFilter

end Ranging

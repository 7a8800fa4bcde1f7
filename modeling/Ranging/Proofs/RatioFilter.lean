import Ranging.RatioFilter

/-!
# What the clock filter does with a candidate

A candidate is accepted, or becomes the new reference, or leaves the ratio as it is.
`RatioFilter.update_ratio` states the three outcomes.
-/

namespace Ranging

namespace RatioFilter

variable {K : Type} [Scalar K]

/-- The candidate becomes the new reference. -/
def takesReference (f : RatioFilter K) (s : RatioState K) (candidate : K) : Bool :=
  !f.accepts s candidate && s.bucket == 0 && f.inBounds candidate

@[simp] theorem update_fst (f : RatioFilter K) (s : RatioState K) (candidate : K) :
    (f.update s candidate).1 = f.accepts s candidate := by
  rw [update]
  split
  · rename_i haccepts
    exact haccepts.symm
  · rename_i haccepts
    have hfalse : f.accepts s candidate = false := by simpa using haccepts
    rw [hfalse]
    split
    · rfl
    · split <;> rfl

/-- The three outcomes. Only a candidate that is not accepted can become the new reference. -/
theorem update_ratio (f : RatioFilter K) (s : RatioState K) (candidate : K) :
    (f.update s candidate).2.ratio =
      if f.accepts s candidate then f.blend s.ratio candidate
      else if f.takesReference s candidate then candidate
      else s.ratio := by
  rw [update, takesReference]
  cases haccepts : f.accepts s candidate with
  | true => rfl
  | false =>
      by_cases hbucket : 0 < s.bucket
      · have hne : s.bucket ≠ 0 := by omega
        simp [hbucket, hne]
      · have hzero : s.bucket = 0 := by omega
        cases hbounds : f.inBounds candidate <;> simp [hzero]

end RatioFilter

end Ranging

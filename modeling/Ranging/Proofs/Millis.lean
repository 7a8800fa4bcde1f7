import Mathlib.Algebra.Group.Nat.Defs
import Ranging.Time

/-!
# The millisecond clock and true time

The millisecond clock starts over after about 49 days: whoever reads it sees the time modulo
`2 ^ 32`. Two readings are as far apart as the times at which they were taken, if these are less
than the period of the clock apart, wherever the clock starts over in between.

The oldest of some stamps is the one with the greatest age, and with true times of writing that are
close enough to each other it is the one written first.
-/

namespace Ranging.Millis

/-- The reading of the millisecond clock at a time. -/
def ofTime (time : Nat) : Millis :=
  UInt32.ofNat time

/-- An age is the time that has passed, if this is less than the clock's period. -/
theorem toNat_since_ofTime {written now : Nat} (h : written ≤ now)
    (hspan : now < written + 2 ^ 32) :
    (since (ofTime written) (ofTime now)).toNat = now - written := by
  rw [since, ofTime, ofTime, UInt32.toNat_sub, UInt32.toNat_ofNat', UInt32.toNat_ofNat']
  omega

/-- A value is fresh if less than its window has passed, wherever the clock starts over. -/
theorem isFresh_ofTime {written now : Nat} (h : written ≤ now) (hspan : now < written + 2 ^ 32)
    (window : Millis) :
    isFresh (ofTime written) window (ofTime now) = true ↔ now - written < window.toNat := by
  rw [isFresh, decide_eq_true_iff, UInt32.lt_iff_toNat_lt, toNat_since_ofTime h hspan]

/-- Times that are less than half the clock's period apart are compared as they are. -/
theorem notBefore_ofTime {time reference : Nat} (hlate : time < reference + 2 ^ 31)
    (hearly : reference ≤ time + 2 ^ 31) :
    notBefore (ofTime time) (ofTime reference) = true ↔ reference ≤ time := by
  have hhalf : (0x80000000 : UInt32).toNat = 2 ^ 31 := rfl
  rw [notBefore, decide_eq_true_iff, UInt32.lt_iff_toNat_lt, hhalf, since, ofTime, ofTime,
    UInt32.toNat_sub, UInt32.toNat_ofNat', UInt32.toNat_ofNat']
  omega

/-- A greater age means an earlier time of writing. -/
theorem le_of_since_le {first second now : Nat} (hfirst : first ≤ now) (hsecond : second ≤ now)
    (hspan₁ : now < first + 2 ^ 32) (hspan₂ : now < second + 2 ^ 32)
    (h : since (ofTime second) (ofTime now) ≤ since (ofTime first) (ofTime now)) :
    first ≤ second := by
  rw [UInt32.le_iff_toNat_le, toNat_since_ofTime hfirst hspan₁,
    toNat_since_ofTime hsecond hspan₂] at h
  omega

theorem firstGreatest_eq_none_iff {ages : List UInt32} : firstGreatest ages = none ↔ ages = [] := by
  cases ages with
  | nil => simp [firstGreatest]
  | cons first rest =>
      rw [firstGreatest]
      split
      · simp
      · split <;> simp

/-- The first greatest age is one of the ages, and none is greater. -/
theorem firstGreatest_spec {ages : List UInt32} {i : Nat} {greatest : UInt32}
    (h : firstGreatest ages = some (i, greatest)) :
    ages[i]? = some greatest ∧ ∀ age ∈ ages, age ≤ greatest := by
  induction ages generalizing i greatest with
  | nil => cases h
  | cons first rest ih =>
      rw [firstGreatest] at h
      split at h
      · rename_i hrest
        cases h
        simp [firstGreatest_eq_none_iff.1 hrest]
      · rename_i j best hrest
        obtain ⟨hget, hle⟩ := ih hrest
        split at h
        · rename_i hlt
          cases h
          exact ⟨hget, List.forall_mem_cons.2 ⟨UInt32.le_of_lt hlt, hle⟩⟩
        · rename_i hnot
          cases h
          have hbest : best ≤ first := UInt32.not_lt.1 hnot
          refine ⟨rfl, List.forall_mem_cons.2 ⟨UInt32.le_refl _, ?_⟩⟩
          intro age hage
          exact UInt32.le_trans (hle age hage) hbest

/-- The ages before the first greatest one are smaller. -/
theorem firstGreatest_first {ages : List UInt32} {i : Nat} {greatest : UInt32}
    (h : firstGreatest ages = some (i, greatest)) {j : Nat} (hj : j < i) {age : UInt32}
    (hage : ages[j]? = some age) : age < greatest := by
  induction ages generalizing i greatest j with
  | nil => cases h
  | cons first rest ih =>
      rw [firstGreatest] at h
      split at h
      · cases h
        exact absurd hj (Nat.not_lt_zero j)
      · rename_i k best hrest
        split at h
        · rename_i hlt
          cases h
          cases j with
          | zero =>
              obtain rfl := Option.some.inj hage
              exact hlt
          | succ j => exact ih hrest (Nat.lt_of_succ_lt_succ hj) hage
        · cases h
          exact absurd hj (Nat.not_lt_zero j)

/-- The stamps before the oldest one are younger. -/
theorem oldestIndex_first {now oldest : Millis} {stamps : List Millis}
    (holdest : stamps[oldestIndex now stamps]? = some oldest) {j : Nat}
    (hj : j < oldestIndex now stamps) {stamp : Millis} (hstamp : stamps[j]? = some stamp) :
    since stamp now < since oldest now := by
  rw [oldestIndex] at holdest hj
  split at holdest
  · rename_i i greatest hfound
    obtain ⟨hget, -⟩ := firstGreatest_spec hfound
    rw [List.getElem?_map, holdest, Option.map_some] at hget
    rw [Option.some.inj hget]
    rw [hfound] at hj
    exact firstGreatest_first hfound hj (by rw [List.getElem?_map, hstamp, Option.map_some])
  · rename_i hnone
    rw [hnone] at hj
    exact absurd hj (Nat.not_lt_zero j)

/-- The oldest of some stamps is one of them, and none is older. -/
theorem oldestIndex_spec (now : Millis) {stamps : List Millis} (h : stamps ≠ []) :
    ∃ oldest, stamps[oldestIndex now stamps]? = some oldest ∧
      ∀ stamp ∈ stamps, since stamp now ≤ since oldest now := by
  rw [oldestIndex]
  split
  · rename_i i greatest hfound
    obtain ⟨hget, hle⟩ := firstGreatest_spec hfound
    rw [List.getElem?_map, Option.map_eq_some_iff] at hget
    obtain ⟨oldest, hget, rfl⟩ := hget
    exact ⟨oldest, hget, by simpa using hle⟩
  · rename_i hnone
    exact absurd (by simpa using firstGreatest_eq_none_iff.1 hnone) h

/-- What is at the index of the oldest stamp is as old as anything, and what is before it is
younger. -/
theorem oldestIndex_map_spec {α : Type} {xs : List α} {stamp : α → Millis} {now : Millis} {old : α}
    (hold : xs[oldestIndex now (xs.map stamp)]? = some old) :
    (∀ x ∈ xs, since (stamp x) now ≤ since (stamp old) now) ∧
      ∀ lower < oldestIndex now (xs.map stamp), ∀ x, xs[lower]? = some x →
        since (stamp x) now < since (stamp old) now := by
  have hne : xs.map stamp ≠ [] := by simpa using List.ne_nil_of_mem (List.mem_of_getElem? hold)
  have hstamp : (xs.map stamp)[oldestIndex now (xs.map stamp)]? = some (stamp old) := by
    rw [List.getElem?_map, hold, Option.map_some]
  constructor
  · obtain ⟨oldest, holdest, hle⟩ := oldestIndex_spec now hne
    obtain rfl := Option.some.inj (holdest.symm.trans hstamp)
    intro x hx
    exact hle _ (List.mem_map_of_mem hx)
  · intro lower hlower x hx
    exact oldestIndex_first hstamp hlower (by rw [List.getElem?_map, hx, Option.map_some])

end Ranging.Millis

import Ranging.Proofs.TimedTable

/-!
# Which anchors are active

An anchor is active if its latest broadcast was stored within a window. A record has a date for this
from the start, zero, and an anchor that has entered and of which no broadcast was stored yet is
treated as if one had been stored when the millisecond clock last showed zero. So it is active for a
while after every start of the clock, and at no other time (`Table.mem_activeIds_iff`).
-/

namespace Ranging.Table

variable {K : Type}

/-- An anchor is active if its record is. -/
theorem mem_activeIds {t : Table K} (h : t.Sound) {id : AnchorId} {now : Millis} :
    id ∈ t.activeIds now ↔ ∃ r, t.find? id = some r ∧ r.isActive t.windows now = true := by
  rw [activeIds, List.mem_map]
  apply exists_congr
  intro r
  rw [List.mem_filter, find?_eq_some_iff h, and_right_comm]

variable [Scalar K] {capacity receptionCapacity flightCapacity : Nat} {windows : Windows}
  {t₀ t : Table K} {as : List (Timed (Action K))} {os : List (Timed (Outcome K))}

/-- The last broadcast of an anchor that was stored since it entered, and when. -/
def lastHeard? (id : AnchorId) (os : List (Timed (Outcome K))) :
    Option (Timed (Ticks × Ticks × UInt8)) :=
  Write.lastAt? Write.broadcast? (writesAt id os)

/-- The date of a record is that of the last broadcast, and zero if there is none. -/
theorem lastUpdate_of_performAt
    (hcreate : create capacity receptionCapacity flightCapacity windows = .ok t₀)
    (hused : t₀.performAt as = (os, t)) {id : AnchorId} {r : Record K}
    (hfind : t.find? id = some r) :
    r.lastUpdate = ((lastHeard? id os).map fun heard => Millis.ofTime heard.time).getD 0 := by
  rw [record_of_performAt hcreate hused hfind, blank, Record.writeAll_empty,
    Write.last?_map_stamped, Option.map_map]
  rfl

/-- An anchor is active exactly if it is stored and its last broadcast is recent enough. Where none
was stored since it entered, the last start of the millisecond clock counts instead. -/
theorem mem_activeIds_iff
    (hcreate : create capacity receptionCapacity flightCapacity windows = .ok t₀)
    (hused : t₀.performAt as = (os, t)) {now : Nat}
    (hspan : ∀ a ∈ as, a.time ≤ now ∧ now < a.time + 2 ^ 32) (id : AnchorId) :
    id ∈ t.activeIds (Millis.ofTime now) ↔ t.contains id = true ∧
      ((∃ heard, lastHeard? id os = some heard ∧ now - heard.time < windows.active.toNat) ∨
        lastHeard? id os = none ∧ now % 2 ^ 32 < windows.active.toNat) := by
  obtain ⟨hsound, hwindows⟩ := sound_of_performAt hcreate hused
  rw [mem_activeIds hsound, contains_eq_isSome, hwindows]
  cases hfind : t.find? id with
  | none => simp
  | some r =>
      have hactive : r.isActive windows (Millis.ofTime now) = true ↔
          (Millis.since r.lastUpdate (Millis.ofTime now)).toNat < windows.active.toNat := by
        rw [Record.isActive, Millis.isFresh, decide_eq_true_iff, UInt32.lt_iff_toNat_lt]
      rw [lastUpdate_of_performAt hcreate hused hfind] at hactive
      simp only [Option.some.injEq, exists_eq_left', Option.isSome_some, true_and, hactive]
      cases hheard : lastHeard? id os with
      | none =>
          have hclock : (Millis.since 0 (Millis.ofTime now)).toNat = now % 2 ^ 32 := by
            rw [Millis.since, UInt32.sub_zero, Millis.ofTime, UInt32.toNat_ofNat']
          simp [hclock]
      | some heard =>
          obtain ⟨a, ha, htime⟩ := exists_time_of_mem_reports hused (List.mem_of_getLast? hheard)
          have hage := Millis.toNat_since_ofTime (hspan a ha).1 (hspan a ha).2
          rw [htime] at hage
          simp [hage]

/-- Anchors 1 and 2 enter at 100, and nothing is stored of the first. A broadcast of the second is
stored at 150, and another one at 400. -/
def oneHeard : List (Timed (Action Float)) :=
  [⟨.enter ⟨1⟩, 100⟩, ⟨.enter ⟨2⟩, 100⟩, ⟨.set 1 ⟨2⟩ (.broadcast 20 10 0), 150⟩,
    ⟨.set 1 ⟨2⟩ (.broadcast 70 60 1), 400⟩]

/-- The second is active until the window has passed since its last broadcast, the first until it
has passed since the last start of the clock. -/
theorem mem_activeIds_iff_oneHeard : ∃ (t₀ t : Table Float) (os : List (Timed (Outcome Float))),
    create 16 16 16 {} = .ok t₀ ∧ t₀.performAt oneHeard = (os, t) ∧
    ⟨2⟩ ∈ t.activeIds (Millis.ofTime 2399) ∧ ⟨2⟩ ∉ t.activeIds (Millis.ofTime 2400) ∧
    ⟨1⟩ ∈ t.activeIds (Millis.ofTime 1999) ∧ ⟨1⟩ ∉ t.activeIds (Millis.ofTime 2000) := by
  have hcreate : create (K := Float) 16 16 16 {} = .ok ⟨16, 16, 16, {}, []⟩ := rfl
  have hused : (⟨16, 16, 16, {}, []⟩ : Table Float).performAt oneHeard = (_, _) := rfl
  have hspan : ∀ now, 400 ≤ now → now < 100 + 2 ^ 32 →
      ∀ a ∈ oneHeard, a.time ≤ now ∧ now < a.time + 2 ^ 32 := by
    intro now hlow hhigh a ha
    have htimes : ∀ a ∈ oneHeard, 100 ≤ a.time ∧ a.time ≤ 400 := by
      unfold oneHeard
      simp
    have htime := htimes a ha
    omega
  refine ⟨_, _, _, hcreate, hused, ?_, ?_, ?_, ?_⟩
  · rw [mem_activeIds_iff hcreate hused (hspan 2399 (by decide) (by decide))]
    exact ⟨rfl, Or.inl ⟨_, rfl, by decide⟩⟩
  · rw [mem_activeIds_iff hcreate hused (hspan 2400 (by decide) (by decide))]
    rintro ⟨-, ⟨heard, hheard, hrecent⟩ | ⟨hnone, -⟩⟩
    · cases hheard
      exact absurd hrecent (by decide)
    · cases hnone
  · rw [mem_activeIds_iff hcreate hused (hspan 1999 (by decide) (by decide))]
    exact ⟨rfl, Or.inr ⟨rfl, by decide⟩⟩
  · rw [mem_activeIds_iff hcreate hused (hspan 2000 (by decide) (by decide))]
    rintro ⟨-, ⟨heard, hheard, -⟩ | ⟨-, hrecent⟩⟩
    · cases hheard
    · exact absurd hrecent (by decide)

/-- Anchor 1 enters at 100, and nothing is stored of it. -/
def entersOnly : List (Timed (Action Float)) :=
  [⟨.enter ⟨1⟩, 100⟩]

/-- So an anchor can be active although no broadcast of it was ever stored. -/
theorem active_without_broadcast : ∃ (t₀ t : Table Float) (os : List (Timed (Outcome Float))),
    create 16 16 16 {} = .ok t₀ ∧ t₀.performAt entersOnly = (os, t) ∧
    ¬ (⟨1⟩ ∈ t.activeIds (Millis.ofTime 100) ↔ t.contains ⟨1⟩ = true ∧
      ∃ heard, lastHeard? ⟨1⟩ os = some heard ∧ 100 - heard.time < t.windows.active.toNat) := by
  refine ⟨⟨16, 16, 16, {}, []⟩, _, _, rfl, rfl, ?_⟩
  intro hiff
  obtain ⟨-, heard, hheard, -⟩ := hiff.1 (List.mem_singleton_self _)
  cases hheard

end Ranging.Table

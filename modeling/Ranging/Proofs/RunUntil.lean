import Ranging.Proofs.Bookkeeping
import Ranging.Proofs.FreshPositions

/-!
# Runs up to a time

A simulation runs until a time by simulating slot after slot as long as the next one begins before
that time. `World.RunsUntil` is this loop with the number of its slots, whatever bound on that number
the program keeps. The loop has one result (`RunsUntil.unique`), and a loop that goes on where another
one has stopped is one loop (`RunsUntil.trans`).

With exact times the loop always ends: slot `n` begins at `n` slot periods, so that the slots before a
time are those below its quotient by the slot period, rounded up. This is less than what the program
allows (`World.runsUntil_runUntil`). Hence running up to a time may be interrupted anywhere.
-/

namespace Ranging.World

section Loops

variable {σ K : Type} [Analytic K] [NoiseSource σ K]

/-! ## The loop -/

/-- Slot after slot is simulated as long as the next one begins before `stop`: `n` slots, after which
the loop ends. -/
inductive RunsUntil (stop : K) : World σ K → Nat → World σ K → Prop where
  | done {w : World σ K} : ¬ w.time < stop → RunsUntil stop w 0 w
  | step {w v : World σ K} {n : Nat} :
    w.time < stop → RunsUntil stop w.step.2 n v → RunsUntil stop w (n + 1) v

namespace RunsUntil

variable {stop : K} {w u v : World σ K} {n m : Nat}

/-- The loop ends in one way only. -/
theorem unique (h : RunsUntil stop w n v) (h' : RunsUntil stop w m u) : n = m ∧ v = u := by
  induction h generalizing m with
  | done hstop =>
      cases h' with
      | done => exact ⟨rfl, rfl⟩
      | step hgoes => exact absurd hgoes hstop
  | step hgoes _ ih =>
      cases h' with
      | done hstop => exact absurd hgoes hstop
      | step _ hrest =>
          obtain ⟨rfl, rfl⟩ := ih hrest
          exact ⟨rfl, rfl⟩

/-- The loop ends when the time is reached. -/
theorem not_time_lt (h : RunsUntil stop w n v) : ¬ v.time < stop := by
  induction h with
  | done hstop => exact hstop
  | step _ _ ih => exact ih

/-- A loop with a later end that goes on where another one has stopped has run from the start. -/
theorem trans {later : K} (hlater : ∀ t : K, t < stop → t < later) (h : RunsUntil stop w n u)
    (h' : RunsUntil later u m v) : RunsUntil later w (n + m) v := by
  induction h with
  | done => rwa [Nat.zero_add]
  | step hgoes _ ih =>
      rw [Nat.add_right_comm]
      exact .step (hlater _ hgoes) (ih h')

/-- A bound on the number of slots does not matter if it is large enough. -/
theorem runFor_eq (h : RunsUntil stop w n v) {fuel : Nat} (hfuel : n ≤ fuel) :
    w.runFor stop fuel = v := by
  induction h generalizing fuel with
  | done hstop =>
      cases fuel with
      | zero => rfl
      | succ fuel => exact if_neg hstop
  | step hgoes _ ih =>
      obtain ⟨fuel, rfl⟩ := Nat.exists_eq_succ_of_ne_zero (Nat.ne_zero_of_lt hfuel)
      rw [runFor, if_pos hgoes]
      exact ih (Nat.le_of_succ_le_succ hfuel)

end RunsUntil

/-! ## What calls preserve -/

theorem performAll_setup (w : World σ K) (actions : List Action) :
    (w.performAll actions).setup = w.setup := by
  induction actions generalizing w with
  | nil => rfl
  | cons action actions ih => rw [performAll_cons, ih, perform_setup]

theorem Running.performAll {w : World σ K} (h : w.Running) (actions : List Action) :
    (w.performAll actions).Running := by
  induction actions generalizing w with
  | nil => exact h
  | cons action actions ih => exact ih (h.perform action)

theorem callAll_setup (w : World σ K) (commands : List (Command K)) :
    (w.callAll commands).setup = w.setup := by
  rw [← performAll_actions, performAll_setup]

theorem Running.callAll {w : World σ K} (h : w.Running) (commands : List (Command K)) :
    (w.callAll commands).Running := by
  rw [← performAll_actions]
  exact h.performAll _

end Loops

/-! ## Exact times -/

section Exact

variable {σ K : Type} [Field K] [LinearOrder K] [IsStrictOrderedRing K] [FloorRing K]
  [NoiseSource σ K] (sqrt sin cos exp ln : K → K)

/-- The number of slots that are left before `stop`. -/
def slotsLeft (w : World σ K) (stop : K) : Nat :=
  (⌈stop / w.setup.slotPeriod⌉ - w.slot).toNat

omit [NoiseSource σ K] in
/-- The next slot begins before `stop` as long as some are left. -/
theorem time_lt_iff {w : World σ K} (hperiod : 0 < w.setup.slotPeriod) (stop : K) :
    letI := Analytic.ofField sqrt sin cos exp ln
    w.time < stop ↔ (w.slot : ℤ) < ⌈stop / w.setup.slotPeriod⌉ := by
  rw [Int.lt_ceil, Int.cast_natCast, lt_div_iff₀ hperiod]
  rfl

/-- As many slots are simulated as are left. -/
theorem runsUntil_steps {w : World σ K} (hne : w.stations ≠ []) (hperiod : 0 < w.setup.slotPeriod)
    (stop : K) :
    letI := Analytic.ofField sqrt sin cos exp ln
    RunsUntil stop w (w.slotsLeft stop) (w.steps (w.slotsLeft stop)).2 := by
  let _ := Analytic.ofField sqrt sin cos exp ln
  induction hleft : w.slotsLeft stop generalizing w with
  | zero =>
      rw [slotsLeft] at hleft
      refine .done ?_
      rw [time_lt_iff sqrt sin cos exp ln hperiod]
      omega
  | succ n ih =>
      have hsetup : w.step.2.setup = w.setup := step_setup w
      have hrest : w.step.2.slotsLeft stop = n := by
        rw [slotsLeft] at hleft ⊢
        rw [hsetup, step_slot hne]
        omega
      refine .step ?_ (ih (perform_stations_ne_nil hne .step) (hsetup ▸ hperiod) hrest)
      rw [slotsLeft] at hleft
      rw [time_lt_iff sqrt sin cos exp ln hperiod]
      omega

/-- The program never stops before the time is reached. -/
theorem runsUntil_runUntil {w : World σ K} (hne : w.stations ≠ [])
    (hperiod : 0 < w.setup.slotPeriod) (stop : K) :
    letI := Analytic.ofField sqrt sin cos exp ln
    RunsUntil stop w (w.slotsLeft stop) (w.runUntil stop) := by
  let _ := Analytic.ofField sqrt sin cos exp ln
  have hsteps := runsUntil_steps sqrt sin cos exp ln hne hperiod stop
  have hfuel : w.slotsLeft stop ≤ ⌊stop / w.setup.slotPeriod⌋.toNat + 8 - w.slot := by
    have hceil := Int.ceil_le_floor_add_one (stop / w.setup.slotPeriod)
    rw [slotsLeft]
    omega
  have hrun : w.runUntil stop = (w.steps (w.slotsLeft stop)).2 := hsteps.runFor_eq hfuel
  rwa [hrun]

end Exact

/-- With exact times, a simulation that could be set up runs until any time in as many slots as there
are before it and have not been simulated yet, whatever was asked of it before. It may stop on the way:
going on until the later of two times leaves the same world as running until then at once, and nothing
happens when the time has already been reached. -/
theorem runUntil_runUntil {σ K : Type} [Field K] [LinearOrder K] [IsStrictOrderedRing K]
    [FloorRing K] [NoiseSource σ K] (sqrt sin cos exp ln : K → K) {s : Setup K} :
    let _ := Analytic.ofField sqrt sin cos exp ln
    ∀ {w : World σ K}, create s = .ok w → ∀ commands : List (Command K),
      let v := w.callAll commands
      (∀ stop, RunsUntil stop v (⌈stop / s.slotPeriod⌉ - v.slot).toNat (v.runUntil stop)) ∧
      (∀ a b, a ≤ b → (v.runUntil a).runUntil b = v.runUntil b) ∧
      ∀ a b, b < a → (v.runUntil a).runUntil b = v.runUntil a := by
  intro _ w hcreate commands v
  have hsetup : v.setup = s := (callAll_setup w commands).trans (setup_of_create hcreate)
  have hrunning : v.Running := (Running.of_create hcreate).callAll commands
  have hne := hrunning.stations_ne_nil
  have hperiod : 0 < v.setup.slotPeriod := by
    have hpositive : (0.0 : K) < s.slotPeriod := (create_eq_ok_iff.1 hcreate).1.slotPeriod
    have hzero : (0.0 : K) = 0 := by norm_num
    rwa [hsetup, ← hzero]
  have hruns : ∀ {u : World σ K}, u.stations ≠ [] → 0 < u.setup.slotPeriod → ∀ stop,
      RunsUntil stop u (u.slotsLeft stop) (u.runUntil stop) :=
    runsUntil_runUntil sqrt sin cos exp ln
  refine ⟨?_, ?_, ?_⟩
  · intro stop
    have hall := hruns hne hperiod stop
    rwa [slotsLeft, hsetup] at hall
  · intro a b hle
    -- The world that is left at `a` can run on.
    have hstopped : 0 < (v.runUntil a).setup.slotPeriod := by
      rwa [← callAll_setup v [.runUntil a]] at hperiod
    have hleft := (hrunning.callAll [.runUntil a]).stations_ne_nil
    have hboth := (hruns hne hperiod a).trans (fun _ ht => lt_of_lt_of_le ht hle)
      (hruns hleft hstopped b)
    exact (hboth.unique (hruns hne hperiod b)).2
  · intro a b hlt
    have hreached : ¬ (v.runUntil a).time < b :=
      fun hgoes => (hruns hne hperiod a).not_time_lt (hgoes.trans hlt)
    exact (RunsUntil.done hreached).runFor_eq (Nat.zero_le _)

/-- A simulation with slots of two milliseconds. Its sixth slot begins after exactly ten milliseconds,
and is not simulated before then. -/
theorem runUntil_runUntil_tightSetup :
    letI := Analytic.ofField (throughFloat .sqrt) (throughFloat .sin) (throughFloat .cos)
      (throughFloat .exp) (throughFloat .log)
    ∃ w : World ExactDraws ℚ, create tightSetup = .ok w ∧
      RunsUntil (1 / 100) w 5 (w.runUntil (1 / 100)) ∧
      (w.runUntil (1 / 300)).runUntil (1 / 100) = w.runUntil (1 / 100) ∧
      (w.runUntil (1 / 100)).runUntil (1 / 300) = w.runUntil (1 / 100) := by
  let _ := Analytic.ofField (throughFloat .sqrt) (throughFloat .sin) (throughFloat .cos)
    (throughFloat .exp) (throughFloat .log)
  have hcreate := create_tightSetup (throughFloat .sqrt) (throughFloat .sin) (throughFloat .cos)
    (throughFloat .exp) (throughFloat .log)
  obtain ⟨hcount, hlater, hearlier⟩ := runUntil_runUntil _ _ _ _ _ hcreate []
  have hslots : (⌈(1 / 100 : ℚ) / tightSetup.slotPeriod⌉ - (0 : ℕ)).toNat = 5 := by decide +kernel
  have hslot : (fresh tightSetup : World ExactDraws ℚ).slot = 0 := rfl
  have hruns := hcount (1 / 100)
  rw [callAll, List.foldl_nil, hslot, hslots] at hruns
  exact ⟨_, hcreate, hruns, hlater _ _ (by norm_num), hearlier _ _ (by norm_num)⟩

end Ranging.World

import Ranging.Proofs.RoundingOrder
import Ranging.Proofs.SimulationRun
import Ranging.Random.Draw
import Ranging.Simulation.Metrics

/-!
# The books of a simulation

What the receiver measures is collected right after each packet and written down next to the truth.
So between any two calls nothing waits to be collected, and the list that was written down has
everything that the receiver ever measured, once and in order.

A call is one slot, as many slots as it takes to reach some time, or the replacement of the anchors.
`World.actions` is what the calls come down to, and `World.starts` the worlds in which the slots
begin. What a slot enters in the books is said in terms of the world in which it begins
(`World.Running.booked_step`), and a run enters what its slots do (`World.Running.booked`).
-/

namespace Ranging

namespace World

variable {σ K : Type} [Analytic K] [NoiseSource σ K]

/-! ## Calls -/

/-- What a user can ask a simulation for. -/
inductive Command (K : Type) where
  | step
  | runUntil (stop : K)
  | replaceAnchors

/-- The world after a call. -/
def call (w : World σ K) : Command K → World σ K
  | .step => w.step.2
  | .runUntil stop => w.runUntil stop
  | .replaceAnchors => w.replaceAnchors

/-- The world after some calls. -/
def callAll (w : World σ K) (commands : List (Command K)) : World σ K :=
  commands.foldl call w

/-- The number of slots that it takes to reach `stop`, but at most `fuel` of them. -/
def slotsFor (w : World σ K) (stop : K) : Nat → Nat
  | 0 => 0
  | fuel + 1 => if w.time < stop then w.step.2.slotsFor stop fuel + 1 else 0

/-- The number of slots that it takes to reach `stop`. -/
def slotsUntil (w : World σ K) (stop : K) : Nat :=
  w.slotsFor stop (Scalar.wholePart (stop / w.setup.slotPeriod) + 8 - w.slot)

/-- The actions that some calls come down to. -/
def actions (w : World σ K) : List (Command K) → List Action
  | [] => []
  | .step :: commands => .step :: w.step.2.actions commands
  | .runUntil stop :: commands =>
    List.replicate (w.slotsUntil stop) .step ++ (w.runUntil stop).actions commands
  | .replaceAnchors :: commands => .replaceAnchors :: w.replaceAnchors.actions commands

theorem runFor_eq (w : World σ K) (stop : K) (fuel : Nat) :
    w.runFor stop fuel = w.performAll (List.replicate (w.slotsFor stop fuel) .step) := by
  induction fuel generalizing w with
  | zero => rfl
  | succ fuel ih =>
      rw [runFor, slotsFor]
      split
      · exact ih w.step.2
      · rfl

theorem performAll_append (w : World σ K) (as bs : List Action) :
    w.performAll (as ++ bs) = (w.performAll as).performAll bs :=
  List.foldl_append

theorem performAll_actions (w : World σ K) (commands : List (Command K)) :
    w.performAll (w.actions commands) = w.callAll commands := by
  induction commands generalizing w with
  | nil => rfl
  | cons command commands ih =>
      cases command with
      | step => exact ih w.step.2
      | runUntil stop =>
          have hrun : w.performAll (List.replicate (w.slotsUntil stop) .step) = w.runUntil stop :=
            (runFor_eq w stop _).symm
          rw [actions, performAll_append, hrun]
          exact ih (w.runUntil stop)
      | replaceAnchors => exact ih w.replaceAnchors

/-! ## Slots -/

/-- The worlds in which the slots of some actions begin. -/
def starts (w : World σ K) : List Action → List (World σ K)
  | [] => []
  | .step :: actions => w :: w.step.2.starts actions
  | .replaceAnchors :: actions => w.replaceAnchors.starts actions

/-- What the receiver measures in the next slot. -/
def measured (w : World σ K) : List (Measurement K) :=
  (w.delivery?.bind w.receiver.measurement?).toList

/-- What is written down about the next slot: its measurements next to the truth at its time. -/
def observed (w : World σ K) : List (Observation K) :=
  w.measured.map (w.moved.scene.observation w.time)

/-- A packet leads to one measurement at most. -/
theorem length_measured_le (w : World σ K) :
    w.measured.length ≤ w.delivery?.toList.length := by
  rw [measured]
  cases w.delivery? with
  | none => exact Nat.le_refl 0
  | some a => exact Option.length_toList_le

theorem length_delivery?_le (w : World σ K) : w.delivery?.toList.length ≤ 1 :=
  Option.length_toList_le

/-- The books before and after a run whose slots begin in the worlds `starts`. -/
structure Booked (w v : World σ K) (starts : List (World σ K)) : Prop where
  collected : v.receiver.outbox = []
  observations : v.observations.toList = w.observations.toList ++ starts.flatMap observed
  counts : ∀ u ∈ starts, u.step.1 = u.measured.length
  sent : v.sent = w.sent + starts.length
  received : v.received = w.received + (starts.flatMap (·.delivery?.toList)).length

/-- Two runs in a row. -/
theorem Booked.trans {w u v : World σ K} {starts starts' : List (World σ K)}
    (h : w.Booked u starts) (h' : u.Booked v starts') : w.Booked v (starts ++ starts') where
  collected := h'.collected
  observations := by
    rw [h'.observations, h.observations, List.flatMap_append, List.append_assoc]
  counts := by
    intro x hx
    rcases List.mem_append.1 hx with hx | hx
    · exact h.counts x hx
    · exact h'.counts x hx
  sent := by
    rw [h'.sent, h.sent, List.length_append, Nat.add_assoc]
  received := by
    rw [h'.received, h.received, List.flatMap_append, List.length_append, Nat.add_assoc]

/-- What one slot enters in the books. -/
theorem Running.booked_step {w : World σ K} (h : w.Running) (hempty : w.receiver.outbox = []) :
    w.Booked w.step.2 [w] := by
  obtain ⟨sender, hsender⟩ := exists_sender h.stations_ne_nil
  cases hloses : (w.moved.transmitted sender).loses with
  | true =>
      have hdelivery : w.delivery? = none := by
        rw [delivery?, hsender]
        simp [hloses]
      have hstep := (step_of_sender hsender).trans (receive_of_lost hloses ..)
      constructor <;>
        simp [hstep, hdelivery, measured, observed, transmitted, moved, hempty]
  | false =>
      have hdelivery : w.delivery? = some
          ((w.moved.transmitted sender).arrival w.time w.turn (w.moved.packet sender)) := by
        rw [delivery?, hsender]
        simp [hloses]
      have hstep := (step_of_sender hsender).trans (receive_of_not_lost hloses ..)
      have houtbox : ∀ a, (w.receiver.handed a).outbox = (w.receiver.measurement? a).toList := by
        intro a
        rw [Receiver.handed_eq h.sound.hasSlot, Receiver.after_outbox, hempty, List.nil_append]
      constructor <;>
        simp [hstep, hdelivery, measured, observed, transmitted, moved, delivered, houtbox,
          Receiver.collect]

/-- What a run enters in the books. -/
theorem Running.booked {w : World σ K} (h : w.Running) (hempty : w.receiver.outbox = [])
    (actions : List Action) : w.Booked (w.performAll actions) (w.starts actions) := by
  induction actions generalizing w with
  | nil => exact ⟨hempty, by simp [starts], by simp [starts], rfl, rfl⟩
  | cons action actions ih =>
      cases action with
      | step =>
          have hslot := h.booked_step hempty
          have hrest := ih (h.perform .step) hslot.collected
          exact hslot.trans hrest
      | replaceAnchors =>
          have hrest := ih (h.perform .replaceAnchors) hempty
          exact ⟨hrest.collected, hrest.observations, hrest.counts, hrest.sent, hrest.received⟩

/-- Summed up, a run's slots count what was written down. -/
theorem Booked.size_eq {w v : World σ K} {starts : List (World σ K)} (h : w.Booked v starts) :
    v.observations.size = w.observations.size + (starts.map (·.step.1)).sum := by
  have hcounts : starts.map (·.step.1) = starts.map (·.observed.length) := by
    refine List.map_congr_left ?_
    intro u hu
    rw [h.counts u hu, observed, List.length_map]
  have hlength := congrArg List.length h.observations
  rw [List.length_append, List.length_flatMap] at hlength
  rw [hcounts]
  exact hlength

/-- There are at most as many measurements as packets received, and of these at most as many as
packets sent. -/
theorem length_observed_le (starts : List (World σ K)) :
    (starts.flatMap observed).length ≤ (starts.flatMap (·.delivery?.toList)).length ∧
      (starts.flatMap (·.delivery?.toList)).length ≤ starts.length := by
  induction starts with
  | nil => exact ⟨Nat.le_refl 0, Nat.le_refl 0⟩
  | cons w starts ih =>
      have hmeasured := length_measured_le w
      have hdelivery := length_delivery?_le w
      have hobserved : w.observed.length = w.measured.length := List.length_map ..
      rw [List.flatMap_cons, List.flatMap_cons, List.length_append, List.length_append,
        List.length_cons]
      omega

/-! ## A receiver that nobody collects from -/

end World

section Holding

variable {K : Type} [Scalar K]

/-- The receiver with other measurements waiting to be collected. -/
def Receiver.holding (r : Receiver K) (waiting : List (Measurement K)) : Receiver K :=
  { r with outbox := waiting }

/-- What waits has no influence on what is measured. -/
theorem Receiver.after_holding (r : Receiver K) (waiting : List (Measurement K)) (a : Arrival K) :
    (r.holding waiting).after a =
      (r.after a).holding (waiting ++ (r.measurement? a).toList) := rfl

end Holding

namespace World

variable {σ K : Type} [Analytic K] [NoiseSource σ K]

/-- The receiver after a slot, had nobody collected from it. -/
theorem Running.afterAll_delivery? {w : World σ K} (h : w.Running)
    (waiting : List (Measurement K)) :
    (w.receiver.holding waiting).afterAll w.delivery?.toList =
      w.step.2.receiver.holding (waiting ++ w.measured) := by
  rw [step_receiver, measured]
  cases w.delivery? with
  | none => simp
  | some a =>
      dsimp only [Option.toList_some, Option.bind_some]
      rw [Receiver.afterAll_cons, Receiver.afterAll_nil, Receiver.after_holding,
        Receiver.handed_eq h.sound.hasSlot]
      rfl

/-- Had nobody collected anything, the receiver would be in the same state, except that all
measurements would still wait. -/
theorem Running.afterAll_deliveries {w : World σ K} (h : w.Running)
    (waiting : List (Measurement K)) (actions : List Action) :
    (w.receiver.holding waiting).afterAll (w.deliveries actions) =
      (w.performAll actions).receiver.holding
        (waiting ++ (w.starts actions).flatMap measured) := by
  induction actions generalizing w waiting with
  | nil => simp [deliveries, starts]
  | cons action actions ih =>
      cases action with
      | replaceAnchors => exact ih (h.perform .replaceAnchors) waiting
      | step =>
          have hrest := ih (h.perform .step) (waiting ++ w.measured)
          rw [deliveries, starts, Receiver.afterAll_append, h.afterAll_delivery?,
            List.flatMap_cons, ← List.append_assoc]
          exact hrest

end World

/-! ## From the start -/

/-- Binary64 arithmetic with some choice of the functions whose results are left to a library. -/
@[reducible] def Analytic.ofFloat (round sqrt sin cos exp ln : Float → Float) : Analytic Float :=
  { (inferInstance : Analytic Float) with round, sqrt, sin, cos, exp, ln }

/-- With these functions it is the arithmetic that a program runs with. -/
example : Analytic.ofFloat .round .sqrt .sin .cos .exp .log = (inferInstance : Analytic Float) :=
  rfl

namespace World

/-- A share of the received packets is between zero and one. -/
theorem yieldOf_mem {received measurements : Nat} (hle : measurements ≤ received)
    (hlt : received < 2 ^ 64) :
    (0.0 : Float) ≤ Metrics.yieldOf received measurements ∧
      (Metrics.yieldOf received measurements : Float) ≤ 1.0 := by
  rw [Metrics.yieldOf]
  split
  · exact ⟨by decide, by decide⟩
  · rename_i hpos
    exact Binary64.ofNat_div_ofNat_mem hle hpos hlt

/-- Whatever a simulation that could be set up is asked for, its books are complete. Nothing waits
to be collected, and a slot counts one measurement or none. What is written down is, slot by slot,
what the receiver measured in it, with the time of the slot and the truth at that time. These are
the measurements of a receiver that is handed the same packets and keeps everything, and as many as
the slots counted. Every slot is a packet sent, not all of which are received, and the share of the
received ones that led to a measurement is between zero and one, as long as a machine word counts
them. It makes no difference which numbers rounding and the elementary functions give. -/
theorem books_complete (round sqrt sin cos exp ln : Float → Float) {σ : Type} [NoiseSource σ Float]
    {s : Setup Float} :
    let _ := Analytic.ofFloat round sqrt sin cos exp ln
    ∀ {w : World σ Float}, create s = .ok w → ∀ commands : List (Command Float),
    let v := w.callAll commands
    let slots := w.starts (w.actions commands)
    v.receiver.outbox = [] ∧ (∀ u ∈ slots, u.step.1 ≤ 1) ∧
    v.observations.toList = slots.flatMap observed ∧
    v.observations.size = (slots.map (·.step.1)).sum ∧
    (∃ flags r, w.receiver.run (w.deliveries (w.actions commands)) = .ok (flags, r) ∧
      r.outbox = slots.flatMap measured ∧ v.observations.size = r.outbox.length) ∧
    v.sent = slots.length ∧ v.observations.size ≤ v.received ∧ v.received ≤ v.sent ∧
    (v.received < 2 ^ 64 →
      0.0 ≤ (Metrics.ofWorld v).yieldRatio ∧ (Metrics.ofWorld v).yieldRatio ≤ 1.0) := by
  intro _ w hcreate commands v slots
  have hrunning := Running.of_create hcreate
  obtain ⟨-, -, -, hfresh⟩ := create_eq_ok_iff.1 hcreate
  have hempty : w.receiver.outbox = [] := by
    rw [hfresh]
    rfl
  have hbooked : w.Booked v slots := by
    have hrun := hrunning.booked hempty (w.actions commands)
    rwa [performAll_actions] at hrun
  have hobservations : v.observations.toList = slots.flatMap observed := by
    have hall := hbooked.observations
    rwa [hfresh] at hall
  have hsize : v.observations.size = (slots.flatMap observed).length :=
    congrArg List.length hobservations
  have hsent : v.sent = slots.length := by
    rw [hbooked.sent, hfresh]
    exact Nat.zero_add _
  have hreceived : v.received = (slots.flatMap (·.delivery?.toList)).length := by
    rw [hbooked.received, hfresh]
    exact Nat.zero_add _
  obtain ⟨hle, hle'⟩ := length_observed_le slots
  rw [← hsize, ← hreceived] at hle
  rw [← hreceived, ← hsent] at hle'
  have hkept := hrunning.afterAll_deliveries [] (w.actions commands)
  have hself : w.receiver.holding [] = w.receiver := by
    rw [← hempty]
    rfl
  rw [hself, List.nil_append] at hkept
  have hmeasured : (slots.flatMap observed).length = (slots.flatMap measured).length := by
    simp only [List.length_flatMap, observed, List.length_map]
  refine ⟨hbooked.collected, ?_, hobservations, ?_, ?_, hsent, hle, hle', ?_⟩
  · intro u hu
    rw [hbooked.counts u hu]
    exact (length_measured_le u).trans (length_delivery?_le u)
  · rw [hbooked.size_eq, hfresh]
    exact Nat.zero_add _
  · refine ⟨_, _, Receiver.run_eq hrunning.sound _, ?_, ?_⟩
    · rw [hkept]
      rfl
    · rw [hkept, hsize, hmeasured]
      rfl
  · exact fun hlt => yieldOf_mem hle hlt

end World

/-! ## A simulation without surprises -/

/-- A source of which every eighth draw from zero up to one is zero. The others are one half, what
is drawn from a range is its middle, and there is no noise. -/
structure SteadyDraws where
  units : Nat

instance : NoiseSource SteadyDraws Float where
  seeded seed := ⟨seed.toNat⟩
  unit g := (if g.units % 8 = 0 then 0.0 else 0.5, ⟨g.units + 1⟩)
  between low high g := (0.5 * (low + high), g)
  counter g := (0, g)
  normal _ g := (0.0, g)

namespace World

/-- Three anchors, of whose packets one in eight is lost. -/
def sparseSetup : Setup Float :=
  { Setup.standard with seed := 7, anchorCount := 3, packetLoss := 0.125 }

/-- A number below `2 ^ 63` that is not negative, rounded to a whole one. -/
def roundUp (x : Float) : Float :=
  (x + 0.5).toUInt64.toFloat

/-- The cosine of angles near a third of a turn or a multiple of it. -/
def thirdCos (x : Float) : Float :=
  if x < 1.0 then 1.0 else -0.5

/-- The sine of such angles. -/
def thirdSin (x : Float) : Float :=
  if x < 1.0 then 0.0 else if x < 3.0 then 0.8660254037844386 else -0.8660254037844386

/-- Calls of every kind. -/
def sparseCalls : List (Command Float) :=
  [.step, .runUntil 0.013, .replaceAnchors, .step]

/-- In the course of these calls one of eight packets is lost and one measurement is made. -/
theorem counts_sparseSetup :
    letI := Analytic.ofFloat roundUp .sqrt thirdSin thirdCos .exp .log
    let w : World SteadyDraws Float := (fresh sparseSetup).callAll sparseCalls
    (w.sent, w.received, w.observations.size) = (8, 7, 1) := by
  decide +kernel

/-- The measurement is written down, and nothing else waits. -/
theorem books_complete_sparseSetup :
    letI := Analytic.ofFloat roundUp .sqrt thirdSin thirdCos .exp .log
    ∃ w : World SteadyDraws Float, create sparseSetup = .ok w ∧
      (w.callAll sparseCalls).sent = 8 ∧ (w.callAll sparseCalls).received = 7 ∧
      (w.callAll sparseCalls).observations.size = 1 ∧
      (w.callAll sparseCalls).receiver.outbox = [] ∧
      ((w.starts (w.actions sparseCalls)).map (·.step.1)).sum = 1 ∧
      0.0 ≤ (Metrics.ofWorld (w.callAll sparseCalls)).yieldRatio ∧
      (Metrics.ofWorld (w.callAll sparseCalls)).yieldRatio ≤ 1.0 := by
  let _ := Analytic.ofFloat roundUp .sqrt thirdSin thirdCos .exp .log
  have hvalid : sparseSetup.Valid :=
    ⟨by decide, by decide, by decide +kernel, by decide +kernel, by decide +kernel⟩
  have hfilter : sparseSetup.settings.filter.Valid :=
    ⟨by decide +kernel, by decide +kernel, by decide +kernel, by decide⟩
  have hsettings : sparseSetup.settings.Valid :=
    ⟨by decide, by decide, by decide, by decide +kernel, by decide +kernel, by decide, hfilter⟩
  have hcreate : create sparseSetup = .ok (fresh sparseSetup : World SteadyDraws Float) :=
    create_eq_ok_iff.2 ⟨hvalid, rfl, hsettings, rfl⟩
  obtain ⟨houtbox, -, -, hsum, -, -, -, -, hyield⟩ :=
    books_complete roundUp .sqrt thirdSin thirdCos .exp .log hcreate sparseCalls
  obtain ⟨hsent, hcounts⟩ := Prod.mk.inj counts_sparseSetup
  obtain ⟨hreceived, hsize⟩ := Prod.mk.inj hcounts
  refine ⟨_, hcreate, hsent, hreceived, hsize, houtbox, hsum.symm.trans hsize, hyield ?_⟩
  rw [hreceived]
  decide

end World

end Ranging

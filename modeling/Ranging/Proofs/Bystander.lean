import Ranging.Proofs.SimulationRun
import Ranging.Random.Draw

/-!
# The receiver as a bystander

The tag's receiver listens to the simulated installation and has no part in it. All noise, all losses
and all clocks are drawn from one source, but how often it is drawn from does not depend on what the
receiver does with a packet. So the same world around another receiver (`World.withReceiver`) goes on
as before: each operation commutes with exchanging the receiver, as long as the new settings have the
same tick frequency, at which the simulated clocks run.
-/

namespace Ranging

namespace World

variable {σ K : Type} [Analytic K] [NoiseSource σ K]

/-- The same world around another receiver, with other settings and other observations. -/
def withReceiver (w : World σ K) (settings : Settings K) (receiver : Receiver K)
    (observations : Array (Observation K)) : World σ K :=
  { w with setup := { w.setup with settings }, receiver, observations }

/-! ## Drawing clocks -/

section Clocks

variable {s : Setup K} {settings : Settings K}
  (hfrequency : settings.tickFrequency = s.settings.tickFrequency)

include hfrequency

/-- Of the settings, a simulated clock has nothing but its frequency. -/
theorem randomClock_withSettings (source : σ) :
    randomClock { s with settings } source = randomClock s source := by
  unfold randomClock
  dsimp only
  rw [hfrequency]

theorem randomStations_withSettings (source : σ) (i n : Nat) :
    randomStations { s with settings } source i n = randomStations s source i n := by
  induction n generalizing source i with
  | zero => rfl
  | succ n ih =>
      unfold randomStations
      dsimp only
      rw [randomClock_withSettings hfrequency, ih]

theorem renew_withSettings (count : Nat) (source : σ) (stations : List (Station K)) :
    renew { s with settings } count source stations = renew s count source stations := by
  induction stations generalizing source with
  | nil => rfl
  | cons station rest ih =>
      unfold renew
      dsimp only
      rw [randomClock_withSettings hfrequency, ih]

theorem fresh_withSettings :
    (fresh { s with settings } : World σ K) =
      (fresh s).withReceiver settings (Receiver.fresh settings 0) #[] := by
  unfold fresh
  dsimp only
  rw [randomClock_withSettings hfrequency, randomStations_withSettings hfrequency]
  rfl

theorem replaceAnchors_withReceiver {w : World σ K} (hw : w.setup = s) (receiver : Receiver K)
    (observations : Array (Observation K)) :
    (w.withReceiver settings receiver observations).replaceAnchors =
      w.replaceAnchors.withReceiver settings receiver observations := by
  subst hw
  unfold replaceAnchors withReceiver
  dsimp only
  rw [renew_withSettings hfrequency]

end Clocks

/-! ## One slot -/

section Slot

variable (w : World σ K) (settings : Settings K) (receiver : Receiver K)
  (observations : Array (Observation K))

theorem overhear_withReceiver (t : K) (k : Nat) (sequence : UInt8) (source : σ) (j : Nat)
    (stations : List (Station K)) :
    (w.withReceiver settings receiver observations).overhear t k sequence source j stations =
      w.overhear t k sequence source j stations := by
  induction stations generalizing source j with
  | nil => rfl
  | cons station rest ih =>
      unfold overhear
      simp only [ih]
      rfl

theorem transmitted_withReceiver (sender : Station K) :
    (w.withReceiver settings receiver observations).moved.transmitted sender =
      (w.moved.transmitted sender).withReceiver settings receiver observations := by
  have hoverheard : (w.moved.withReceiver settings receiver observations).overheard sender =
      w.moved.overheard sender := overhear_withReceiver ..
  change (w.moved.withReceiver settings receiver observations).transmitted sender = _
  unfold transmitted
  rw [hoverheard]
  rfl

/-- A receiver is handed the same packet as any other. -/
theorem delivery?_withReceiver :
    (w.withReceiver settings receiver observations).delivery? = w.delivery? := by
  unfold delivery?
  simp only [transmitted_withReceiver]
  rfl

theorem exists_receive_withReceiver (t : K) (k : Nat) (packet : Broadcast K) :
    ∃ receiver' observations',
      ((w.withReceiver settings receiver observations).receive t k packet).2 =
        (w.receive t k packet).2.withReceiver settings receiver' observations' := by
  cases h : w.loses with
  | true =>
      have h' : (w.withReceiver settings receiver observations).loses = true := h
      rw [receive_of_lost h, receive_of_lost h']
      exact ⟨receiver, observations, rfl⟩
  | false =>
      have h' : (w.withReceiver settings receiver observations).loses = false := h
      rw [receive_of_not_lost h, receive_of_not_lost h']
      exact ⟨_, _, rfl⟩

/-- The world goes on as it does around its own receiver. -/
theorem exists_step_withReceiver :
    ∃ receiver' observations', (w.withReceiver settings receiver observations).step.2 =
      w.step.2.withReceiver settings receiver' observations' := by
  let v := w.withReceiver settings receiver observations
  cases h : w.stations[w.turn]? with
  | none =>
      have h' : v.stations[v.turn]? = none := h
      rw [step_of_nobody h, step_of_nobody h']
      exact ⟨receiver, observations, rfl⟩
  | some sender =>
      have h' : v.stations[v.turn]? = some sender := h
      rw [step_of_sender h, step_of_sender h', transmitted_withReceiver]
      exact exists_receive_withReceiver ..

end Slot

/-! ## Runs -/

/-- What a run preserves: the worlds differ in their receivers only, and these are handed the same
packets. -/
theorem exists_performAll_withReceiver {w : World σ K} {settings : Settings K}
    (hfrequency : settings.tickFrequency = w.setup.settings.tickFrequency) (receiver : Receiver K)
    (observations : Array (Observation K)) (actions : List Action) :
    (w.withReceiver settings receiver observations).deliveries actions = w.deliveries actions ∧
    ∃ receiver' observations',
      (w.withReceiver settings receiver observations).performAll actions =
        (w.performAll actions).withReceiver settings receiver' observations' := by
  induction actions generalizing w receiver observations with
  | nil => exact ⟨rfl, receiver, observations, rfl⟩
  | cons action actions ih =>
      have hnext := hfrequency
      rw [← perform_setup w action] at hnext
      rw [performAll_cons, performAll_cons]
      cases action with
      | step =>
          obtain ⟨receiver', observations', hstep⟩ :=
            exists_step_withReceiver w settings receiver observations
          rw [perform, deliveries, hstep, delivery?_withReceiver]
          obtain ⟨hdeliveries, hrest⟩ := ih hnext receiver' observations'
          exact ⟨congrArg _ hdeliveries, hrest⟩
      | replaceAnchors =>
          rw [perform, deliveries, replaceAnchors_withReceiver hfrequency rfl]
          exact ih hnext receiver observations

/-- Two simulations, whose setups differ in settings of the receiver other than the tick frequency, go
through the same transmissions and replacements. Their receivers are handed the same packets in the
same order, received at the same counter readings and times in milliseconds, and each receiver becomes
what these packets make of it. The scenes, the stations with their identifiers and clocks, the clocks
of the tags and the numbers of packets sent and received are the same in the end. -/
theorem run_of_receivers {s : Setup K} {settings : Settings K}
    (hfrequency : settings.tickFrequency = s.settings.tickFrequency) {w w' : World σ K}
    (hcreate : create s = .ok w) (hcreate' : create { s with settings } = .ok w')
    (actions : List Action) :
    let v := w.performAll actions
    let v' := w'.performAll actions
    w'.deliveries actions = w.deliveries actions ∧
    w.receiver.handOver (w.deliveries actions) = .ok v.receiver ∧
    w'.receiver.handOver (w.deliveries actions) = .ok v'.receiver ∧
    v'.scene = v.scene ∧ v'.stations = v.stations ∧ v'.tagClock = v.tagClock ∧
    v'.sent = v.sent ∧ v'.received = v.received := by
  have hrunning := Running.of_create hcreate
  have hrunning' := Running.of_create hcreate'
  have hhanded := hrunning.handOver_deliveries actions
  have hhanded' := hrunning'.handOver_deliveries actions
  obtain ⟨-, -, -, rfl⟩ := create_eq_ok_iff.1 hcreate
  obtain ⟨-, -, -, rfl⟩ := create_eq_ok_iff.1 hcreate'
  obtain ⟨hdeliveries, receiver', observations', hrun⟩ := exists_performAll_withReceiver
    (w := (fresh s : World σ K)) hfrequency (Receiver.fresh settings 0) #[] actions
  rw [← fresh_withSettings hfrequency] at hdeliveries hrun
  rw [hdeliveries] at hhanded'
  refine ⟨hdeliveries, hhanded, hhanded', ?_⟩
  rw [hrun]
  exact ⟨rfl, rfl, rfl, rfl, rfl⟩

/-- Two anchors, of whose packets every second one is lost on average. -/
def lossySetup : Setup Float :=
  { Setup.standard with seed := 4, anchorCount := 2, packetLoss := 0.5 }

/-- A receiver with less room and another strategy, for long distances. -/
def otherSettings : Settings Float :=
  { Settings.longRange with anchorCapacity := 3, strategy := .random }

/-- The packet right after the replacement is lost to both receivers. -/
theorem run_of_receivers_lossySetup :
    otherSettings.tickFrequency = lossySetup.settings.tickFrequency ∧
    ∃ (w w' : World ChaCha Float) (actions : List Action),
      actions = [.step, .replaceAnchors, .step, .step] ∧
      create lossySetup = .ok w ∧ create { lossySetup with settings := otherSettings } = .ok w' ∧
      w'.deliveries actions = w.deliveries actions ∧
      (w.deliveries actions).map (·.source) = [⟨0⟩, ⟨3⟩] ∧
      (w'.performAll actions).stations = (w.performAll actions).stations ∧
      (w'.performAll actions).received = (w.performAll actions).received := by
  have hfrequency : otherSettings.tickFrequency = lossySetup.settings.tickFrequency := rfl
  have hcreate : create lossySetup = .ok (fresh lossySetup : World ChaCha Float) :=
    create_eq_ok_iff.2 ⟨Setup.validate_eq_ok_iff.1 rfl, rfl, Settings.validate_eq_ok_iff.1 rfl, rfl⟩
  have hcreate' : create { lossySetup with settings := otherSettings } =
      .ok (fresh { lossySetup with settings := otherSettings } : World ChaCha Float) :=
    create_eq_ok_iff.2 ⟨Setup.validate_eq_ok_iff.1 rfl, rfl, Settings.validate_eq_ok_iff.1 rfl, rfl⟩
  obtain ⟨hdeliveries, -, -, -, hstations, -, -, hreceived⟩ := run_of_receivers hfrequency hcreate
    hcreate' [.step, .replaceAnchors, .step, .step]
  have hsources : ((fresh lossySetup : World ChaCha Float).deliveries
      [.step, .replaceAnchors, .step, .step]).map (·.source) = [⟨0⟩, ⟨3⟩] := by decide +kernel
  exact ⟨hfrequency, _, _, _, rfl, hcreate, hcreate', hdeliveries, hsources, hstations, hreceived⟩

end World

end Ranging

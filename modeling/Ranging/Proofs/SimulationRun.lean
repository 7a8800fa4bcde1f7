import Ranging.Proofs.Transmission
import Ranging.Proofs.Validation

/-!
# Runs of a simulation

A simulation is set up and then goes on slot by slot, and between the slots its anchors may be
replaced. As long as there are anchors and the receiver's table is sound, which `World.Running` says,
the slots count, and every packet that the receiver is handed is handled. Both hold from the start.
-/

namespace Ranging

namespace Receiver

variable {K : Type} [Scalar K]

/-- Hand packets to a receiver in order, and collect what it measures after each of them. -/
def handOver (r : Receiver K) : List (Arrival K) → Except StaleHandle (Receiver K)
  | [] => return r
  | a :: as => do
    let (_, r) ← r.handle a.broadcast a.rxTime a.now
    r.collect.2.handOver as

/-- A packet that does not fail is followed by the others. -/
theorem handOver_cons {r : Receiver K} (h : r.table.HasSlot) (a : Arrival K)
    (as : List (Arrival K)) : r.handOver (a :: as) = (r.handed a).collect.2.handOver as := by
  rw [handOver, handle_eq h, handed_eq h]
  rfl

end Receiver

namespace World

variable {σ K : Type} [Analytic K] [NoiseSource σ K]

/-! ## Setting up -/

/-- The world that a setup describes, before the first slot. -/
def fresh (s : Setup K) : World σ K :=
  let clock := randomClock s (NoiseSource.seeded s.seed : σ)
  let stations := randomStations s clock.2 0 s.anchorCount
  { setup := s
    scene := startScene σ s
    receiver := Receiver.fresh s.settings 0
    tagClock := clock.1
    stations := stations.1
    source := stations.2 }

/-- A simulation can be set up if the setup, the jitter and the receiver's settings are valid. -/
theorem create_eq_ok_iff {s : Setup K} {w : World σ K} :
    create s = .ok w ↔
      s.Valid ∧ Scalar.isFinite s.jitter = true ∧ s.settings.Valid ∧ w = fresh s := by
  rw [create, ← Setup.validate_eq_ok_iff, ← Settings.validate_eq_ok_iff]
  cases hvalidate : s.validate with
  | error e => simp [bind, Except.bind]
  | ok u =>
      cases hjitter : Scalar.isFinite s.jitter with
      | false => simp [bind, Except.bind, throw, throwThe, MonadExceptOf.throw]
      | true =>
          cases hreceiver : Receiver.create s.settings 0 with
          | error e =>
              have hsettings : ¬ s.settings.validate = .ok () := by
                intro hvalid
                rw [Receiver.create_eq_ok_iff.2 ⟨hvalid, rfl⟩] at hreceiver
                cases hreceiver
              simp [bind, Except.bind, Except.mapError, hsettings]
          | ok r =>
              obtain ⟨hvalid, rfl⟩ := Receiver.create_eq_ok_iff.1 hreceiver
              simp [bind, Except.bind, Except.mapError, pure, Except.pure, hvalid, fresh, eq_comm]

theorem length_randomStations (s : Setup K) (source : σ) (i n : Nat) :
    (randomStations s source i n).1.length = n := by
  induction n generalizing source i with
  | zero => rfl
  | succ n ih => exact congrArg (· + 1) (ih _ (i + 1))

theorem length_renew (s : Setup K) (count : Nat) (source : σ) (stations : List (Station K)) :
    (renew s count source stations).1.length = stations.length := by
  induction stations generalizing source with
  | nil => rfl
  | cons station rest ih => exact congrArg (· + 1) (ih _)

/-! ## What is done to a simulation -/

/-- Simulate the next transmission, or replace all anchors. -/
inductive Action where
  | step
  | replaceAnchors
deriving DecidableEq

/-- The world after an action. -/
def perform (w : World σ K) : Action → World σ K
  | .step => w.step.2
  | .replaceAnchors => w.replaceAnchors

/-- The world after some actions. -/
def performAll (w : World σ K) (actions : List Action) : World σ K :=
  actions.foldl perform w

/-- The packets that the tag's receiver is handed meanwhile. -/
def deliveries (w : World σ K) : List Action → List (Arrival K)
  | [] => []
  | .step :: actions => w.delivery?.toList ++ w.step.2.deliveries actions
  | .replaceAnchors :: actions => w.replaceAnchors.deliveries actions

@[simp] theorem performAll_nil (w : World σ K) : w.performAll [] = w := rfl

@[simp] theorem performAll_cons (w : World σ K) (action : Action) (actions : List Action) :
    w.performAll (action :: actions) = (w.perform action).performAll actions := rfl

@[simp] theorem perform_setup (w : World σ K) (action : Action) :
    (w.perform action).setup = w.setup := by
  cases action with
  | step => exact step_setup w
  | replaceAnchors => rfl

@[simp] theorem length_perform_stations (w : World σ K) (action : Action) :
    (w.perform action).stations.length = w.stations.length := by
  cases action with
  | step => exact length_step_stations w
  | replaceAnchors => exact length_renew ..

theorem perform_stations_ne_nil {w : World σ K} (h : w.stations ≠ []) (action : Action) :
    (w.perform action).stations ≠ [] := by
  rw [← List.length_pos_iff, length_perform_stations, List.length_pos_iff]
  exact h

/-- A simulation with anchors, and with a receiver that handles every packet. -/
structure Running (w : World σ K) : Prop where
  stations_ne_nil : w.stations ≠ []
  sound : w.receiver.table.Sound

theorem Running.of_create {s : Setup K} {w : World σ K} (h : create s = .ok w) : w.Running := by
  obtain ⟨hvalid, -, hsettings, rfl⟩ := create_eq_ok_iff.1 h
  refine ⟨?_, ?_⟩
  · have hlength : (fresh s : World σ K).stations.length = s.anchorCount :=
      length_randomStations ..
    have hcount := hvalid.anchorCount.1
    exact List.ne_nil_of_length_pos (by omega)
  · exact Receiver.sound_of_create
      (Receiver.create_eq_ok_iff.2 ⟨Settings.validate_eq_ok_iff.2 hsettings, rfl⟩)

/-- What one action preserves. -/
theorem Running.perform {w : World σ K} (h : w.Running) (action : Action) :
    (w.perform action).Running where
  stations_ne_nil := perform_stations_ne_nil h.stations_ne_nil action
  sound := by
    cases action with
    | replaceAnchors => exact h.sound
    | step =>
        rw [World.perform, step_receiver]
        split
        · exact h.sound
        · rw [Receiver.handed_eq h.sound.hasSlot]
          exact Receiver.sound_after h.sound _

/-- The receiver is handed these packets, each of them is handled, and nothing else happens to the
receiver. -/
theorem Running.handOver_deliveries {w : World σ K} (h : w.Running) (actions : List Action) :
    w.receiver.handOver (w.deliveries actions) = .ok (w.performAll actions).receiver := by
  induction actions generalizing w with
  | nil => rfl
  | cons action actions ih =>
      have hrest := ih (h.perform action)
      rw [performAll_cons, ← hrest]
      cases action with
      | replaceAnchors => rfl
      | step =>
          rw [World.perform, step_receiver, deliveries]
          cases w.delivery? with
          | none => rfl
          | some a => exact Receiver.handOver_cons h.sound.hasSlot a _

end World

end Ranging

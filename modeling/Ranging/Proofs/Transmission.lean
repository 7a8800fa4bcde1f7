import Ranging.Proofs.Run
import Ranging.Simulation.World

/-!
# What a slot of a simulation does

In a slot the scene moves on to the slot's time, the station whose turn it is transmits, all others
overhear it, and the packet reaches the tag or is lost. `World.step_of_sender` takes the slot apart
into these, and `World.receive_of_lost` and `World.receive_of_not_lost` say what becomes of the packet.

The tag's receiver takes part in the last of them only: it is handed a packet, and what it measures is
collected. `World.delivery?` is the packet that it is handed, and by `World.step_receiver` nothing else
happens to it.
-/

namespace Ranging

namespace Receiver

variable {K : Type} [Scalar K]

/-- The receiver after a packet, or as it was if the packet could not be handled. -/
def handed (r : Receiver K) (a : Arrival K) : Receiver K :=
  match r.handle a.broadcast a.rxTime a.now with
  | .ok (_, r) => r
  | .error _ => r

theorem handed_eq {r : Receiver K} (h : r.table.HasSlot) (a : Arrival K) :
    r.handed a = r.after a := by
  rw [handed, handle_eq h]

end Receiver

/-- A measurement next to the truth. -/
def Scene.observation {K : Type} [Analytic K] (scene : Scene K) (t : K) (m : Measurement K) :
    Observation K where
  time := t
  first := m.first
  second := m.second
  distanceDiff := m.distanceDiff
  trueDiff := scene.trueDiff m
  error := m.distanceDiff - scene.trueDiff m

namespace World

variable {σ K : Type} [Analytic K]

/-- Observing changes nothing but what is written down. -/
theorem observe_eq (w : World σ K) (t : K) (ms : List (Measurement K)) :
    w.observe t ms =
      { w with observations := w.observations ++ ms.map (w.scene.observation t) } := by
  induction ms generalizing w with
  | nil => simp [observe]
  | cons m ms ih =>
      have hcons : w.observe t (m :: ms) = { w with
          observations := w.observations.push (w.scene.observation t m) }.observe t ms := rfl
      rw [hcons, ih]
      simp

variable [NoiseSource σ K]

/-! ## The parts of a slot -/

/-- The world when the time of the next slot has come. -/
def moved (w : World σ K) : World σ K :=
  { w with scene := w.scene.advance (w.time - w.scene.time) }

/-- The packet that a station transmits in the next slot. -/
def packet (w : World σ K) (sender : Station K) : Broadcast K where
  source := sender.id
  txTime := sender.clock.timestamp w.time
  sequence := sender.sequence
  reports := w.reports w.turn sender
  position := if w.positionDue sender w.time then w.scene.anchors[w.turn]? else none

/-- A station after it has transmitted. -/
def afterTransmission (w : World σ K) (sender : Station K) : Station K :=
  { sender with
    lastPosition := if w.positionDue sender w.time then some w.time else sender.lastPosition
    sequence := (sender.sequence + 1) &&& sequenceMask }

/-- The stations when one of them has transmitted and the others have overheard it, and the source
after that. -/
def overheard (w : World σ K) (sender : Station K) : List (Station K) × σ :=
  w.overhear w.time w.turn sender.sequence w.source 0
    (w.stations.set w.turn (w.afterTransmission sender))

/-- The world when a station has transmitted, but the tag has not received anything yet. -/
def transmitted (w : World σ K) (sender : Station K) : World σ K :=
  { w with
    stations := (w.overheard sender).1
    source := (w.overheard sender).2
    slot := w.slot + 1
    sent := w.sent + 1 }

/-- The packet that was just sent does not reach the tag. -/
def loses (w : World σ K) : Bool :=
  (NoiseSource.unit w.source).1 < w.setup.packetLoss

/-- How a packet of station number `k`, sent at `t`, reaches the tag. -/
def arrival (w : World σ K) (t : K) (k : Nat) (packet : Broadcast K) : Arrival K where
  broadcast := packet
  rxTime := w.tagClock.noisyTimestamp (t + Scene.flightTime ((w.scene.tagDistance? k).getD 0.0))
    (NoiseSource.normal w.setup.jitter (NoiseSource.unit w.source).2).1
  now := Scalar.toHalfWord (t * 1000.0)

/-- The world when the receiver has been handed a packet and its measurements are written down. -/
def delivered (w : World σ K) (t : K) (a : Arrival K) : World σ K :=
  { w with
    source := (NoiseSource.normal w.setup.jitter (NoiseSource.unit w.source).2).2
    receiver := (w.receiver.handed a).collect.2
    observations := w.observations ++ (w.receiver.handed a).outbox.map (w.scene.observation t)
    received := w.received + 1 }

theorem receive_of_lost {w : World σ K} (h : w.loses = true) (t : K) (k : Nat)
    (packet : Broadcast K) :
    w.receive t k packet = (0, { w with source := (NoiseSource.unit w.source).2 }) :=
  if_pos (of_decide_eq_true h)

theorem receive_of_not_lost {w : World σ K} (h : w.loses = false) (t : K) (k : Nat)
    (packet : Broadcast K) :
    w.receive t k packet = ((w.receiver.handed (w.arrival t k packet)).outbox.length,
      w.delivered t (w.arrival t k packet)) := by
  let r := w.receiver.handed (w.arrival t k packet)
  let collected : World σ K := { w with
    source := (NoiseSource.normal w.setup.jitter (NoiseSource.unit w.source).2).2
    receiver := r.collect.2
    received := w.received + 1 }
  have hreceive : w.receive t k packet = (r.outbox.length, collected.observe t r.outbox) :=
    if_neg (of_decide_eq_false h)
  rw [hreceive, observe_eq]
  rfl

theorem step_eq (w : World σ K) :
    w.step = match w.stations[w.turn]? with
      | none => (0, w.moved)
      | some sender =>
        (w.moved.transmitted sender).receive w.time w.turn (w.moved.packet sender) := rfl

/-- Without stations there is nothing but the scene that moves. -/
theorem step_of_nobody {w : World σ K} (h : w.stations[w.turn]? = none) :
    w.step = (0, w.moved) := by
  rw [step_eq, h]

/-- A slot, taken apart. -/
theorem step_of_sender {w : World σ K} {sender : Station K}
    (h : w.stations[w.turn]? = some sender) :
    w.step = (w.moved.transmitted sender).receive w.time w.turn (w.moved.packet sender) := by
  rw [step_eq, h]

/-! ## What a slot changes -/

/-- Receiving touches nothing but the source, the receiver, and what is counted and written down. -/
theorem exists_receive_eq (w : World σ K) (t : K) (k : Nat) (packet : Broadcast K) :
    ∃ source receiver observations received, (w.receive t k packet).2 =
      { w with source, receiver, observations, received } := by
  cases h : w.loses with
  | true => exact ⟨_, _, _, _, congrArg Prod.snd (receive_of_lost h t k packet)⟩
  | false => exact ⟨_, _, _, _, congrArg Prod.snd (receive_of_not_lost h t k packet)⟩

theorem exists_step_eq {w : World σ K} {sender : Station K}
    (h : w.stations[w.turn]? = some sender) :
    ∃ source receiver observations received, w.step.2 =
      { w.moved.transmitted sender with source, receiver, observations, received } := by
  rw [step_of_sender h]
  exact exists_receive_eq ..

/-- The packet that the tag's receiver is handed in the next slot. -/
def delivery? (w : World σ K) : Option (Arrival K) := do
  let sender ← w.stations[w.turn]?
  if (w.moved.transmitted sender).loses then none
  else some ((w.moved.transmitted sender).arrival w.time w.turn (w.moved.packet sender))

theorem step_receiver (w : World σ K) :
    w.step.2.receiver = match w.delivery? with
      | none => w.receiver
      | some a => (w.receiver.handed a).collect.2 := by
  cases h : w.stations[w.turn]? with
  | none =>
      rw [step_of_nobody h, delivery?, h]
      rfl
  | some sender =>
      rw [step_of_sender h, delivery?, h]
      dsimp only [Option.bind_eq_bind, Option.bind_some]
      cases hloses : (w.moved.transmitted sender).loses with
      | true =>
          rw [receive_of_lost hloses]
          rfl
      | false =>
          rw [receive_of_not_lost hloses]
          rfl

@[simp] theorem step_setup (w : World σ K) : w.step.2.setup = w.setup := by
  cases h : w.stations[w.turn]? with
  | none =>
      rw [step_of_nobody h]
      rfl
  | some sender =>
      obtain ⟨_, _, _, _, hstep⟩ := exists_step_eq h
      rw [hstep]
      rfl

/-- In every slot the scene moves on to the slot's time, whatever becomes of the packet. -/
theorem step_scene (w : World σ K) :
    w.step.2.scene = w.scene.advance (w.time - w.scene.time) := by
  cases h : w.stations[w.turn]? with
  | none =>
      rw [step_of_nobody h]
      rfl
  | some sender =>
      obtain ⟨_, _, _, _, hstep⟩ := exists_step_eq h
      rw [hstep]
      rfl

theorem length_overhear (w : World σ K) (t : K) (k : Nat) (sequence : UInt8) (source : σ) (j : Nat)
    (stations : List (Station K)) :
    (w.overhear t k sequence source j stations).1.length = stations.length := by
  induction stations generalizing source j with
  | nil => rfl
  | cons station rest ih =>
      rw [overhear]
      split
      · exact congrArg (· + 1) (ih source (j + 1))
      · exact congrArg (· + 1) (ih _ (j + 1))

@[simp] theorem length_step_stations (w : World σ K) :
    w.step.2.stations.length = w.stations.length := by
  cases h : w.stations[w.turn]? with
  | none =>
      rw [step_of_nobody h]
      rfl
  | some sender =>
      obtain ⟨_, _, _, _, hstep⟩ := exists_step_eq h
      rw [hstep]
      exact (length_overhear ..).trans List.length_set

omit [Analytic K] [NoiseSource σ K] in
/-- It is some station's turn. -/
theorem exists_sender {w : World σ K} (h : w.stations ≠ []) :
    ∃ sender, w.stations[w.turn]? = some sender :=
  ⟨_, List.getElem?_eq_getElem (Nat.mod_lt _ (List.length_pos_iff.2 h))⟩

theorem step_slot {w : World σ K} (h : w.stations ≠ []) : w.step.2.slot = w.slot + 1 := by
  obtain ⟨sender, hsender⟩ := exists_sender h
  obtain ⟨_, _, _, _, hstep⟩ := exists_step_eq hsender
  rw [hstep]
  rfl

end World

end Ranging

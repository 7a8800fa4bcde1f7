import Ranging.Broadcast
import Ranging.Random.Source
import Ranging.Simulation.Oscillator
import Ranging.Simulation.Scene
import Ranging.Simulation.Setup

/-!
# A simulated installation

Anchors transmit in turn, one in each slot. Every anchor hears every other one and reports, in
each of its packets, when it received its neighbours' latest packets. The tag receives each packet
with some probability and hands it to its receiver, and what the receiver measures is written down
next to the truth.

The path of the tag is drawn from a source of its own, so that it does not depend on the radio.
-/

namespace Ranging

/-- A simulated anchor. -/
structure Station (K : Type) where
  id : AnchorId
  clock : Oscillator K
  /-- The sequence number of its next packet. -/
  sequence : UInt8
  /-- The latest packet of every station that this one has received. -/
  heard : List (Option Reception)
  /-- When it last sent its position. -/
  lastPosition : Option K

/-- A measurement next to the truth. -/
structure Observation (K : Type) where
  time : K
  first : AnchorId
  second : AnchorId
  distanceDiff : K
  trueDiff : K
  error : K

/-- The state of a simulation. -/
structure World (σ K : Type) where
  setup : Setup K
  scene : Scene K
  receiver : Receiver K
  tagClock : Oscillator K
  stations : List (Station K)
  /-- Where loss, noise and clocks are drawn from. -/
  source : σ
  /-- The number of slots that have passed. -/
  slot : Nat := 0
  observations : Array (Observation K) := #[]
  /-- Packets that anchors have sent. -/
  sent : Nat := 0
  /-- Packets that the tag has received. -/
  received : Nat := 0

namespace World

variable {σ K : Type} [Analytic K] [NoiseSource σ K]

/-! ## Setting up -/

/-- Draw a clock. -/
def randomClock (s : Setup K) (source : σ) : Oscillator K × σ :=
  let frequency := s.settings.tickFrequency
  let (driftPpm, source) :=
    if 0.0 < s.clockDrift then NoiseSource.between (-s.clockDrift) s.clockDrift source
    else (0.0, source)
  let (offset, source) :=
    match s.wrapAfter with
    | some seconds =>
      let (u, source) := NoiseSource.unit source
      let beforeWrap := (seconds + u) * frequency * (1.0 + driftPpm * 1e-6)
      let offset := Scalar.greater (Scalar.ofNat Ticks.counterPeriod - beforeWrap) 0.0
      (Scalar.toWord offset, source)
    | none => NoiseSource.counter source
  (.create frequency driftPpm offset, source)

/-- Draw the clocks of the next `n` stations, of which the first is number `i`. -/
def randomStations (s : Setup K) (source : σ) (i : Nat) : Nat → List (Station K) × σ
  | 0 => ([], source)
  | n + 1 =>
    let (clock, source) := randomClock s source
    let station : Station K := {
      id := AnchorId.advance ⟨s.firstId⟩ i
      clock
      sequence := 0
      heard := List.replicate s.anchorCount none
      lastPosition := none }
    let (rest, source) := randomStations s source (i + 1) n
    (station :: rest, source)

/-- The seed of the tag's path. -/
def pathSeed (seed : UInt64) : UInt64 :=
  seed * 0x9e3779b97f4a7c15

/-- Draw the velocity of the tag: a heading, and a gentle climb or descent. -/
def randomVelocity (speed : K) (source : σ) : Point K :=
  let (heading, source) := NoiseSource.between 0.0 Scene.fullTurn source
  let (climb, _) := NoiseSource.between (-0.2) 0.2 source
  let direction : Point K := ⟨Analytic.cos heading, Analytic.sin heading, climb⟩
  direction.normalize.scale speed

/-- The scene at the start of a simulation. -/
def startScene (σ : Type) [NoiseSource σ K] (s : Setup K) : Scene K :=
  .start (Scene.ring s.anchorCount s.radius s.height)
    (randomVelocity s.tagSpeed (NoiseSource.seeded (pathSeed s.seed) : σ))

/-- Set up a simulation. -/
def create (s : Setup K) : Except (Setup.Problem K) (World σ K) := do
  s.validate
  if !Scalar.isFinite s.jitter then throw .jitter
  let receiver ← (Receiver.create s.settings 0).mapError .settings
  let (tagClock, source) := randomClock s (NoiseSource.seeded s.seed : σ)
  let (stations, source) := randomStations s source 0 s.anchorCount
  return { setup := s, scene := startScene σ s, receiver, tagClock, stations, source }

/-! ## Transmissions -/

/-- The time of the next slot, in seconds. -/
def time (w : World σ K) : K :=
  Scalar.ofNat w.slot * w.setup.slotPeriod

/-- The time of flight between two anchors, in seconds. -/
def flightBetween (scene : Scene K) (i j : Nat) : K :=
  Scene.flightTime ((scene.anchorDistance? i j).getD 0.0)

/-- What the sender, number `k`, reports about number `j`. -/
def report? (w : World σ K) (k : Nat) (sender : Station K) (j : Nat) (neighbour : Station K) :
    Option Report := do
  guard (j ≠ k)
  let reception ← (← sender.heard[j]?)
  let flight := sender.clock.intervalTicks (flightBetween w.scene j k)
  return {
    neighbour := neighbour.id
    rxTime := reception.time
    sequence := reception.sequence
    flight := Scalar.toSignedWord (Scalar.round flight) }

/-- All reports of the sender. -/
def reports (w : World σ K) (k : Nat) (sender : Station K) : List Report :=
  (w.stations.mapIdx (w.report? k sender)).filterMap id

/-- A station's position is due if it has not been sent for a whole period. -/
def positionDue (w : World σ K) (sender : Station K) (t : K) : Bool :=
  match sender.lastPosition with
  | some last => w.setup.positionPeriod ≤ t - last
  | none => true

/-- Let all stations but the sender, number `k`, receive its packet. The first of the given
stations is number `j`. -/
def overhear (w : World σ K) (t : K) (k : Nat) (sequence : UInt8) (source : σ) (j : Nat) :
    List (Station K) → List (Station K) × σ
  | [] => ([], source)
  | station :: rest =>
    if j = k then
      let (rest, source) := overhear w t k sequence source (j + 1) rest
      (station :: rest, source)
    else
      let arrival := t + flightBetween w.scene k j
      let (noise, source) := NoiseSource.normal w.setup.jitter source
      let reception : Reception := ⟨station.clock.noisyTimestamp arrival noise, sequence⟩
      let (rest, source) := overhear w t k sequence source (j + 1) rest
      ({ station with heard := station.heard.set k (some reception) } :: rest, source)

/-- Write down measurements next to the truth at this moment. -/
def observe (w : World σ K) (t : K) (measurements : List (Measurement K)) : World σ K :=
  measurements.foldl (fun w m =>
    let truth := w.scene.trueDiff m
    { w with
      observations := w.observations.push {
        time := t
        first := m.first
        second := m.second
        distanceDiff := m.distanceDiff
        trueDiff := truth
        error := m.distanceDiff - truth } }) w

/-- Let the tag receive a packet of station number `k`, unless it is lost. The receiver's handle
of a packet's sender is valid as long as the packet is processed, so that nothing can fail. -/
def receive (w : World σ K) (t : K) (k : Nat) (packet : Broadcast K) : Nat × World σ K :=
  let (u, source) := NoiseSource.unit w.source
  let w := { w with source }
  if u < w.setup.packetLoss then (0, w)
  else
    let arrival := t + Scene.flightTime ((w.scene.tagDistance? k).getD 0.0)
    let (noise, source) := NoiseSource.normal w.setup.jitter w.source
    let rxTime := w.tagClock.noisyTimestamp arrival noise
    let receiver :=
      match w.receiver.handle packet rxTime (Scalar.toHalfWord (t * 1000.0)) with
      | .ok (_, receiver) => receiver
      | .error _ => w.receiver
    let (measurements, receiver) := receiver.collect
    let w := { w with source, receiver, received := w.received + 1 }
    (measurements.length, w.observe t measurements)

/-- The number of the station whose turn it is. -/
def turn (w : World σ K) : Nat :=
  w.slot % w.stations.length

/-- Simulate the next transmission. The number of measurements that came of it is returned. -/
def step (w : World σ K) : Nat × World σ K :=
  let t := w.time
  let w := { w with scene := w.scene.advance (t - w.scene.time) }
  let k := w.turn
  match w.stations[k]? with
  | none => (0, w)
  | some sender =>
    let isDue := w.positionDue sender t
    let packet : Broadcast K := {
      source := sender.id
      txTime := sender.clock.timestamp t
      sequence := sender.sequence
      reports := w.reports k sender
      position := if isDue then w.scene.anchors[k]? else none }
    let sender := { sender with
      lastPosition := if isDue then some t else sender.lastPosition
      sequence := (sender.sequence + 1) &&& sequenceMask }
    let (stations, source) := w.overhear t k packet.sequence w.source 0 (w.stations.set k sender)
    { w with stations, source, slot := w.slot + 1, sent := w.sent + 1 }.receive t k packet

/-! ## Runs -/

/-- Simulate some transmissions. The numbers of measurements are returned in order. -/
def steps (w : World σ K) : Nat → List Nat × World σ K
  | 0 => ([], w)
  | n + 1 =>
    let (count, w) := w.step
    let (counts, w) := w.steps n
    (count :: counts, w)

/-- Simulate transmissions until `stop` is reached, but at most `fuel` of them. -/
def runFor (w : World σ K) (stop : K) : Nat → World σ K
  | 0 => w
  | fuel + 1 => if w.time < stop then w.step.2.runFor stop fuel else w

/-- Simulate transmissions until `stop` is reached. It takes about `stop / slotPeriod` slots; a few
more are allowed because both the quotient and the time of a slot are rounded. -/
def runUntil (w : World σ K) (stop : K) : World σ K :=
  w.runFor stop (Scalar.wholePart (stop / w.setup.slotPeriod) + 8 - w.slot)

/-- Give stations new identifiers and clocks and let them start afresh. -/
def renew (s : Setup K) (count : Nat) (source : σ) : List (Station K) → List (Station K) × σ
  | [] => ([], source)
  | station :: rest =>
    let (clock, source) := randomClock s source
    let fresh : Station K := {
      id := station.id.advance count
      clock
      sequence := 0
      heard := List.replicate station.heard.length none
      lastPosition := none }
    let (rest, source) := renew s count source rest
    (fresh :: rest, source)

/-- Replace all anchors by others in the same places, as if the tag had moved on. -/
def replaceAnchors (w : World σ K) : World σ K :=
  let (stations, source) := renew w.setup w.stations.length w.source w.stations
  { w with stations, source }

/-- The identifiers of the anchors. -/
def ids (w : World σ K) : List AnchorId :=
  w.stations.map (·.id)

end World

end Ranging

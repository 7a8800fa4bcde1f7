import Ranging.Diagnostics
import Ranging.Measurement
import Ranging.Settings

/-!
# The ranging receiver

For each packet of an anchor A the receiver

1. updates the ratio between the clocks of A and the tag,
2. picks, if the packet's timing is reliable, an anchor B whose broadcast both A and the tag
   received,
3. computes how much later A's packet reached the tag than B's did, beyond the time between the
   two transmissions, and
4. puts the distance difference into the outbox if the positions of both are known.

A packet that fails at any of these steps is dropped, and the next one is an independent attempt.
Measurements wait in the outbox, oldest first, until their consumer collects them.
-/

namespace Ranging

/-- The state of the ranging pipeline. -/
structure Receiver (K : Type) where
  table : Table K
  diagnostics : Diagnostics K
  filter : RatioFilter K
  pairing : Pairing
  tickFrequency : K
  stdDev : K
  /-- Measurements that have been sent and not yet collected. -/
  outbox : List (Measurement K) := []

namespace Receiver

variable {K : Type}

/-- A receiver with an empty table, built at `now`. -/
def create [Scalar K] (s : Settings K) (now : Millis) :
    Except (Settings.Problem K) (Receiver K) := do
  s.validate
  let table ← s.table
  return {
    table
    diagnostics := .start s.statsInterval now
    filter := s.filter
    pairing := { strategy := s.strategy, limit := s.receptionCapacity }
    tickFrequency := s.tickFrequency
    stdDev := s.stdDev }

/-- Count an event. -/
def count (r : Receiver K) (e : Event) : Receiver K :=
  { r with diagnostics := r.diagnostics.count e }

@[simp] theorem count_table (r : Receiver K) (e : Event) : (r.count e).table = r.table := rfl

@[simp] theorem count_outbox (r : Receiver K) (e : Event) : (r.count e).outbox = r.outbox := rfl

@[simp] theorem count_filter (r : Receiver K) (e : Event) : (r.count e).filter = r.filter := rfl

@[simp] theorem count_pairing (r : Receiver K) (e : Event) : (r.count e).pairing = r.pairing := rfl

/-- Take the measurements out of the outbox. -/
def collect (r : Receiver K) : List (Measurement K) × Receiver K :=
  (r.outbox, { r with outbox := [] })

/-- Select the pair of anchors to watch. -/
def watch (r : Receiver K) (s : Selection) : Receiver K :=
  { r with diagnostics := r.diagnostics.watch s }

/-- The position of an anchor, if it is stored and its position is valid. -/
def anchorPosition? (r : Receiver K) (id : AnchorId) (now : Millis) :
    Option (Stamped (Point K)) := do
  let h ← r.table.get? id now
  let record ← r.table.records[h.slot]?
  record.freshPosition? r.table.windows now

variable [Scalar K]

/-- A handle for the sender of a packet. The sender enters the table if it is not stored. -/
def enter (r : Receiver K) (id : AnchorId) (now : Millis) : Handle × Receiver K :=
  let diagnostics := r.diagnostics.update now
  let (h, wasStored, table) := r.table.enter id now
  (h, { r with table, diagnostics }.count (if wasStored then .known else .entered))

/-- The candidate ratio that a packet gives, if an earlier packet of the anchor is stored. -/
def ratioCandidate? (record : Record K) (txTime rxTime : Ticks) : Option K := do
  let lastRx ← record.rxTime
  let lastTx ← record.txTime
  return RatioFilter.candidate rxTime.toUInt64 lastRx.toUInt64 txTime.toUInt64 lastTx.toUInt64
    Ticks.counterMask

/-- Feed the clock filter of a packet's sender. The flag tells whether the timing is reliable. -/
def updateClock (r : Receiver K) (h : Handle) (txTime rxTime : Ticks) :
    Except StaleHandle (Bool × Receiver K) := do
  let record ← r.table.read h
  match ratioCandidate? record txTime rxTime with
  | none => return (false, r)
  | some candidate =>
    let (reliable, clock) := r.filter.update record.clock candidate
    let r := { r with table := ← r.table.setClock h clock }
    if reliable then
      return (true, { r with diagnostics := r.diagnostics.recordClockRatio h.id clock.ratio })
    else return (false, r)

/-- A partner for the sender of a packet, whose clock must have a ratio. -/
def findPartner (r : Receiver K) (h : Handle) (exclude : Option AnchorId) :
    Except StaleHandle (Option Handle × Receiver K) := do
  let clock ← r.table.clock h
  if clock.ratio ≤ 0.0 then return (none, r)
  let (partner, pairing) ← r.pairing.pick r.table h exclude
  return (partner, { r with pairing })

/-- How much later the packet of the sender `h` reached the tag than the latest one of `other`,
beyond the time between their transmissions, in ticks of the tag. The sender's own ticks give the
latter: the flight from `other`, plus the time from that arrival to the sender's transmission. -/
def arrivalDifference? (r : Receiver K) (other h : Handle) (txTime rxTime : Ticks) :
    Except StaleHandle (Option K) := do
  let some flight ← r.table.flight? h other.id | return none
  let some reception ← r.table.reception? h other.id | return none
  let some otherRx ← r.table.rxTime? other | return none
  let clock ← r.table.clock h
  let betweenTransmissions := flight + Ticks.elapsed reception.time txTime
  let betweenArrivals := Ticks.elapsed otherRx rxTime
  return some (Scalar.ofInt betweenArrivals.toInt
    - Scalar.ofInt betweenTransmissions.toInt * clock.ratio)

/-- Distance to the sender `h` minus distance to `other`, in metres. -/
def distanceDiff? (r : Receiver K) (other h : Handle) (txTime rxTime : Ticks) :
    Except StaleHandle (Option K) := do
  let difference ← r.arrivalDifference? other h txTime rxTime
  return difference.map fun d => speedOfLight * d / r.tickFrequency

/-- Put a measurement into the outbox if both positions are valid. -/
def send (r : Receiver K) (first second : Handle) (distanceDiff : K) :
    Except StaleHandle (Receiver K) := do
  let some firstPosition ← r.table.position? first | return r
  let some secondPosition ← r.table.position? second | return r
  let r := r.count .sent
  return { r with
    diagnostics := r.diagnostics.recordDistanceDiff first.id second.id distanceDiff
    outbox := r.outbox ++ [{
      first := first.id
      second := second.id
      firstPosition := firstPosition.value
      secondPosition := secondPosition.value
      distanceDiff
      stdDev := r.stdDev }] }

/-- Process a packet of the anchor behind a handle, sent at `txTime` of the anchor's clock and
received at `rxTime` of the tag's. It never pairs with `exclude`. The flag tells whether its
timing is reliable. -/
def process (r : Receiver K) (h : Handle) (txTime rxTime : Ticks)
    (exclude : Option AnchorId := none) : Except StaleHandle (Bool × Receiver K) := do
  let (reliable, r) ← r.updateClock h txTime rxTime
  if !reliable then return (false, r)
  let (partner, r) ← (r.count .reliable).findPartner h exclude
  let some other := partner | return (true, r)
  let r := r.count .paired
  let some distanceDiff ← r.distanceDiff? other h txTime rxTime | return (true, r)
  return (true, ← r.send other h distanceDiff)

end Receiver

end Ranging

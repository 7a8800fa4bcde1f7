import Mathlib.Algebra.Group.Int.Defs
import Ranging.Proofs.Run

/-!
# Handling with every condition tested

Handling a packet takes steps that are not always possible. An access through a handle needs a slot
of the table that holds the handle's anchor, a write needs a place in the list, the random strategy
takes a remainder by the number of candidates, a rate is a quotient, and a sum of ticks has to fit a
word. Most of these conditions do not show in a `Receiver`: its lists are as long as they are full,
and a candidate that is not there is skipped.

Here the same steps are taken on memory of a fixed size, and each condition is tested before its
step. A test that fails is a `Fault`, and nothing is done after it. The strategy collects its
candidates in a buffer that is kept from packet to packet. Steps that stand in a branch which tests
their condition anyway, as when the clock filter drains a bucket that is not empty, are not tested
again.

That no test ever fails is shown in `Ranging.Proofs.Safety`.
-/

namespace Ranging

/-- Why a step is not possible. -/
inductive Fault where
  /-- The slot of a handle belongs to another anchor by now. -/
  | stale (e : StaleHandle)
  /-- There is no such place in an array of this length. -/
  | index (i length : Nat)
  | zeroRemainder
  | zeroDivision
  /-- The sum does not fit a word. -/
  | overflow (sum : Int)
deriving DecidableEq

namespace Fault

/-- There is a place with this index. -/
def checkIndex (i length : Nat) : Except Fault Unit :=
  if i < length then .ok () else .error (.index i length)

end Fault

open Fault

namespace Ticks

/-- A sum that fits a word. -/
def checkedAdd (s t : Ticks) : Except Fault Ticks :=
  if -2 ^ 63 ≤ s.toInt + t.toInt ∧ s.toInt + t.toInt < 2 ^ 63 then .ok (s + t)
  else .error (.overflow (s.toInt + t.toInt))

end Ticks

/-! ## Lists and records -/

namespace Recent

variable {α : Type}

/-- The place that a write goes to. -/
def place (r : Recent α) (now : Millis) (key : AnchorId) : Nat :=
  match r.index? key with
  | some i => i
  | none =>
    if r.entries.length < r.capacity then r.entries.length
    else Millis.oldestIndex now (r.entries.map (·.written))

/-- Write to a place within the capacity. -/
def checkedWrite (r : Recent α) (now : Millis) (key : AnchorId) (value : α) :
    Except Fault (Recent α) := do
  let place := r.place now key
  checkIndex place r.capacity
  let entry : Entry α := { value, written := now, key }
  if place < r.entries.length then return { r with entries := r.entries.set place entry }
  else return { r with entries := r.entries ++ [entry] }

end Recent

namespace Record

variable {K : Type}

/-- Store one report. -/
def checkedLearn (r : Record K) (now : Millis) (report : Report) : Except Fault (Record K) := do
  let receptions ← if report.rxTime = 0 then pure r.receptions else
    r.receptions.checkedWrite now report.neighbour
      ⟨report.rxTime, report.sequence &&& sequenceMask⟩
  let flights ← if report.flight = 0 then pure r.flights else
    r.flights.checkedWrite now report.neighbour report.flight
  return { r with receptions, flights }

end Record

/-! ## The table -/

namespace Table

variable {K : Type} {α : Type}

/-- An access through a handle, whose slot must be one of the table's. -/
def access (t : Table K) (h : Handle) (x : Except StaleHandle α) : Except Fault α := do
  checkIndex h.slot t.capacity
  x.mapError .stale

/-- Enter an anchor that is not stored, in one of the table's slots. -/
def checkedEnter [Scalar K] (t : Table K) (id : AnchorId) (now : Millis) :
    Except Fault (Handle × Bool × Table K) := do
  let (h, wasStored, entered) := t.enter id now
  checkIndex h.slot t.capacity
  return (h, wasStored, entered)

end Table

/-! ## Choosing a partner -/

namespace Pairing

variable {K : Type}

/-- A neighbour of the sender, and the sequence number that it was heard with. -/
abbrev Candidate := AnchorId × UInt8

/-- The partner that a candidate makes for the anchor behind a handle. -/
def checkedPartner? (t : Table K) (h : Handle) (exclude : Option AnchorId)
    (candidate : Candidate) : Except Fault (Option Partner) := do
  if exclude = some candidate.1 then return none
  let some _ ← t.access h (t.flight? h candidate.1) | return none
  let some other := t.get? candidate.1 h.now | return none
  let sequence ← t.access other (t.sequence other)
  if sequence ≠ candidate.2 then return none
  let some _ ← t.access other (t.rxTime? other) | return none
  let lastUpdate ← t.access other (t.lastUpdate other)
  return some ⟨other, Millis.since lastUpdate h.now⟩

/-- The candidate that a call with this turn looks at in step `i`, of `count` in a buffer. -/
def candidateAt (buffer : List Candidate) (turn : UInt64) (count i : Nat) :
    Except Fault Candidate := do
  if count = 0 then throw .zeroRemainder
  let index := (turn + i.toUInt64).toNat % count
  match buffer[index]? with
  | some candidate => return candidate
  | none => throw (.index index buffer.length)

/-- Pick a partner for the anchor behind a handle, with the candidates collected in a buffer. -/
def checkedPick (p : Pairing) (buffer : List Candidate) (t : Table K) (h : Handle)
    (exclude : Option AnchorId) : Except Fault (Option Handle × Pairing × List Candidate) := do
  match p.strategy with
  | .never => return (none, p, buffer)
  | .random =>
    let (count, buffer) := Table.fill buffer (← t.access h (t.heard h))
    let turn := p.turn + 1
    let chosen ← (List.range count).findSomeM? fun i => do
      checkedPartner? t h exclude (← candidateAt buffer turn count i)
    return (chosen.map (·.handle), { p with turn }, buffer)
  | .youngest =>
    let (count, buffer) := Table.fill buffer (← t.access h (t.heard h))
    checkIndex count (buffer.length + 1)
    let partners ← (buffer.take count).mapM (checkedPartner? t h exclude)
    return ((youngest? partners.reduceOption).map (·.handle), p, buffer)

end Pairing

/-! ## Diagnostics -/

/-- Complete the interval if it is over. The rate is a quotient by the time that has passed. -/
def RateCounter.checkedUpdate (c : RateCounter) (now : Millis) : Except Fault RateCounter := do
  if c.isDue now ∧ Millis.since c.latest now = 0 then throw .zeroDivision
  return (c.update now).2

/-- Change every value, unless one of the changes fails. -/
def Tally.mapM {α β ε : Type} (f : α → Except ε β) (t : Tally α) : Except ε (Tally β) :=
  return ⟨← f t.packetReceived, ← f t.sent, ← f t.clockConfirmed, ← f t.known, ← f t.entered,
    ← f t.reliable, ← f t.paired⟩

/-- Let time pass. -/
def Diagnostics.checkedUpdate {K : Type} [Scalar K] (d : Diagnostics K) (now : Millis) :
    Except Fault (Diagnostics K) := do
  if Millis.isPast d.deadline now then
    return { d with
      watched := d.watched.latch d.selected
      counters := ← d.counters.mapM (·.checkedUpdate now)
      deadline := now + d.interval }
  else return d

/-! ## The receiver -/

namespace Receiver

variable {K : Type} [Scalar K]

/-- A handle for the sender of a packet. -/
def checkedEnter (r : Receiver K) (id : AnchorId) (now : Millis) :
    Except Fault (Handle × Receiver K) := do
  let diagnostics ← r.diagnostics.checkedUpdate now
  let (h, wasStored, table) ← r.table.checkedEnter id now
  return (h, { r with table, diagnostics }.count (if wasStored then .known else .entered))

/-- Store what a sender reports about others. -/
def checkedLearn (r : Receiver K) (h : Handle) (reports : List Report) :
    Except Fault (Receiver K) := do
  let others := reports.filter (·.neighbour ≠ h.id)
  let record ← others.foldlM (·.checkedLearn h.now ·) (← r.table.access h (r.table.read h))
  return { r with
    table := ← r.table.access h (r.table.modify h fun _ => record)
    diagnostics := others.foldl (·.recordReport h.id ·) r.diagnostics }

/-- How much later the packet of the sender `h` reached the tag than the latest one of `other`,
beyond the time between their transmissions. The flight and the time that the sender took are added
in its own ticks. -/
def checkedArrivalDifference? (r : Receiver K) (other h : Handle) (txTime rxTime : Ticks) :
    Except Fault (Option K) := do
  let some flight ← r.table.access h (r.table.flight? h other.id) | return none
  let some reception ← r.table.access h (r.table.reception? h other.id) | return none
  let some otherRx ← r.table.access other (r.table.rxTime? other) | return none
  let clock ← r.table.access h (r.table.clock h)
  let betweenTransmissions ← flight.checkedAdd (Ticks.elapsed reception.time txTime)
  let betweenArrivals := Ticks.elapsed otherRx rxTime
  return some (Scalar.ofInt betweenArrivals.toInt
    - Scalar.ofInt betweenTransmissions.toInt * clock.ratio)

/-- Distance to the sender `h` minus distance to `other`. -/
def checkedDistanceDiff? (r : Receiver K) (other h : Handle) (txTime rxTime : Ticks) :
    Except Fault (Option K) := do
  let difference ← r.checkedArrivalDifference? other h txTime rxTime
  return difference.map fun d => speedOfLight * d / r.tickFrequency

/-- Put a measurement into the outbox if both positions are valid. -/
def checkedSend (r : Receiver K) (first second : Handle) (distanceDiff : K) :
    Except Fault (Receiver K) := do
  checkIndex first.slot r.table.capacity
  r.table.access second (r.send first second distanceDiff)

end Receiver

/-- A receiver with the buffer in which its strategy collects candidates. -/
structure Buffered (K : Type) where
  receiver : Receiver K
  candidates : List Pairing.Candidate

namespace Buffered

variable {K : Type} [Scalar K]

/-- A receiver with an empty table and a buffer as long as its lists of receptions. -/
def create (s : Settings K) (now : Millis) : Except (Settings.Problem K) (Buffered K) :=
  return {
    receiver := ← Receiver.create s now
    candidates := List.replicate s.receptionCapacity (⟨0⟩, 0) }

/-- A partner for the sender of a packet, whose clock must have a ratio. -/
def checkedFindPartner (b : Buffered K) (h : Handle) (exclude : Option AnchorId) :
    Except Fault (Option Handle × Buffered K) := do
  let r := b.receiver
  let clock ← r.table.access h (r.table.clock h)
  if clock.ratio ≤ 0.0 then return (none, b)
  let (partner, pairing, candidates) ← r.pairing.checkedPick b.candidates r.table h exclude
  return (partner, ⟨{ r with pairing }, candidates⟩)

/-- Process a packet of the anchor behind a handle. -/
def checkedProcess (b : Buffered K) (h : Handle) (txTime rxTime : Ticks)
    (exclude : Option AnchorId := none) : Except Fault (Bool × Buffered K) := do
  let (reliable, r) ← b.receiver.table.access h (b.receiver.updateClock h txTime rxTime)
  if !reliable then return (false, { b with receiver := r })
  let (partner, b) ← { b with receiver := r.count .reliable }.checkedFindPartner h exclude
  let some other := partner | return (true, b)
  let r := b.receiver.count .paired
  let some distanceDiff ← r.checkedDistanceDiff? other h txTime rxTime
    | return (true, { b with receiver := r })
  return (true, { b with receiver := ← r.checkedSend other h distanceDiff })

/-- Feed one received broadcast through the receiver. -/
def checkedHandle (b : Buffered K) (broadcast : Broadcast K) (rxTime : Ticks) (now : Millis) :
    Except Fault (Bool × Buffered K) := do
  let (h, r) ← (b.receiver.count .packetReceived).checkedEnter broadcast.source now
  let r ← r.checkedLearn h broadcast.reports
  let (reliable, b) ← { b with receiver := r }.checkedProcess h broadcast.txTime rxTime
  let t := b.receiver.table
  let t ← t.access h
    (t.setBroadcast h rxTime broadcast.txTime (broadcast.sequence &&& sequenceMask))
  let t ← match broadcast.position with
    | some point => t.access h (t.setPosition h point)
    | none => pure t
  return (reliable, { b with receiver := { b.receiver with table := t } })

end Buffered

/-! ## Calls -/

/-- What can be asked of a receiver between and by packets. -/
inductive Call (K : Type) where
  | packet (a : Arrival K)
  | watch (s : Selection)
  /-- The standard deviation of later measurements. -/
  | setStdDev (stdDev : K)
  | anchorPosition (id : AnchorId) (now : Millis)
  /-- The stored anchors, written into a buffer. -/
  | ids (buffer : List AnchorId)
  /-- Those of them that are active. -/
  | activeIds (buffer : List AnchorId) (now : Millis)

/-- What a call returns. -/
inductive Answer (K : Type) where
  | done
  | reliable (flag : Bool)
  | position (point : Option (Stamped (Point K)))
  /-- How many identifiers were written, and the buffer. -/
  | ids (count : Nat) (buffer : List AnchorId)

namespace Receiver

variable {K : Type} [Scalar K]

/-- The answer to a call, and the receiver after it. -/
def serve (r : Receiver K) : Call K → Except StaleHandle (Answer K × Receiver K)
  | .packet a => do
    let (flag, r) ← r.handle a.broadcast a.rxTime a.now
    return (.reliable flag, r)
  | .watch s => return (.done, r.watch s)
  | .setStdDev stdDev => return (.done, { r with stdDev })
  | .anchorPosition id now => return (.position (r.anchorPosition? id now), r)
  | .ids buffer =>
    let (count, buffer) := Table.fill buffer r.table.ids
    return (.ids count buffer, r)
  | .activeIds buffer now =>
    let (count, buffer) := Table.fill buffer (r.table.activeIds now)
    return (.ids count buffer, r)

/-- The answers to some calls in order. -/
def serveAll (r : Receiver K) : List (Call K) → Except StaleHandle (List (Answer K) × Receiver K)
  | [] => return ([], r)
  | call :: calls => do
    let (answer, r) ← r.serve call
    let (answers, r) ← r.serveAll calls
    return (answer :: answers, r)

end Receiver

namespace Buffered

variable {K : Type} [Scalar K]

/-- A call with every condition tested. All but packets only read, and the position is read through
a handle. -/
def checkedServe (b : Buffered K) : Call K → Except Fault (Answer K × Buffered K)
  | .packet a => do
    let (flag, b) ← b.checkedHandle a.broadcast a.rxTime a.now
    return (.reliable flag, b)
  | .anchorPosition id now => do
    let t := b.receiver.table
    let some h := t.get? id now | return (.position none, b)
    return (.position (← t.access h (t.position? h)), b)
  | call => do
    let (answer, r) ← (b.receiver.serve call).mapError .stale
    return (answer, { b with receiver := r })

/-- Some calls in order, until a condition fails. -/
def checkedServeAll (b : Buffered K) :
    List (Call K) → Except Fault (List (Answer K) × Buffered K)
  | [] => return ([], b)
  | call :: calls => do
    let (answer, b) ← b.checkedServe call
    let (answers, b) ← b.checkedServeAll calls
    return (answer :: answers, b)

end Buffered

end Ranging

import Ranging.Receiver

/-!
# Broadcasts

What an anchor sends, decoded, and the whole sequence around one received broadcast: first the
reports about neighbours, then the ranging pipeline, and last the sender's own times and position,
so that the pipeline still compares with the previous broadcast.
-/

namespace Ranging

/-- What the sender of a broadcast reports about one neighbour. -/
structure Report where
  neighbour : AnchorId
  /-- When the sender received the neighbour's latest broadcast; zero if it did not. -/
  rxTime : Ticks
  /-- The sequence number of that broadcast. -/
  sequence : UInt8
  /-- Time of flight from the neighbour to the sender; zero if it is unknown. -/
  flight : Ticks
deriving DecidableEq

/-- One decoded broadcast. Times are in the sender's ticks. -/
structure Broadcast (K : Type) where
  source : AnchorId
  txTime : Ticks
  sequence : UInt8
  reports : List Report
  position : Option (Point K)

namespace Record

variable {K : Type}

/-- Store one report. Zero fields say nothing. -/
def learn (r : Record K) (now : Millis) (report : Report) : Record K :=
  let r :=
    if report.rxTime = 0 then r
    else r.setReception now report.neighbour ⟨report.rxTime, report.sequence &&& sequenceMask⟩
  if report.flight = 0 then r else r.setFlight now report.neighbour report.flight

end Record

namespace Diagnostics

variable {K : Type} [Scalar K]

/-- Note the time of flight in a report of `anchor`. -/
def recordReport (d : Diagnostics K) (anchor : AnchorId) (report : Report) : Diagnostics K :=
  if report.flight = 0 then d else d.recordFlight anchor report.neighbour report.flight

end Diagnostics

namespace Receiver

variable {K : Type} [Scalar K]

/-- Store what a sender reports about others. Reports about itself are ignored. -/
def learn (r : Receiver K) (h : Handle) (reports : List Report) :
    Except StaleHandle (Receiver K) := do
  let others := reports.filter (·.neighbour ≠ h.id)
  return { r with
    table := ← r.table.modify h fun record => others.foldl (·.learn h.now ·) record
    diagnostics := others.foldl (·.recordReport h.id ·) r.diagnostics }

/-- Feed one received broadcast through the receiver. `rxTime` is when the tag received it, in the
tag's ticks. The flag tells whether its timing is reliable. -/
def handle (r : Receiver K) (b : Broadcast K) (rxTime : Ticks) (now : Millis) :
    Except StaleHandle (Bool × Receiver K) := do
  let (h, r) := (r.count .packetReceived).enter b.source now
  let r ← r.learn h b.reports
  let (reliable, r) ← r.process h b.txTime rxTime
  let table ← r.table.setBroadcast h rxTime b.txTime (b.sequence &&& sequenceMask)
  let table ← match b.position with
    | some point => table.setPosition h point
    | none => pure table
  return (reliable, { r with table })

end Receiver

end Ranging

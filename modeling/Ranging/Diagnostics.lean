import Ranging.Anchor.Id
import Ranging.Diagnostics.RateCounter
import Ranging.Scalar

/-!
# Rolling diagnostics

Seven counters follow a packet through the pipeline, and one selected pair of anchors is watched
in detail. Nothing here feeds back into ranging. Counters are refreshed together at the end of an
interval, which is also when a new selection takes effect.
-/

namespace Ranging

/-- What is counted. -/
inductive Event where
  | packetReceived
  /-- A measurement went to the estimator. -/
  | sent
  /-- The watched anchor's clock ratio was confirmed. -/
  | clockConfirmed
  /-- The sender was stored already. -/
  | known
  /-- The sender entered the table. -/
  | entered
  /-- A packet's timing was reliable. -/
  | reliable
  /-- A partner was found. -/
  | paired
deriving DecidableEq

/-- One value for each kind of event. -/
structure Tally (α : Type) where
  packetReceived : α
  sent : α
  clockConfirmed : α
  known : α
  entered : α
  reliable : α
  paired : α

namespace Tally

variable {α β : Type}

/-- The same value for every kind of event. -/
def replicate (a : α) : Tally α := ⟨a, a, a, a, a, a, a⟩

/-- The value for a kind of event. -/
def get (t : Tally α) : Event → α
  | .packetReceived => t.packetReceived
  | .sent => t.sent
  | .clockConfirmed => t.clockConfirmed
  | .known => t.known
  | .entered => t.entered
  | .reliable => t.reliable
  | .paired => t.paired

/-- Change the value for a kind of event. -/
def modify (t : Tally α) (e : Event) (f : α → α) : Tally α :=
  match e with
  | .packetReceived => { t with packetReceived := f t.packetReceived }
  | .sent => { t with sent := f t.sent }
  | .clockConfirmed => { t with clockConfirmed := f t.clockConfirmed }
  | .known => { t with known := f t.known }
  | .entered => { t with entered := f t.entered }
  | .reliable => { t with reliable := f t.reliable }
  | .paired => { t with paired := f t.paired }

/-- Apply a function to every value. -/
def map (f : α → β) (t : Tally α) : Tally β :=
  ⟨f t.packetReceived, f t.sent, f t.clockConfirmed, f t.known, f t.entered, f t.reliable,
    f t.paired⟩

/-- The values in the order in which reports list them. -/
def toList (t : Tally α) : List α :=
  [t.packetReceived, t.sent, t.clockConfirmed, t.known, t.entered, t.reliable, t.paired]

@[simp] theorem get_replicate (a : α) (e : Event) : (replicate a).get e = a := by
  cases e <;> rfl

@[simp] theorem get_map (f : α → β) (t : Tally α) (e : Event) :
    (t.map f).get e = f (t.get e) := by
  cases e <;> rfl

@[simp] theorem get_modify_self (t : Tally α) (e : Event) (f : α → α) :
    (t.modify e f).get e = f (t.get e) := by
  cases e <;> rfl

theorem get_modify_of_ne (t : Tally α) {e other : Event} (f : α → α) (h : other ≠ e) :
    (t.modify e f).get other = t.get other := by
  cases e <;> cases other <;> simp_all [modify, get]

/-- A tally is determined by its value for every kind of event. -/
theorem ext_get {s t : Tally α} (h : ∀ e, s.get e = t.get e) : s = t := by
  cases s
  cases t
  simp only [mk.injEq]
  exact ⟨h .packetReceived, h .sent, h .clockConfirmed, h .known, h .entered, h .reliable,
    h .paired⟩

end Tally

/-- A pair of anchors to look at. -/
structure Selection where
  anchor : AnchorId
  remote : AnchorId
deriving DecidableEq

/-- The latest values of the watched pair. -/
structure Watched (K : Type) where
  selection : Selection
  /-- The latest reliable clock ratio of the anchor. -/
  clockRatio : K
  /-- The latest time of flight from the remote that the anchor reported. -/
  flight : Ticks
  /-- The latest distance difference of the pair: to the remote minus to the anchor. -/
  distanceDiff : K

/-- Counters, the watched pair, and the selection that replaces it at the next boundary. -/
structure Diagnostics (K : Type) where
  counters : Tally RateCounter
  watched : Watched K
  selected : Selection
  interval : Millis
  deadline : Millis

/-- The rates at the last boundary, and the watched pair. -/
structure Snapshot (K : Type) where
  rates : Tally Float32
  watched : Watched K

namespace Watched

variable {K : Type} [Scalar K]

/-- A pair about which nothing is known yet. -/
def fresh (s : Selection) : Watched K :=
  { selection := s, clockRatio := 0.0, flight := 0, distanceDiff := 0.0 }

/-- Turn to a selection. What belonged to the old pair is cleared; the clock ratio belongs to the
anchor alone. -/
def latch (w : Watched K) (s : Selection) : Watched K :=
  if w.selection.anchor ≠ s.anchor then fresh s
  else if w.selection.remote ≠ s.remote then { fresh s with clockRatio := w.clockRatio }
  else w

end Watched

namespace Diagnostics

variable {K : Type} [Scalar K]

/-- Diagnostics that start at `now` and watch the anchors 0 and 1. -/
def start (interval now : Millis) : Diagnostics K where
  counters := .replicate (.start interval now)
  watched := .fresh ⟨⟨0⟩, ⟨1⟩⟩
  selected := ⟨⟨0⟩, ⟨1⟩⟩
  interval := interval
  deadline := now + interval

/-- Count an event. -/
def count (d : Diagnostics K) (e : Event) : Diagnostics K :=
  { d with counters := d.counters.modify e RateCounter.event }

/-- Select the pair to watch from the next boundary on. -/
def watch (d : Diagnostics K) (s : Selection) : Diagnostics K :=
  { d with selected := s }

/-- Let time pass. Past the deadline the selection is latched and the counters are refreshed. -/
def update (d : Diagnostics K) (now : Millis) : Diagnostics K :=
  if Millis.isPast d.deadline now then
    { d with
      watched := d.watched.latch d.selected
      counters := d.counters.map fun c => (c.update now).2
      deadline := now + d.interval }
  else d

/-- Note a reliable clock ratio of an anchor. -/
def recordClockRatio (d : Diagnostics K) (anchor : AnchorId) (ratio : K) : Diagnostics K :=
  if anchor = d.watched.selection.anchor then
    { d with watched := { d.watched with clockRatio := ratio } }.count .clockConfirmed
  else d

/-- Note a time of flight from `remote` that `anchor` reported. -/
def recordFlight (d : Diagnostics K) (anchor remote : AnchorId) (flight : Ticks) :
    Diagnostics K :=
  if anchor = d.watched.selection.anchor ∧ remote = d.watched.selection.remote then
    { d with watched := { d.watched with flight } }
  else d

/-- Note a measured distance difference, to `second` minus to `first`. -/
def recordDistanceDiff (d : Diagnostics K) (first second : AnchorId) (distanceDiff : K) :
    Diagnostics K :=
  if second = d.watched.selection.anchor ∧ first = d.watched.selection.remote then
    { d with watched := { d.watched with distanceDiff := -distanceDiff } }
  else if first = d.watched.selection.anchor ∧ second = d.watched.selection.remote then
    { d with watched := { d.watched with distanceDiff } }
  else d

/-- The counts of the running interval. -/
def pending (d : Diagnostics K) : Tally Nat :=
  d.counters.map (·.count)

/-- The rates of the last interval and the watched pair. -/
def snapshot (d : Diagnostics K) : Snapshot K :=
  { rates := d.counters.map (·.rate), watched := d.watched }

end Diagnostics

end Ranging

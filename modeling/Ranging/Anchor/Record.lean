import Ranging.Anchor.Recent
import Ranging.Point
import Ranging.RatioFilter

/-!
# What the tag knows about an anchor

A record holds the latest broadcast of one anchor, the state of its clock filter, its position,
and what it reported about its neighbours. Every dated value is checked against its validity
window when it is read.
-/

namespace Ranging

/-- How long each kind of value stays usable, in milliseconds. -/
structure Windows where
  position : Millis := 2000
  /-- Reception times of neighbours; about as long as neighbours take to be heard again. -/
  reception : Millis := 30
  /-- Times of flight between two anchors. -/
  flight : Millis := 2000
  /-- An anchor counts as active for this long after its latest broadcast. -/
  active : Millis := 2000
deriving DecidableEq

/-- When an anchor received a neighbour's latest broadcast, in its own ticks, and which one. -/
structure Reception where
  time : Ticks
  sequence : UInt8
deriving DecidableEq

/-- What the tag keeps for one anchor. -/
structure Record (K : Type) where
  id : AnchorId
  /-- When the latest broadcast was stored; zero before the first. -/
  lastUpdate : Millis
  /-- When the tag received the latest broadcast, in the tag's ticks. -/
  rxTime : Option Ticks
  /-- When the anchor sent it, in the anchor's ticks. -/
  txTime : Option Ticks
  /-- The sequence number it carried. -/
  sequence : UInt8
  clock : RatioState K
  position : Option (Stamped (Point K))
  /-- Neighbours' broadcasts that the anchor reported to have received. -/
  receptions : Recent Reception
  /-- Times of flight from neighbours, in the anchor's ticks. -/
  flights : Recent Ticks
  /-- Time of flight between the tag and the anchor. -/
  tagFlight : Option (Stamped Ticks)

namespace Record

variable {K : Type}

/-- The record of an anchor that has just been heard for the first time. -/
def empty [Scalar K] (id : AnchorId) (receptionCapacity flightCapacity : Nat) : Record K where
  id := id
  lastUpdate := 0
  rxTime := none
  txTime := none
  sequence := 0
  clock := RatioState.initial
  position := none
  receptions := { capacity := receptionCapacity }
  flights := { capacity := flightCapacity }
  tagFlight := none

/-- Store the times of a broadcast. -/
def setBroadcast (r : Record K) (now : Millis) (rxTime txTime : Ticks) (sequence : UInt8) :
    Record K :=
  { r with rxTime := some rxTime, txTime := some txTime, sequence, lastUpdate := now }

/-- Store a position, overwriting the previous one. -/
def setPosition (r : Record K) (now : Millis) (point : Point K) : Record K :=
  { r with position := some ⟨point, now⟩ }

/-- Store when the anchor received a broadcast of `neighbour`. -/
def setReception (r : Record K) (now : Millis) (neighbour : AnchorId) (reception : Reception) :
    Record K :=
  { r with receptions := r.receptions.write now neighbour reception }

/-- Store the time of flight from `neighbour`. -/
def setFlight (r : Record K) (now : Millis) (neighbour : AnchorId) (flight : Ticks) : Record K :=
  { r with flights := r.flights.write now neighbour flight }

/-- Store the time of flight between the tag and the anchor. -/
def setTagFlight (r : Record K) (now : Millis) (flight : Ticks) : Record K :=
  { r with tagFlight := some ⟨flight, now⟩ }

/-- The position, if it is still valid. -/
def freshPosition? (r : Record K) (windows : Windows) (now : Millis) :
    Option (Stamped (Point K)) :=
  r.position.filter fun p => Millis.isFresh p.written windows.position now

/-- The latest broadcast of `neighbour` that the anchor received, if the report is still valid. -/
def reception? (r : Record K) (windows : Windows) (now : Millis) (neighbour : AnchorId) :
    Option Reception :=
  r.receptions.find? windows.reception now neighbour

/-- The time of flight from `neighbour`, if the report is still valid. -/
def flight? (r : Record K) (windows : Windows) (now : Millis) (neighbour : AnchorId) :
    Option Ticks :=
  r.flights.find? windows.flight now neighbour

/-- The neighbours with a valid report, with the sequence number received, in list order. -/
def heard (r : Record K) (windows : Windows) (now : Millis) : List (AnchorId × UInt8) :=
  (r.receptions.live windows.reception now).map fun entry => (entry.key, entry.value.sequence)

/-- The time of flight to the tag, if it was not measured before `oldest`. -/
def tagFlightSince? (r : Record K) (oldest : Millis) : Option Ticks :=
  (r.tagFlight.filter fun f => Millis.notBefore f.written oldest).map (·.value)

/-- The anchor was heard within the active window. -/
def isActive (r : Record K) (windows : Windows) (now : Millis) : Bool :=
  Millis.isFresh r.lastUpdate windows.active now

@[simp] theorem setBroadcast_id (r : Record K) (now : Millis) (rxTime txTime : Ticks)
    (sequence : UInt8) : (r.setBroadcast now rxTime txTime sequence).id = r.id := rfl

@[simp] theorem setPosition_id (r : Record K) (now : Millis) (point : Point K) :
    (r.setPosition now point).id = r.id := rfl

@[simp] theorem setReception_id (r : Record K) (now : Millis) (neighbour : AnchorId)
    (reception : Reception) : (r.setReception now neighbour reception).id = r.id := rfl

@[simp] theorem setFlight_id (r : Record K) (now : Millis) (neighbour : AnchorId)
    (flight : Ticks) : (r.setFlight now neighbour flight).id = r.id := rfl

@[simp] theorem setTagFlight_id (r : Record K) (now : Millis) (flight : Ticks) :
    (r.setTagFlight now flight).id = r.id := rfl

@[simp] theorem empty_id [Scalar K] (id : AnchorId) (receptionCapacity flightCapacity : Nat) :
    (empty (K := K) id receptionCapacity flightCapacity).id = id := rfl

end Record

end Ranging

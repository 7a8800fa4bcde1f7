import Ranging.Anchor.Table
import Ranging.Strategy

/-!
# Choosing the second anchor of a pair

A broadcast of anchor A lists the neighbours that A has recently received. Any of them can pair
with A, provided that the tag received the same broadcast of that neighbour, which the sequence
numbers tell, and that A knows the time of flight to it. A strategy picks one of them.
-/

namespace Ranging

/-- A strategy with the number of its calls so far. -/
structure Pairing where
  strategy : Strategy
  /-- At most so many candidates are looked at. -/
  limit : Nat
  /-- Calls of the random strategy so far. -/
  turn : UInt64 := 0
deriving DecidableEq

namespace Pairing

variable {K : Type}

/-- A stored neighbour that can pair with the sender of a packet. -/
structure Partner where
  handle : Handle
  /-- Milliseconds since the tag heard it. -/
  age : UInt32
deriving DecidableEq

/-- The partner that a candidate makes for the anchor with record `sender`: not excluded, at a
known distance from it, and last heard by the tag with the very broadcast that the sender heard. -/
def partner? (t : Table K) (now : Millis) (sender : Record K) (exclude : Option AnchorId)
    (candidate : AnchorId × UInt8) : Option Partner := do
  guard (exclude ≠ some candidate.1)
  let _ ← sender.flight? t.windows now candidate.1
  let handle ← t.get? candidate.1 now
  let record ← t.records[handle.slot]?
  guard (record.sequence = candidate.2 ∧ record.rxTime.isSome)
  return ⟨handle, Millis.since record.lastUpdate now⟩

/-- The candidates in the order in which a call with this turn looks at them. -/
def rotated (turn : UInt64) (candidates : List (AnchorId × UInt8)) : List (AnchorId × UInt8) :=
  (List.range candidates.length).filterMap fun i =>
    candidates[(turn + i.toUInt64).toNat % candidates.length]?

/-- The partner of least age, the first of equally old ones. -/
def youngest? : List Partner → Option Partner
  | [] => none
  | p :: rest =>
    match youngest? rest with
    | none => some p
    | some q => if q.age < p.age then some q else some p

/-- Pick a partner for the anchor behind a handle. -/
def pick (p : Pairing) (t : Table K) (h : Handle) (exclude : Option AnchorId) :
    Except StaleHandle (Option Handle × Pairing) := do
  match p.strategy with
  | .never => return (none, p)
  | .random =>
    let sender ← t.read h
    let candidates := (sender.heard t.windows h.now).take p.limit
    let turn := p.turn + 1
    let chosen := (rotated turn candidates).findSome? (partner? t h.now sender exclude)
    return (chosen.map (·.handle), { p with turn })
  | .youngest =>
    let sender ← t.read h
    let candidates := (sender.heard t.windows h.now).take p.limit
    let chosen := youngest? (candidates.filterMap (partner? t h.now sender exclude))
    return (chosen.map (·.handle), p)

end Pairing

end Ranging

import Ranging.Anchor.Record

/-!
# The table of anchors in range

The tag passes many anchors, of which a handful are in range at a time. The table has a fixed
number of slots. A new anchor takes the first free slot, or else the slot of the anchor heard
longest ago; there is no explicit removal. Slots fill from the front and are never freed, so the
occupied ones are a list and a slot is an index into it.

A `Handle` stands for an anchor's slot while one packet is processed, at that packet's time. If
the slot has meanwhile gone to another anchor, every access through the handle fails.
-/

namespace Ranging

/-- An anchor's slot, and the time that decides about freshness. -/
structure Handle where
  slot : Nat
  id : AnchorId
  now : Millis
deriving DecidableEq

/-- The slot behind a handle belongs to another anchor by now. -/
structure StaleHandle where
  id : AnchorId
deriving DecidableEq

/-- The message of a failed access. -/
def StaleHandle.message (e : StaleHandle) : String :=
  s!"anchor context for {e.id.label} refers to a recycled slot"

/-- The capacities of a table. -/
inductive Capacity where
  /-- Number of slots. -/
  | anchors
  /-- Reception reports for each anchor. -/
  | receptions
  /-- Times of flight for each anchor. -/
  | flights
deriving DecidableEq

/-- Records of at most `capacity` anchors, and the windows in which their values are valid. -/
structure Table (K : Type) where
  capacity : Nat
  receptionCapacity : Nat
  flightCapacity : Nat
  windows : Windows
  /-- The occupied slots. -/
  records : List (Record K) := []

namespace Table

variable {K : Type}

/-- An empty table, or the first capacity that is zero. -/
def create (capacity receptionCapacity flightCapacity : Nat) (windows : Windows) :
    Except Capacity (Table K) := do
  if capacity = 0 then throw .anchors
  if receptionCapacity = 0 then throw .receptions
  if flightCapacity = 0 then throw .flights
  return { capacity, receptionCapacity, flightCapacity, windows }

/-- The number of anchors stored. -/
def size (t : Table K) : Nat :=
  t.records.length

/-- The identifiers of the stored anchors, in slot order. -/
def ids (t : Table K) : List AnchorId :=
  t.records.map (·.id)

/-- The identifiers of the anchors heard within the active window, in slot order. -/
def activeIds (t : Table K) (now : Millis) : List AnchorId :=
  (t.records.filter (·.isActive t.windows now)).map (·.id)

/-- The slot of an anchor. -/
def slot? (t : Table K) (id : AnchorId) : Option Nat :=
  t.records.findIdx? (·.id = id)

/-- The anchor occupies a slot. -/
def contains (t : Table K) (id : AnchorId) : Bool :=
  t.records.any (·.id = id)

/-- A handle for an anchor that is stored. -/
def get? (t : Table K) (id : AnchorId) (now : Millis) : Option Handle :=
  (t.slot? id).map fun slot => ⟨slot, id, now⟩

section Entering

variable [Scalar K]

/-- The record of a new anchor. -/
def blank (t : Table K) (id : AnchorId) : Record K :=
  Record.empty id t.receptionCapacity t.flightCapacity

/-- A handle for an anchor, which enters the table if it is not stored. The flag tells whether it
was stored before. -/
def enter (t : Table K) (id : AnchorId) (now : Millis) : Handle × Bool × Table K :=
  match t.slot? id with
  | some slot => (⟨slot, id, now⟩, true, t)
  | none =>
    if t.size < t.capacity then
      (⟨t.size, id, now⟩, false, { t with records := t.records ++ [t.blank id] })
    else
      let slot := Millis.oldestIndex now (t.records.map (·.lastUpdate))
      (⟨slot, id, now⟩, false, { t with records := t.records.set slot (t.blank id) })

end Entering

/-- The record behind a handle. -/
def read (t : Table K) (h : Handle) : Except StaleHandle (Record K) :=
  match t.records[h.slot]? with
  | some r => if r.id = h.id then .ok r else .error ⟨h.id⟩
  | none => .error ⟨h.id⟩

/-- Change the record behind a handle. -/
def modify (t : Table K) (h : Handle) (f : Record K → Record K) :
    Except StaleHandle (Table K) := do
  let r ← t.read h
  return { t with records := t.records.set h.slot (f r) }

/-- A handle is good as long as its slot holds its anchor. -/
theorem read_eq_ok_iff {t : Table K} {h : Handle} {r : Record K} :
    t.read h = .ok r ↔ t.records[h.slot]? = some r ∧ r.id = h.id := by
  unfold read
  split
  · rename_i stored hget
    split
    · rename_i hid
      simp only [hget, Except.ok.injEq, Option.some.injEq]
      exact ⟨fun h => ⟨h, h ▸ hid⟩, fun h => h.1⟩
    · simp only [hget, Option.some.injEq, reduceCtorEq, false_iff, not_and]
      rintro rfl
      assumption
  · simp_all

/-- A change reaches the record behind the handle and no other. -/
theorem modify_eq_ok_iff {t t' : Table K} {h : Handle} {f : Record K → Record K} :
    t.modify h f = .ok t' ↔
      ∃ r, t.read h = .ok r ∧ t' = { t with records := t.records.set h.slot (f r) } := by
  unfold modify
  cases t.read h with
  | error e => simp [bind, Except.bind]
  | ok r => simp [bind, Except.bind, pure, Except.pure, eq_comm]

/-- What has been stored through a handle is read back through it. -/
theorem read_modify_self {t t' : Table K} {h : Handle} {f : Record K → Record K} {r : Record K}
    (hread : t.read h = .ok r) (hid : (f r).id = r.id) (hmodify : t.modify h f = .ok t') :
    t'.read h = .ok (f r) := by
  obtain ⟨r', hread', rfl⟩ := modify_eq_ok_iff.1 hmodify
  obtain rfl : r = r' := by simpa [hread] using hread'
  obtain ⟨hget, hsame⟩ := read_eq_ok_iff.1 hread
  obtain ⟨hlt, -⟩ := List.getElem?_eq_some_iff.1 hget
  exact read_eq_ok_iff.2 ⟨by simp [hlt], hid.trans hsame⟩

/-! ## Access through a handle -/

/-- When the tag received the anchor's latest broadcast. -/
def rxTime? (t : Table K) (h : Handle) : Except StaleHandle (Option Ticks) :=
  return (← t.read h).rxTime

/-- When the anchor sent its latest broadcast. -/
def txTime? (t : Table K) (h : Handle) : Except StaleHandle (Option Ticks) :=
  return (← t.read h).txTime

/-- The sequence number of the latest broadcast. -/
def sequence (t : Table K) (h : Handle) : Except StaleHandle UInt8 :=
  return (← t.read h).sequence

/-- When the latest broadcast was stored. -/
def lastUpdate (t : Table K) (h : Handle) : Except StaleHandle Millis :=
  return (← t.read h).lastUpdate

/-- The state of the anchor's clock filter. -/
def clock (t : Table K) (h : Handle) : Except StaleHandle (RatioState K) :=
  return (← t.read h).clock

/-- The anchor's position, if it is still valid. -/
def position? (t : Table K) (h : Handle) : Except StaleHandle (Option (Stamped (Point K))) :=
  return (← t.read h).freshPosition? t.windows h.now

/-- The neighbour's latest broadcast that the anchor received, if the report is still valid. -/
def reception? (t : Table K) (h : Handle) (neighbour : AnchorId) :
    Except StaleHandle (Option Reception) :=
  return (← t.read h).reception? t.windows h.now neighbour

/-- The neighbours with a valid reception report, with the sequence number received. -/
def heard (t : Table K) (h : Handle) : Except StaleHandle (List (AnchorId × UInt8)) :=
  return (← t.read h).heard t.windows h.now

/-- The time of flight from a neighbour, if the report is still valid. -/
def flight? (t : Table K) (h : Handle) (neighbour : AnchorId) :
    Except StaleHandle (Option Ticks) :=
  return (← t.read h).flight? t.windows h.now neighbour

/-- The time of flight to the tag, if it was not measured before `oldest`. -/
def tagFlight? (t : Table K) (h : Handle) (oldest : Millis) : Except StaleHandle (Option Ticks) :=
  return (← t.read h).tagFlightSince? oldest

/-- Store the times of a broadcast. -/
def setBroadcast (t : Table K) (h : Handle) (rxTime txTime : Ticks) (sequence : UInt8) :
    Except StaleHandle (Table K) :=
  t.modify h (·.setBroadcast h.now rxTime txTime sequence)

/-- Store the state of the anchor's clock filter. -/
def setClock (t : Table K) (h : Handle) (clock : RatioState K) : Except StaleHandle (Table K) :=
  t.modify h fun r => { r with clock }

/-- Store the anchor's position. -/
def setPosition (t : Table K) (h : Handle) (point : Point K) : Except StaleHandle (Table K) :=
  t.modify h (·.setPosition h.now point)

/-- Store a report about a neighbour's broadcast. -/
def setReception (t : Table K) (h : Handle) (neighbour : AnchorId) (reception : Reception) :
    Except StaleHandle (Table K) :=
  t.modify h (·.setReception h.now neighbour reception)

/-- Store a time of flight from a neighbour. -/
def setFlight (t : Table K) (h : Handle) (neighbour : AnchorId) (flight : Ticks) :
    Except StaleHandle (Table K) :=
  t.modify h (·.setFlight h.now neighbour flight)

/-- Store the time of flight to the tag. -/
def setTagFlight (t : Table K) (h : Handle) (flight : Ticks) : Except StaleHandle (Table K) :=
  t.modify h (·.setTagFlight h.now flight)

/-- Overwrite the front of a buffer with as many items as fit. The number written comes first. -/
def fill {α : Type} (buffer items : List α) : Nat × List α :=
  let written := items.take buffer.length
  (written.length, written ++ buffer.drop written.length)

/-- A buffer keeps its length. -/
@[simp] theorem length_fill {α : Type} (buffer items : List α) :
    (fill buffer items).2.length = buffer.length := by
  simp only [fill, List.length_append, List.length_take, List.length_drop]
  omega

/-- Write the neighbours with a valid reception report, and the sequence numbers received, into a
buffer. The number written comes first. -/
def heardInto (t : Table K) (h : Handle) (buffer : List (AnchorId × UInt8)) :
    Except StaleHandle (Nat × List (AnchorId × UInt8)) :=
  return fill buffer (← t.heard h)

end Table

end Ranging

import Mathlib.Algebra.Group.Nat.Defs
import Ranging.Proofs.Run

/-!
# Packets and their true times

A `Dated` packet carries the time at which it is handled, and the tag's clock shows this time modulo
its period. A run is `Timely` if its packets are in the order of their times and all of them lie
within one period of the clock, wherever in the run the clock starts over. Ages of what a packet has
left are then true ages for every later packet.
-/

namespace Ranging

/-- A broadcast, the tag's ticks when it received it, and the time in milliseconds at which it is
handled, on a clock that never starts over. -/
structure Dated (K : Type) where
  broadcast : Broadcast K
  rxTime : Ticks
  time : Nat

namespace Dated

variable {K : Type}

def source (d : Dated K) : AnchorId := d.broadcast.source

/-- The packet as the tag sees it, with the reading of its millisecond clock. -/
def arrival (d : Dated K) : Arrival K :=
  ⟨d.broadcast, d.rxTime, Millis.ofTime d.time⟩

/-- In order, and within one period of the millisecond clock. -/
structure Timely (ds : List (Dated K)) : Prop where
  ordered : ds.Pairwise (·.time ≤ ·.time)
  span : ∀ d ∈ ds, ∀ e ∈ ds, e.time < d.time + 2 ^ 32

instance (ds : List (Dated K)) : Decidable (Timely ds) :=
  decidable_of_iff (ds.Pairwise (·.time ≤ ·.time) ∧ ∀ d ∈ ds, ∀ e ∈ ds, e.time < d.time + 2 ^ 32)
    ⟨fun h => ⟨h.1, h.2⟩, fun h => ⟨h.ordered, h.span⟩⟩

/-- The last packet of an anchor. -/
def lastFrom? (ds : List (Dated K)) (id : AnchorId) : Option (Dated K) :=
  (ds.filter (·.source = id)).getLast?

@[simp] theorem arrival_source (d : Dated K) : d.arrival.source = d.source := rfl

@[simp] theorem arrival_now (d : Dated K) : d.arrival.now = Millis.ofTime d.time := rfl

@[simp] theorem arrival_broadcast (d : Dated K) : d.arrival.broadcast = d.broadcast := rfl

@[simp] theorem arrival_rxTime (d : Dated K) : d.arrival.rxTime = d.rxTime := rfl

/-- A part of a timely run from its beginning. -/
theorem Timely.of_append {past later : List (Dated K)} (h : Timely (past ++ later)) :
    Timely past :=
  ⟨(List.pairwise_append.1 h.ordered).1, fun d hd e he =>
    h.span d (List.mem_append_left _ hd) e (List.mem_append_left _ he)⟩

/-- No packet is younger than the last one, or a whole period older. -/
theorem Timely.of_mem {past : List (Dated K)} {d e : Dated K} (h : Timely (past ++ [d]))
    (he : e ∈ past ++ [d]) : e.time ≤ d.time ∧ d.time < e.time + 2 ^ 32 := by
  refine ⟨?_, h.span e he d (by simp)⟩
  rcases List.mem_append.1 he with he | he
  · exact (List.pairwise_append.1 h.ordered).2.2 e he d (by simp)
  · exact Nat.le_of_eq (congrArg time (List.mem_singleton.1 he))

/-- To the last packet of a run, the age of what an earlier one has left is the true age. -/
theorem Timely.toNat_since {past : List (Dated K)} {d e : Dated K} (h : Timely (past ++ [d]))
    (he : e ∈ past ++ [d]) :
    (Millis.since (Millis.ofTime e.time) (Millis.ofTime d.time)).toNat = d.time - e.time :=
  Millis.toNat_since_ofTime (h.of_mem he).1 (h.of_mem he).2

theorem mem_of_lastFrom? {ds : List (Dated K)} {id : AnchorId} {d : Dated K}
    (h : lastFrom? ds id = some d) : d ∈ ds ∧ d.source = id := by
  simpa using List.mem_filter.1 (List.mem_of_getLast? h)

theorem packetsOf_arrivals (ds : List (Dated K)) (id : AnchorId) :
    packetsOf id (ds.map arrival) = (ds.filter (·.source = id)).map arrival := by
  rw [packetsOf, List.filter_map]
  rfl

theorem getLast?_packetsOf_arrivals (ds : List (Dated K)) (id : AnchorId) :
    (packetsOf id (ds.map arrival)).getLast? = (lastFrom? ds id).map arrival := by
  rw [packetsOf_arrivals, List.getLast?_map, lastFrom?]

end Dated

end Ranging

import Ranging.Anchor.Id
import Ranging.Time

/-!
# Bounded lists of dated values

An anchor reports on its neighbours, and the tag keeps the latest report about each of them in a
list of fixed capacity. Nothing is ever swept: an entry that has outlived its window stays in its
place and is skipped when read. A write for a new neighbour into a full list takes the place of
the oldest entry, which is also the first to expire, since all entries share one window.
-/

namespace Ranging

/-- A value kept for one neighbour. -/
structure Entry (α : Type) extends Stamped α where
  key : AnchorId

/-- At most `capacity` entries, at most one for each neighbour. -/
structure Recent (α : Type) where
  capacity : Nat
  entries : List (Entry α) := []

namespace Recent

variable {α : Type}

/-- The place of the entry for `key`. -/
def index? (r : Recent α) (key : AnchorId) : Option Nat :=
  r.entries.findIdx? (·.key = key)

/-- Put an entry in place of the one for the same neighbour, else into free space, else in place
of the oldest. -/
def write (r : Recent α) (now : Millis) (key : AnchorId) (value : α) : Recent α :=
  let entry : Entry α := { value, written := now, key }
  match r.index? key with
  | some i => { r with entries := r.entries.set i entry }
  | none =>
    if r.entries.length < r.capacity then { r with entries := r.entries ++ [entry] }
    else
      let oldest := Millis.oldestIndex now (r.entries.map (·.written))
      { r with entries := r.entries.set oldest entry }

/-- The value for `key`, if it is still within its window. -/
def find? (r : Recent α) (window now : Millis) (key : AnchorId) : Option α := do
  let entry ← r.entries.find? (·.key = key)
  entry.fresh? window now

/-- The entries that are still within their window, in list order. -/
def live (r : Recent α) (window now : Millis) : List (Entry α) :=
  r.entries.filter fun entry => Millis.isFresh entry.written window now

@[simp] theorem write_capacity (r : Recent α) (now : Millis) (key : AnchorId) (value : α) :
    (r.write now key value).capacity = r.capacity := by
  unfold write
  dsimp only
  split
  · rfl
  · split <;> rfl

/-- A list never holds more than its capacity. -/
theorem length_write_le {r : Recent α} (now : Millis) (key : AnchorId) (value : α)
    (h : r.entries.length ≤ r.capacity) :
    (r.write now key value).entries.length ≤ r.capacity := by
  unfold write
  dsimp only
  split
  · simpa using h
  · split
    · rename_i hlt
      simpa using Nat.succ_le_of_lt hlt
    · simpa using h

theorem mem_live {r : Recent α} {window now : Millis} {entry : Entry α} :
    entry ∈ r.live window now ↔
      entry ∈ r.entries ∧ Millis.since entry.written now < window := by
  simp [live, Millis.isFresh]

end Recent

end Ranging

/-!
# Clocks that start over

Two counters measure time. The tag's millisecond clock has 32 bits and starts over after about
49 days; ages are differences modulo `2 ^ 32`, so they stay right across one restart. The radios
stamp events with a 40-bit tick counter that starts over every few seconds; a difference of two
stamps is taken in a full word and then reduced to 40 bits.
-/

namespace Ranging

/-- A reading of the millisecond clock. -/
abbrev Millis := UInt32

namespace Millis

/-- Milliseconds that have passed since `written`. -/
def since (written now : Millis) : UInt32 :=
  now - written

/-- A value written at `written` is usable while less than `window` milliseconds have passed. -/
def isFresh (written window now : Millis) : Bool :=
  since written now < window

/-- The clock has gone past `deadline`, by less than half of its range. -/
def isPast (deadline now : Millis) : Bool :=
  0 < since deadline now && since deadline now < 0x80000000

/-- `time` is `reference` or lies after it, by less than half of the clock's range. -/
def notBefore (time reference : Millis) : Bool :=
  since reference time < 0x80000000

/-- The first greatest age and its index. -/
def firstGreatest : List UInt32 → Option (Nat × UInt32)
  | [] => none
  | age :: rest =>
    match firstGreatest rest with
    | none => some (0, age)
    | some (i, greatest) => if age < greatest then some (i + 1, greatest) else some (0, age)

/-- The index of the stamp that is oldest at `now`, the first of equally old ones. -/
def oldestIndex (now : Millis) (stamps : List Millis) : Nat :=
  match firstGreatest (stamps.map (since · now)) with
  | some (i, _) => i
  | none => 0

@[simp] theorem since_self (now : Millis) : since now now = 0 := by
  simp [since]

/-- Ages do not depend on where the clock started. -/
@[simp] theorem since_add_right (written now shift : Millis) :
    since (written + shift) (now + shift) = since written now := by
  unfold since
  grind

theorem firstGreatest_lt {ages : List UInt32} {i : Nat} {age : UInt32}
    (h : firstGreatest ages = some (i, age)) : i < ages.length := by
  induction ages generalizing i age with
  | nil => simp [firstGreatest] at h
  | cons first rest ih =>
    rw [firstGreatest] at h
    split at h
    · obtain ⟨rfl, -⟩ := by simpa using h
      simp
    · rename_i j greatest hrest
      have := ih hrest
      split at h <;> simp_all <;> omega

/-- The oldest of some stamps is one of them. -/
theorem oldestIndex_lt {now : Millis} {stamps : List Millis} (h : stamps ≠ []) :
    oldestIndex now stamps < stamps.length := by
  rw [oldestIndex]
  split
  · rename_i hi
    simpa using firstGreatest_lt hi
  · exact List.length_pos_iff.2 h

end Millis

/-- A value together with the time at which it was written. -/
structure Stamped (α : Type) where
  value : α
  written : Millis
deriving BEq, DecidableEq

namespace Stamped

/-- The value, if it was written within the window. -/
def fresh? {α : Type} (s : Stamped α) (window now : Millis) : Option α :=
  if Millis.isFresh s.written window now then some s.value else none

theorem fresh?_eq_some_iff {α : Type} {s : Stamped α} {window now : Millis} {a : α} :
    s.fresh? window now = some a ↔ Millis.since s.written now < window ∧ s.value = a := by
  simp [fresh?, Millis.isFresh]

end Stamped

/-- A radio timestamp or a difference of two, in ticks of the radio's counter. -/
abbrev Ticks := Int64

namespace Ticks

/-- The bits of a counter reading: radios count modulo `2 ^ 40`. -/
def counterMask : UInt64 := 0xFFFFFFFFFF

/-- The number of readings a counter goes through before it starts over. -/
def counterPeriod : Nat := Nat.pow 2 40

/-- The 40-bit counter reading that agrees with `t` modulo the counter's period. -/
def wrap (t : Ticks) : Ticks :=
  (t.toUInt64 &&& counterMask).toInt64

/-- Ticks from `earlier` to `later` on one counter, which may start over once in between. -/
def elapsed (earlier later : Ticks) : Ticks :=
  wrap (later - earlier)

end Ticks

/-- The bits of a sequence number that travel in a broadcast. -/
def sequenceMask : UInt8 := 0x7f

end Ranging

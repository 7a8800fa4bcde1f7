import Ranging.Proofs.Calls
import Ranging.Proofs.Exclusion
import Ranging.Proofs.TableHistory

/-!
# Everything that can be done with a receiver

A packet need not be handed over as a whole. A user can take a handle for its sender, run the
ranging pipeline with it, with or without an exclusion and at any later time, and read and write the
table in between. `Use` covers all of this. Whatever is done, the table stays sound
(`Receiver.sound_useAll`), which is all that the results about the next packet need.
-/

namespace Ranging

variable {K : Type}

/-- What can be done with a receiver. -/
inductive Use (K : Type) where
  | call (c : Call K)
  /-- A handle for the sender of a packet. -/
  | enter (id : AnchorId) (now : Millis)
  | process (h : Handle) (txTime rxTime : Ticks) (exclude : Option AnchorId)
  /-- The table is used directly. -/
  | table (c : Table.Command K)
  /-- The table makes room for an empty one. -/
  | replace (capacity receptionCapacity flightCapacity : Nat) (windows : Windows)
  | collect

namespace Receiver

variable [Scalar K]

/-- The receiver after a use. One that is refused leaves it as it was. -/
def use (r : Receiver K) : Use K → Receiver K
  | .call c =>
    match r.serve c with
    | .ok (_, next) => next
    | .error _ => r
  | .enter id now => (r.enter id now).2
  | .process h txTime rxTime exclude =>
    match r.process h txTime rxTime exclude with
    | .ok (_, next) => next
    | .error _ => r
  | .table c => { r with table := (r.table.perform c).2 }
  | .replace capacity receptionCapacity flightCapacity windows =>
    match Table.create capacity receptionCapacity flightCapacity windows with
    | .ok table => { r with table }
    | .error _ => r
  | .collect => r.collect.2

/-- The receiver after several uses. -/
def useAll (r : Receiver K) (us : List (Use K)) : Receiver K :=
  us.foldl use r

/-- The ranging pipeline keeps the table sound, with or without an exclusion. -/
theorem sound_process {r next : Receiver K} (hsound : r.table.Sound) {h : Handle}
    {txTime rxTime : Ticks} {exclude : Option AnchorId} {flag : Bool}
    (hprocess : r.process h txTime rxTime exclude = .ok (flag, next)) : next.table.Sound := by
  rw [process_eq] at hprocess
  obtain ⟨ρ, hread, -⟩ | ⟨-, hread⟩ := Table.read_cases r.table h
  · have hsearched : ∃ reliable partner ready,
        r.search h txTime rxTime exclude = .ok (reliable, partner, ready) ∧
          r.Ready ready h partner := by
      cases exclude with
      | none =>
          obtain ⟨reliable, partner, -, ready, hsearch, -, -, hready, -⟩ :=
            search_excluding hread txTime rxTime h.id
          exact ⟨reliable, partner, ready, hsearch, hready⟩
      | some x =>
          obtain ⟨reliable, -, partner, ready, -, hsearch, -, -, hready⟩ :=
            search_excluding hread txTime rxTime x
          exact ⟨reliable, partner, ready, hsearch, hready⟩
    obtain ⟨reliable, partner, ready, hsearch, hready⟩ := hsearched
    obtain ⟨last, -, hconclude, htable, -⟩ := exists_conclude hready txTime rxTime
    simp only [hsearch, hconclude, bind, Except.bind] at hprocess
    obtain rfl := congrArg Prod.snd (Except.ok.inj hprocess)
    rw [htable]
    exact hready.sound hsound
  · simp only [search, updateClock, hread, bind, Except.bind] at hprocess
    cases hprocess

theorem sound_use {r : Receiver K} (hsound : r.table.Sound) (u : Use K) :
    (r.use u).table.Sound := by
  cases u with
  | call c =>
      rw [use, serve_eq hsound.hasSlot]
      exact sound_afterCall hsound c
  | enter id now =>
      rw [use, enter, Table.enter_eq]
      exact hsound.entered id now
  | process h txTime rxTime exclude =>
      rw [use]
      split
      · rename_i hprocess
        exact sound_process hsound hprocess
      · exact hsound
  | table c => exact hsound.perform c
  | replace capacity receptionCapacity flightCapacity windows =>
      rw [use]
      split
      · rename_i hcreate
        exact Table.Sound.of_create hcreate
      · exact hsound
  | collect => exact hsound

/-- However a receiver is used, its table is sound. -/
theorem sound_useAll {r : Receiver K} (hsound : r.table.Sound) (us : List (Use K)) :
    (r.useAll us).table.Sound := by
  induction us generalizing r with
  | nil => exact hsound
  | cons u us ih => exact ih (sound_use hsound u)

end Receiver

end Ranging

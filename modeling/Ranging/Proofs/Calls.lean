import Ranging.Proofs.Checked
import Ranging.Proofs.Intervals

/-!
# Runs of calls

Packets come to a receiver among other calls: a pair of anchors is selected, the standard deviation
of measurements is set, and what is stored is looked at. No call fails on a receiver that was
created, and what a run of them does is `Receiver.afterCall`, applied call by call.

What calls do to the diagnostics is a list of operations, `Receiver.history`. Every event that is
counted and every value that is recorded is in it, in the order in which this happens.
-/

namespace Ranging

variable {K : Type}

/-- The packet that a call hands over. -/
def Call.packet? : Call K → Option (Arrival K)
  | .packet a => some a
  | _ => none

/-- The packets that some calls hand over. -/
def packetsIn (calls : List (Call K)) : List (Arrival K) :=
  calls.filterMap Call.packet?

/-- Whether the timing of a packet was reliable, if the answer is one to a packet. -/
def Answer.flag? : Answer K → Option Bool
  | .reliable flag => some flag
  | _ => none

variable [Scalar K]

namespace Receiver

/-! ## One call -/

/-- The answer to a call. -/
def answer (r : Receiver K) : Call K → Answer K
  | .packet a => .reliable (r.reliable a)
  | .watch _ => .done
  | .setStdDev _ => .done
  | .anchorPosition id now => .position (r.anchorPosition? id now)
  | .ids buffer => .ids (Table.fill buffer r.table.ids).1 (Table.fill buffer r.table.ids).2
  | .activeIds buffer now =>
    .ids (Table.fill buffer (r.table.activeIds now)).1 (Table.fill buffer (r.table.activeIds now)).2

/-- The receiver after a call. -/
def afterCall (r : Receiver K) : Call K → Receiver K
  | .packet a => r.after a
  | .watch s => r.watch s
  | .setStdDev stdDev => { r with stdDev }
  | _ => r

theorem serve_eq {r : Receiver K} (h : r.table.HasSlot) (call : Call K) :
    r.serve call = .ok (r.answer call, r.afterCall call) := by
  cases call with
  | packet a =>
      rw [serve, handle_eq h]
      rfl
  | _ => rfl

theorem sound_afterCall {r : Receiver K} (h : r.table.Sound) (call : Call K) :
    (r.afterCall call).table.Sound := by
  cases call with
  | packet a => exact sound_after h a
  | _ => exact h

/-! ## Several calls -/

/-- The receiver after some calls. -/
def afterCalls (r : Receiver K) (calls : List (Call K)) : Receiver K :=
  calls.foldl afterCall r

/-- The answers to some calls. -/
def answers (r : Receiver K) : List (Call K) → List (Answer K)
  | [] => []
  | call :: calls => r.answer call :: (r.afterCall call).answers calls

@[simp] theorem afterCalls_nil (r : Receiver K) : r.afterCalls [] = r := rfl

@[simp] theorem afterCalls_cons (r : Receiver K) (call : Call K) (calls : List (Call K)) :
    r.afterCalls (call :: calls) = (r.afterCall call).afterCalls calls := rfl

@[simp] theorem afterCalls_append (r : Receiver K) (calls calls' : List (Call K)) :
    r.afterCalls (calls ++ calls') = (r.afterCalls calls).afterCalls calls' :=
  List.foldl_append

theorem sound_afterCalls {r : Receiver K} (h : r.table.Sound) (calls : List (Call K)) :
    (r.afterCalls calls).table.Sound := by
  induction calls generalizing r with
  | nil => exact h
  | cons call calls ih => exact ih (sound_afterCall h call)

/-- No call fails. -/
theorem serveAll_eq {r : Receiver K} (h : r.table.Sound) (calls : List (Call K)) :
    r.serveAll calls = .ok (r.answers calls, r.afterCalls calls) := by
  induction calls generalizing r with
  | nil => rfl
  | cons call calls ih =>
      simp only [serveAll, serve_eq h.hasSlot, ih (sound_afterCall h call), bind, Except.bind, pure,
        Except.pure]
      rfl

/-! ## What is done to the diagnostics -/

/-- What a packet does to the diagnostics before the ranging pipeline runs. -/
def entryOperations (r : Receiver K) (a : Arrival K) : List (Diagnostics.Operation K) :=
  [.count .packetReceived, .update a.now,
    .count (if r.table.contains a.source then .known else .entered)]
  ++ a.flights.map fun e => .recordFlight a.source e.key e.value

/-- What a packet does to the diagnostics, in this order. -/
def operations (r : Receiver K) (a : Arrival K) : List (Diagnostics.Operation K) :=
  r.entryOperations a
  ++ (if r.reliable a then
      [.recordClockRatio a.source (r.prepared a).clock.ratio, .count .reliable] else [])
  ++ (if (r.partner? a).isSome then [.count .paired] else [])
  ++ (match r.measurement? a with
    | some m => [.count .sent, .recordDistanceDiff m.first m.second m.distanceDiff]
    | none => [])

/-- What a call does to the diagnostics. -/
def operationsOf (r : Receiver K) : Call K → List (Diagnostics.Operation K)
  | .packet a => r.operations a
  | .watch s => [.watch s]
  | _ => []

/-- What some calls do to the diagnostics. -/
def history (r : Receiver K) : List (Call K) → List (Diagnostics.Operation K)
  | [] => []
  | call :: calls => r.operationsOf call ++ (r.afterCall call).history calls

theorem performAll_flights (d : Diagnostics K) (a : Arrival K) :
    d.performAll (a.flights.map fun e => .recordFlight a.source e.key e.value) =
      a.others.foldl (·.recordReport a.source ·) d := by
  rw [Arrival.flights]
  induction a.others generalizing d with
  | nil => rfl
  | cons report rest ih =>
      rw [List.foldl_cons, ← ih, Diagnostics.recordReport]
      by_cases hflight : report.flight = 0 <;> simp [hflight, Diagnostics.perform]

theorem heard_diagnostics (r : Receiver K) (a : Arrival K) :
    (r.heard a).diagnostics = r.diagnostics.performAll (r.entryOperations a) := by
  rw [entryOperations, Diagnostics.performAll_append, performAll_flights]
  rfl

/-- A packet does to the diagnostics what is listed, and nothing else. -/
theorem after_diagnostics (r : Receiver K) (a : Arrival K) :
    (r.after a).diagnostics = r.diagnostics.performAll (r.operations a) := by
  change r.nextDiagnostics a = _
  simp only [operations, Diagnostics.performAll_append, ← heard_diagnostics]
  rw [nextDiagnostics]
  cases hreliable : r.reliable a <;> cases hpartner : (r.partner? a).isSome <;>
    cases hmeasurement : r.measurement? a <;>
    simp [chosen, timed, hreliable, Diagnostics.perform]

theorem afterCall_diagnostics (r : Receiver K) (call : Call K) :
    (r.afterCall call).diagnostics = r.diagnostics.performAll (r.operationsOf call) := by
  cases call with
  | packet a => exact after_diagnostics r a
  | _ => rfl

theorem afterCalls_diagnostics (r : Receiver K) (calls : List (Call K)) :
    (r.afterCalls calls).diagnostics = r.diagnostics.performAll (r.history calls) := by
  induction calls generalizing r with
  | nil => rfl
  | cons call calls ih =>
      rw [afterCalls_cons, ih, afterCall_diagnostics, history, Diagnostics.performAll_append]

end Receiver

end Ranging

import Ranging.Proofs.Calls
import Ranging.Proofs.Emission

/-!
# The funnel of counters

Each counter counts the packets that reach one stage of the pipeline, so that no stage counts more
of them than the stage before it. Two things stand in the way of saying just that. The counters are
refreshed in the middle of handling a packet, after the packet has been counted and before anything
else about it is; and a counter that has reached its greatest value stays there.

A `Ledger` is kept beside the counters. It holds the events since the counters were last refreshed,
without a limit, and those since the start. A counter shows what the ledger says, cut off at the
greatest value (`Diagnostics.Shows`), and the stages are compared in the ledger.
-/

namespace Ranging

/-- A record of events that no counter limits. -/
structure Ledger where
  /-- Events of each kind since the counters were last refreshed. -/
  current : Tally Nat
  /-- Events of each kind since the start. -/
  total : Tally Nat
  /-- The counters have been refreshed before. -/
  refreshed : Bool

namespace Ledger

/-- Nothing has happened yet. -/
def empty : Ledger := ⟨.replicate 0, .replicate 0, false⟩

/-- The ledger with one more event. -/
def add (l : Ledger) (e : Event) : Ledger :=
  { l with current := l.current.modify e (· + 1), total := l.total.modify e (· + 1) }

/-- The ledger when the counters are refreshed. -/
def close (l : Ledger) : Ledger :=
  { l with current := .replicate 0, refreshed := true }

/-- The counters have not lost an event since they were last refreshed: none has had to stay at its
greatest value. -/
def Fits (l : Ledger) : Prop :=
  ∀ e, l.current.get e ≤ RateCounter.saturation

end Ledger

namespace Diagnostics

variable {K : Type} [Scalar K]

/-- Enter an operation in a ledger. -/
def note (d : Diagnostics K) (l : Ledger) (op : Operation K) : Ledger :=
  match op with
  | .count e => l.add e
  | .update now => if d.refreshes now then l.close else l
  | .recordClockRatio anchor _ =>
    if anchor = d.watched.selection.anchor then l.add .clockConfirmed else l
  | _ => l

/-- Enter some operations in a ledger. -/
def noteAll (d : Diagnostics K) (l : Ledger) : List (Operation K) → Ledger
  | [] => l
  | op :: ops => (d.perform op).noteAll (d.note l op) ops

theorem noteAll_append (d : Diagnostics K) (l : Ledger) (ops ops' : List (Operation K)) :
    d.noteAll l (ops ++ ops') = (d.performAll ops).noteAll (d.noteAll l ops) ops' := by
  induction ops generalizing d l with
  | nil => rfl
  | cons op ops ih => exact ih (d.perform op) (d.note l op)

/-- The counters show the ledger, as far as they can count. -/
def Shows (d : Diagnostics K) (l : Ledger) : Prop :=
  ∀ e, d.pending.get e = min (l.current.get e) RateCounter.saturation

variable {d : Diagnostics K} {l : Ledger} {last : Millis}

omit [Scalar K] in
/-- Counters that have lost nothing show the ledger as it is. -/
theorem Shows.pending_eq (h : d.Shows l) (hfits : l.Fits) : d.pending = l.current := by
  apply Tally.ext_get
  intro e
  rw [h e, Nat.min_eq_left (hfits e)]

omit [Scalar K] in
theorem Shows.add (h : d.Shows l) (e : Event) : (d.count e).Shows (l.add e) := by
  intro other
  have hother := h other
  rw [pending, Tally.get_map] at hother ⊢
  rw [count, Ledger.add]
  by_cases hsame : other = e
  · subst hsame
    simp only [Tally.get_modify_self, RateCounter.event]
    split <;> omega
  · simpa only [Tally.get_modify_of_ne _ _ hsame] using hother

theorem Shows.update (h : d.Shows l) (htogether : d.Together last) (now : Millis) :
    (d.update now).Shows (d.note l (.update now)) := by
  intro e
  have he := h e
  rw [pending, Tally.get_map] at he ⊢
  rw [htogether.counters_update, note]
  split
  · simp [Ledger.close, RateCounter.refreshed]
  · exact he

theorem Shows.perform (h : d.Shows l) (htogether : d.Together last) (op : Operation K) :
    (d.perform op).Shows (d.note l op) := by
  cases op with
  | count e => exact h.add e
  | watch s => exact h
  | update now => exact h.update htogether now
  | recordClockRatio anchor ratio =>
      rw [Diagnostics.perform, recordClockRatio, note]
      split
      · exact Shows.add (d := { d with watched := _ }) h .clockConfirmed
      · exact h
  | recordFlight anchor remote flight =>
      rw [Diagnostics.perform, recordFlight]
      split <;> exact h
  | recordDistanceDiff first second distanceDiff =>
      rw [Diagnostics.perform, recordDistanceDiff]
      split
      · exact h
      · split <;> exact h

theorem Shows.performAll (h : d.Shows l) (htogether : d.Together last) (ops : List (Operation K)) :
    (d.performAll ops).Shows (d.noteAll l ops) := by
  induction ops generalizing d l last with
  | nil => exact h
  | cons op ops ih =>
      obtain ⟨next, hnext⟩ := htogether.perform op
      exact ih (h.perform htogether op) hnext

end Diagnostics

/-! ## Stages -/

namespace Ledger

/-- No stage counts more packets than the one before it. Every packet is that of a known anchor or of
one that enters, and the packet at which the counters were last refreshed is counted as such only. -/
structure Funnel (l : Ledger) : Prop where
  sent_le : l.current.sent ≤ l.current.paired
  paired_le : l.current.paired ≤ l.current.reliable
  reliable_le : l.current.reliable ≤ l.current.known
  clockConfirmed_le : l.current.clockConfirmed ≤ l.current.reliable
  balance : l.current.known + l.current.entered =
    l.current.packetReceived + if l.refreshed then 1 else 0

theorem funnel_empty : empty.Funnel :=
  ⟨Nat.le_refl _, Nat.le_refl _, Nat.le_refl _, Nat.le_refl _, rfl⟩

/-- The ledger when the sender of a packet has entered. -/
def enter (l : Ledger) (refreshes stored : Bool) : Ledger :=
  let l := l.add .packetReceived
  let l := if refreshes then l.close else l
  l.add (if stored then .known else .entered)

/-- The ledger after a packet, by what the packet comes to. -/
def packet (l : Ledger) (refreshes stored reliable watched paired sent : Bool) : Ledger :=
  let l := l.enter refreshes stored
  let l := if watched then l.add .clockConfirmed else l
  let l := if reliable then l.add .reliable else l
  let l := if paired then l.add .paired else l
  if sent then l.add .sent else l

theorem Funnel.packet {l : Ledger} (h : l.Funnel) (refreshes : Bool)
    {stored reliable watched paired sent : Bool} (hstored : reliable = true → stored = true)
    (hwatched : watched = true → reliable = true) (hpaired : paired = true → reliable = true)
    (hsent : sent = true → paired = true) :
    (l.packet refreshes stored reliable watched paired sent).Funnel := by
  obtain ⟨hsent_le, hpaired_le, hreliable_le, hclock_le, hbalance⟩ := h
  -- A packet adds at most one to each stage, and to none that an earlier stage has not counted.
  cases refreshes <;> cases stored <;> cases reliable <;> cases watched <;> cases paired <;>
    cases sent <;> simp at hstored hwatched hpaired hsent <;>
    constructor <;> simp [Ledger.packet, enter, add, close, Tally.modify, Tally.replicate] <;> omega

theorem packet_total_sent (l : Ledger) (refreshes stored reliable watched paired sent : Bool) :
    (l.packet refreshes stored reliable watched paired sent).total.sent =
      l.total.sent + if sent then 1 else 0 := by
  cases refreshes <;> cases stored <;> cases reliable <;> cases watched <;> cases paired <;>
    cases sent <;> rfl

end Ledger

/-- The counters show stages in the order of the pipeline, cut off or not. -/
theorem Diagnostics.Shows.stages_le {K : Type} {d : Diagnostics K} {l : Ledger} (h : d.Shows l)
    (hfunnel : l.Funnel) :
    d.pending.sent ≤ d.pending.paired ∧ d.pending.paired ≤ d.pending.reliable ∧
      d.pending.reliable ≤ d.pending.known ∧ d.pending.clockConfirmed ≤ d.pending.reliable := by
  have hsent := h .sent
  have hpaired := h .paired
  have hreliable := h .reliable
  have hknown := h .known
  have hclock := h .clockConfirmed
  simp only [Tally.get] at hsent hpaired hreliable hknown hclock
  obtain ⟨hsent_le, hpaired_le, hreliable_le, hclock_le, -⟩ := hfunnel
  omega

namespace Receiver

variable {K : Type} [Scalar K] {r : Receiver K} {l : Ledger}

/-- The ledger of some calls, from the start of a receiver on. -/
def ledger (r : Receiver K) (calls : List (Call K)) : Ledger :=
  r.diagnostics.noteAll .empty (r.history calls)

/-- A packet goes through the stages in order. -/
theorem stages (r : Receiver K) (a : Arrival K) :
    ((r.measurement? a).isSome = true → (r.partner? a).isSome = true) ∧
      ((r.partner? a).isSome = true → r.reliable a = true) ∧
      (r.reliable a = true → r.table.contains a.source = true) := by
  refine ⟨fun hm => ?_, fun hpartner => ?_, fun hreliable => ?_⟩
  · by_contra hnone
    rw [measurement?_of_partner_none (by simpa using hnone)] at hm
    cases hm
  · obtain ⟨other, hother⟩ := Option.isSome_iff_exists.1 hpartner
    exact (partner?_spec hother).1
  · rw [Table.contains_eq_isSome, find?_of_reliable hreliable]
    rfl

/-- Reports count nothing. -/
theorem noteAll_flights (d : Diagnostics K) (l : Ledger) (a : Arrival K) :
    d.noteAll l (a.flights.map fun e => .recordFlight a.source e.key e.value) = l := by
  generalize a.flights = entries
  induction entries generalizing d with
  | nil => rfl
  | cons e entries ih => exact ih _

/-- What a packet enters in a ledger. Its clock is counted only if it is reliable. -/
theorem exists_noteAll_operations (r : Receiver K) (a : Arrival K) (l : Ledger) :
    ∃ watched, (watched = true → r.reliable a = true) ∧
      r.diagnostics.noteAll l (r.operations a) =
        l.packet ((r.diagnostics.count .packetReceived).refreshes a.now)
          (r.table.contains a.source) (r.reliable a) watched (r.partner? a).isSome
          (r.measurement? a).isSome := by
  refine ⟨r.reliable a && decide (a.source = (r.heard a).diagnostics.watched.selection.anchor),
    ?_, ?_⟩
  · intro hwatched
    exact (Bool.and_eq_true_iff.1 hwatched).1
  · simp only [operations, Diagnostics.noteAll_append, Diagnostics.performAll_append,
      ← heard_diagnostics]
    have hentered : r.diagnostics.noteAll l (r.entryOperations a) =
        l.enter ((r.diagnostics.count .packetReceived).refreshes a.now)
          (r.table.contains a.source) := by
      rw [entryOperations, Diagnostics.noteAll_append, noteAll_flights]
      rfl
    rw [hentered, Ledger.packet]
    generalize l.enter _ _ = l'
    cases r.reliable a <;> cases (r.partner? a).isSome <;> cases r.measurement? a <;>
      simp [Diagnostics.noteAll, Diagnostics.note]

/-! ## Runs -/

/-- What a ledger says about a receiver. -/
structure Accounts (r : Receiver K) (l : Ledger) : Prop where
  together : ∃ last, r.diagnostics.Together last
  shows : r.diagnostics.Shows l
  funnel : l.Funnel
  sent : l.total.sent = r.outbox.length

theorem accounts_fresh (s : Settings K) (start : Millis) : (fresh s start).Accounts .empty where
  together := ⟨start, (Diagnostics.inStep_start s.statsInterval start).together⟩
  shows e := by cases e <;> rfl
  funnel := Ledger.funnel_empty
  sent := rfl

theorem Accounts.after (h : r.Accounts l) (a : Arrival K) :
    (r.after a).Accounts (r.diagnostics.noteAll l (r.operations a)) := by
  obtain ⟨last, htogether⟩ := h.together
  obtain ⟨hsent, hpaired, hstored⟩ := r.stages a
  obtain ⟨watched, hwatched, hledger⟩ := r.exists_noteAll_operations a l
  refine ⟨?_, ?_, ?_, ?_⟩
  · rw [after_diagnostics]
    exact htogether.performAll _
  · rw [after_diagnostics]
    exact h.shows.performAll htogether _
  · rw [hledger]
    exact h.funnel.packet _ hstored hwatched hpaired hsent
  · rw [hledger, Ledger.packet_total_sent, h.sent, after_outbox, List.length_append]
    cases r.measurement? a <;> rfl

theorem Accounts.afterCall (h : r.Accounts l) (call : Call K) :
    (r.afterCall call).Accounts (r.diagnostics.noteAll l (r.operationsOf call)) := by
  cases call with
  | packet a => exact h.after a
  | _ => exact ⟨h.together, h.shows, h.funnel, h.sent⟩

theorem Accounts.afterCalls (h : r.Accounts l) (calls : List (Call K)) :
    (r.afterCalls calls).Accounts (r.diagnostics.noteAll l (r.history calls)) := by
  induction calls generalizing r l with
  | nil => exact h
  | cons call calls ih =>
      rw [history, Diagnostics.noteAll_append, ← afterCall_diagnostics]
      exact ih (h.afterCall call)

theorem accounts_of_create {s : Settings K} {start : Millis} (hcreate : create s start = .ok r)
    (calls : List (Call K)) : (r.afterCalls calls).Accounts (r.ledger calls) := by
  obtain ⟨-, rfl⟩ := create_eq_ok_iff.1 hcreate
  exact (accounts_fresh s start).afterCalls calls

/-- After every packet of a run, with other calls anywhere between the packets and whatever the clock
reads, the counters of later stages are no greater than those of earlier ones.

Until a counter stays at its greatest value, the packets of known anchors and of anchors that enter
are as many as the packets received, and one more once the counters have been refreshed. When an
interval ends, they are therefore as many as the packets received in it, except in the first interval,
where the last packet is missing from them.

Over the whole run, the measurements counted are as many as the measurements sent. -/
theorem counter_funnel {s : Settings K} {start : Millis} (hcreate : create s start = .ok r)
    (calls : List (Call K)) (a : Arrival K) :
    ∃ answers r₁ flag r₂, r.serveAll calls = .ok (answers, r₁) ∧
      r₁.handle a.broadcast a.rxTime a.now = .ok (flag, r₂) ∧
      r₂.diagnostics = r.diagnostics.performAll (r.history (calls ++ [.packet a])) ∧
      (let n := r₂.diagnostics.pending;
        n.sent ≤ n.paired ∧ n.paired ≤ n.reliable ∧ n.reliable ≤ n.known ∧
          n.clockConfirmed ≤ n.reliable ∧
          ((r.ledger (calls ++ [.packet a])).Fits → n.known + n.entered =
            n.packetReceived + if (r.ledger (calls ++ [.packet a])).refreshed then 1 else 0)) ∧
      (let closing := r₁.diagnostics.count .packetReceived;
        closing.refreshes a.now = true → ((r.ledger calls).add .packetReceived).Fits →
          closing.pending.known + closing.pending.entered +
            (if (r.ledger calls).refreshed then 0 else 1) = closing.pending.packetReceived) ∧
      (r.ledger (calls ++ [.packet a])).total.sent = r₂.outbox.length := by
  have hsound := sound_of_create hcreate
  have hbefore := accounts_of_create hcreate calls
  have hafter := accounts_of_create hcreate (calls ++ [.packet a])
  have hcalls : r.afterCalls (calls ++ [.packet a]) = (r.afterCalls calls).after a :=
    afterCalls_append r calls [.packet a]
  refine ⟨r.answers calls, r.afterCalls calls, (r.afterCalls calls).reliable a,
    (r.afterCalls calls).after a, serveAll_eq hsound calls,
    handle_eq (sound_afterCalls hsound calls).hasSlot a, ?_, ?_, ?_, ?_⟩
  · rw [← hcalls, afterCalls_diagnostics]
  · rw [← hcalls]
    obtain ⟨hsent, hpaired, hreliable, hclock⟩ := hafter.shows.stages_le hafter.funnel
    refine ⟨hsent, hpaired, hreliable, hclock, ?_⟩
    intro hfits
    rw [hafter.shows.pending_eq hfits]
    exact hafter.funnel.balance
  · intro closing _ hfits
    rw [(hbefore.shows.add .packetReceived).pending_eq hfits]
    have hbalance := hbefore.funnel.balance
    simp only [Ledger.add, Tally.modify]
    split <;> simp_all
  · rw [← hcalls]
    exact hafter.sent

/-- The packets of a pair, the selection of that pair, a report, and a second one that ends the first
interval. -/
def intervalCalls : List (Call Float) :=
  pairRun.map .packet ++ [.watch ⟨⟨1⟩, ⟨2⟩⟩, .packet pairReport, .packet { pairReport with now := 600 }]

/-- A third report ends the second interval: the one before it is the only packet of a known anchor
in it, and this one the only packet received. -/
theorem counter_funnel_secondInterval : ∃ (r r₁ r₂ : Receiver Float) (answers : List (Answer Float))
    (flag : Bool), create Settings.standard 0 = .ok r ∧
    r.serveAll intervalCalls = .ok (answers, r₁) ∧
    r₁.handle pairReport.broadcast pairReport.rxTime 1200 = .ok (flag, r₂) ∧
    (let closing := r₁.diagnostics.count .packetReceived;
      closing.refreshes 1200 = true ∧ closing.pending.known + closing.pending.entered =
        closing.pending.packetReceived) ∧
    r₂.diagnostics.pending.sent ≤ r₂.diagnostics.pending.paired ∧
    r₂.diagnostics.pending.known + r₂.diagnostics.pending.entered =
      r₂.diagnostics.pending.packetReceived + 1 := by
  have hcreate := create_standard 0
  obtain ⟨answers, r₁, flag, r₂, hserve, hhandle, -, ⟨hsent, -, -, -, hbalance⟩, hclosing, -⟩ :=
    counter_funnel hcreate intervalCalls { pairReport with now := 1200 }
  obtain rfl : r₁ = (fresh .standard 0).afterCalls intervalCalls := by
    rw [serveAll_eq (sound_of_create hcreate)] at hserve
    cases hserve
    rfl
  have hrefreshes : (((fresh .standard 0).afterCalls intervalCalls).diagnostics.count
      .packetReceived).refreshes 1200 = true := by decide +kernel
  have hfits : (((fresh (K := Float) .standard 0).ledger intervalCalls).add .packetReceived).Fits := by
    intro e
    apply Nat.le_trans (m := 10)
    · cases e <;> decide +kernel
    · decide
  have hfits' : ((fresh (K := Float) .standard 0).ledger
      (intervalCalls ++ [.packet { pairReport with now := 1200 }])).Fits := by
    intro e
    apply Nat.le_trans (m := 10)
    · cases e <;> decide +kernel
    · decide
  have hrefreshed : ((fresh (K := Float) .standard 0).ledger intervalCalls).refreshed = true := by
    decide +kernel
  have hrefreshed' : ((fresh (K := Float) .standard 0).ledger
      (intervalCalls ++ [.packet { pairReport with now := 1200 }])).refreshed = true := by
    decide +kernel
  have hclosed := hclosing hrefreshes hfits
  have hopen := hbalance hfits'
  rw [hrefreshed, if_pos rfl, Nat.add_zero] at hclosed
  rw [hrefreshed', if_pos rfl] at hopen
  exact ⟨_, _, r₂, answers, flag, hcreate, hserve, hhandle, ⟨hrefreshes, hclosed⟩, hsent, hopen⟩

end Receiver

end Ranging

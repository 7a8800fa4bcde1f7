import Ranging.Proofs.Run

/-!
# Intervals of the diagnostics

Two timers end an interval of the diagnostics. The deadline is compared with the clock as a signed
distance, and decides when the watched pair is latched. Every counter has a timer of its own, which
takes the time since its last refreshing without a sign.

`Diagnostics.InStep` is what keeps the two together: the counters were all refreshed at the same
time, and the deadline lies one interval after it. Every operation preserves it, whatever the clock
reads, as long as an interval is at most half of the clock's range. Then an update does nothing, or
it closes the interval for the watched pair and for all counters at once
(`Diagnostics.InStep.update_eq`).

With a longer interval the deadline seems to have passed at the very time at which it is set.
-/

namespace Ranging

namespace RateCounter

/-- The counter after an interval that ends at `now`, however long it was. -/
def refreshed (c : RateCounter) (now : Millis) : RateCounter :=
  { c with
    count := 0
    rate := Float32.ofNat c.count * 1000.0 / Float32.ofNat (Millis.since c.latest now).toNat
    latest := now }

theorem update_snd (c : RateCounter) (now : Millis) :
    (c.update now).2 = if c.isDue now then c.refreshed now else c := by
  rw [update]
  split <;> rfl

end RateCounter

namespace Millis

/-- A deadline one interval after `latest` has passed while the time since `latest` exceeds the
interval, by less than half of the clock's range. -/
theorem isPast_add_iff {latest interval now : Millis} :
    isPast (latest + interval) now = true ↔
      0 < now - latest - interval ∧ now - latest - interval < 0x80000000 := by
  have hsub : now - (latest + interval) = now - latest - interval := by grind
  rw [isPast, since, hsub, Bool.and_eq_true, decide_eq_true_eq, decide_eq_true_eq]

/-- At the time that the deadline was counted from, it has passed exactly if the interval is more than
half of the clock's range. -/
theorem isPast_add_self_iff {now interval : Millis} :
    isPast (now + interval) now = true ↔ 0x80000000 < interval := by
  have hsub : now - now - interval = 0 - interval := by grind
  have hbound := interval.toNat_lt
  rw [isPast_add_iff, hsub]
  simp only [UInt32.lt_iff_toNat_lt, UInt32.toNat_sub, UInt32.reduceToNat]
  omega

/-- When the deadline has passed, so has an interval of at most half of the clock's range. -/
theorem le_since_of_isPast {latest interval now : Millis} (hinterval : interval ≤ 0x80000000)
    (hpast : isPast (latest + interval) now = true) : interval ≤ since latest now := by
  obtain ⟨hpos, hlt⟩ := isPast_add_iff.1 hpast
  rw [UInt32.lt_iff_toNat_lt, UInt32.toNat_sub] at hpos hlt
  rw [UInt32.le_iff_toNat_le] at hinterval ⊢
  have hbound := (now - latest).toNat_lt
  change 0 < _ at hpos
  change _ < 2 ^ 31 at hlt
  change _ ≤ 2 ^ 31 at hinterval
  change _ ≤ (now - latest).toNat
  omega

end Millis

/-- An interval is as good as any other, unless it is zero. -/
theorem Settings.validate_statsInterval {K : Type} [Scalar K] {s : Settings K}
    (h : s.validate = .ok ()) {interval : Millis} (hne : interval ≠ 0) :
    ({ s with statsInterval := interval } : Settings K).validate = .ok () := by
  have hvalid := validate_eq_ok_iff.1 h
  exact validate_eq_ok_iff.2 { hvalid with statsInterval_ne_zero := hne }

/-- Latching turns to the selected pair. -/
@[simp] theorem Watched.latch_selection {K : Type} [Scalar K] (w : Watched K) (s : Selection) :
    (w.latch s).selection = s := by
  rw [latch]
  split
  · rfl
  · rename_i hanchor
    split
    · rfl
    · rename_i hremote
      exact congr (congrArg Selection.mk (not_not.1 hanchor)) (not_not.1 hremote)

namespace Diagnostics

variable {K : Type}

/-! ## Operations -/

/-- What can be done with diagnostics. -/
inductive Operation (K : Type) where
  | count (e : Event)
  | watch (s : Selection)
  | update (now : Millis)
  | recordClockRatio (anchor : AnchorId) (ratio : K)
  | recordFlight (anchor remote : AnchorId) (flight : Ticks)
  | recordDistanceDiff (first second : AnchorId) (distanceDiff : K)

variable [Scalar K]

/-- The diagnostics after an operation. -/
def perform (d : Diagnostics K) : Operation K → Diagnostics K
  | .count e => d.count e
  | .watch s => d.watch s
  | .update now => d.update now
  | .recordClockRatio anchor ratio => d.recordClockRatio anchor ratio
  | .recordFlight anchor remote flight => d.recordFlight anchor remote flight
  | .recordDistanceDiff first second distanceDiff =>
    d.recordDistanceDiff first second distanceDiff

/-- The diagnostics after some operations. -/
def performAll (d : Diagnostics K) (ops : List (Operation K)) : Diagnostics K :=
  ops.foldl perform d

@[simp] theorem performAll_nil (d : Diagnostics K) : d.performAll [] = d := rfl

@[simp] theorem performAll_cons (d : Diagnostics K) (op : Operation K) (ops : List (Operation K)) :
    d.performAll (op :: ops) = (d.perform op).performAll ops := rfl

@[simp] theorem performAll_append (d : Diagnostics K) (ops ops' : List (Operation K)) :
    d.performAll (ops ++ ops') = (d.performAll ops).performAll ops' :=
  List.foldl_append

/-- The event that an operation counts. The clock of an anchor counts while it is watched. -/
def event? (d : Diagnostics K) : Operation K → Option Event
  | .count e => some e
  | .recordClockRatio anchor _ =>
    if anchor = d.watched.selection.anchor then some .clockConfirmed else none
  | _ => none

/-- Only an update touches the timers. Any other operation counts an event, or leaves the counters
alone. -/
theorem perform_timers (d : Diagnostics K) {op : Operation K} (hop : ∀ now, op ≠ .update now) :
    (d.perform op).interval = d.interval ∧ (d.perform op).deadline = d.deadline ∧
      (d.perform op).counters = match d.event? op with
        | some e => d.counters.modify e RateCounter.event
        | none => d.counters := by
  cases op with
  | count e => exact ⟨rfl, rfl, rfl⟩
  | watch s => exact ⟨rfl, rfl, rfl⟩
  | update now => exact absurd rfl (hop now)
  | recordClockRatio anchor ratio =>
      rw [perform, recordClockRatio, event?]
      split <;> exact ⟨rfl, rfl, rfl⟩
  | recordFlight anchor remote flight =>
      rw [perform, recordFlight]
      split <;> exact ⟨rfl, rfl, rfl⟩
  | recordDistanceDiff first second distanceDiff =>
      rw [perform, recordDistanceDiff]
      split
      · exact ⟨rfl, rfl, rfl⟩
      · split <;> exact ⟨rfl, rfl, rfl⟩

/-! ## Counters and deadline -/

/-- The counters have the interval of the diagnostics, and were last refreshed at the same time. -/
def Together (d : Diagnostics K) (last : Millis) : Prop :=
  ∀ e, (d.counters.get e).interval = d.interval ∧ (d.counters.get e).latest = last

/-- The counters were refreshed together, and the deadline is one interval later. -/
structure InStep (d : Diagnostics K) (last : Millis) : Prop where
  together : d.Together last
  deadline : d.deadline = last + d.interval

/-- The diagnostics after an interval that ends at `now`: the selected pair is latched, and every
counter is refreshed. -/
def closed (d : Diagnostics K) (now : Millis) : Diagnostics K :=
  { d with
    watched := d.watched.latch d.selected
    counters := d.counters.map (·.refreshed now)
    deadline := now + d.interval }

/-- An update at this time refreshes the counters. -/
def refreshes (d : Diagnostics K) (now : Millis) : Bool :=
  Millis.isPast d.deadline now && d.counters.toList.all (·.isDue now)

theorem inStep_start (interval now : Millis) :
    (Diagnostics.start (K := K) interval now).InStep now where
  together e := by
    rw [start, Tally.get_replicate]
    exact ⟨rfl, rfl⟩
  deadline := rfl

variable {d : Diagnostics K} {last : Millis}

omit [Scalar K] in
theorem Together.isDue (h : d.Together last) (now : Millis) (e : Event) :
    (d.counters.get e).isDue now = decide (d.interval ≤ Millis.since last now) := by
  rw [RateCounter.isDue, (h e).1, (h e).2]

omit [Scalar K] in
/-- The counters are due together. -/
theorem Together.refreshes_eq (h : d.Together last) (now : Millis) :
    d.refreshes now =
      (Millis.isPast d.deadline now && decide (d.interval ≤ Millis.since last now)) := by
  have hevents : d.counters.toList = [d.counters.get .packetReceived, d.counters.get .sent,
    d.counters.get .clockConfirmed, d.counters.get .known, d.counters.get .entered,
    d.counters.get .reliable, d.counters.get .paired] := rfl
  rw [refreshes, hevents]
  simp [h.isDue]

/-- An update refreshes all counters or none. -/
theorem Together.counters_update (h : d.Together last) (now : Millis) :
    (d.update now).counters =
      if d.refreshes now then d.counters.map (·.refreshed now) else d.counters := by
  have hcounters : (d.counters.map fun c => (c.update now).2) =
      if d.interval ≤ Millis.since last now then d.counters.map (·.refreshed now)
      else d.counters := by
    apply Tally.ext_get
    intro e
    rw [Tally.get_map, RateCounter.update_snd, h.isDue]
    by_cases hdue : d.interval ≤ Millis.since last now <;> simp [hdue]
  rw [h.refreshes_eq, update]
  cases Millis.isPast d.deadline now <;> simp [hcounters]

/-- Past the deadline, but before any counter is due, the pair is latched all the same. -/
theorem Together.update_of_not_due (h : d.Together last) {now : Millis}
    (hpast : Millis.isPast d.deadline now = true) (hdue : ¬ d.interval ≤ Millis.since last now) :
    d.update now =
      { d with watched := d.watched.latch d.selected, deadline := now + d.interval } := by
  have hcounters := h.counters_update now
  rw [h.refreshes_eq, hpast, decide_eq_false hdue, Diagnostics.update, if_pos hpast] at hcounters
  rw [Diagnostics.update, if_pos hpast]
  exact congrArg (fun counters => { d with
    watched := d.watched.latch d.selected, counters, deadline := now + d.interval }) hcounters

theorem interval_perform (d : Diagnostics K) (op : Operation K) :
    (d.perform op).interval = d.interval := by
  by_cases hupdate : ∃ now, op = .update now
  · obtain ⟨now, rfl⟩ := hupdate
    rw [perform, update]
    split <;> rfl
  · exact (d.perform_timers fun now hop => hupdate ⟨now, hop⟩).1

/-- What an operation other than an update leaves of the counters' timers. -/
theorem Together.perform_of_ne_update (h : d.Together last) {op : Operation K}
    (hop : ∀ now, op ≠ .update now) : (d.perform op).Together last := by
  obtain ⟨hinterval, -, hcounters⟩ := d.perform_timers hop
  intro other
  rw [hinterval, hcounters]
  split
  · rename_i e _
    by_cases hsame : other = e
    · subst hsame
      rw [Tally.get_modify_self]
      exact h other
    · rw [Tally.get_modify_of_ne _ _ hsame]
      exact h other
  · exact h other

theorem Together.update (h : d.Together last) (now : Millis) :
    (d.update now).Together (if d.refreshes now then now else last) := by
  have hinterval : (d.update now).interval = d.interval := d.interval_perform (.update now)
  intro e
  rw [hinterval, h.counters_update]
  split
  · rw [Tally.get_map]
    exact ⟨(h e).1, rfl⟩
  · exact h e

/-- Whatever happens, the counters stay together. -/
theorem Together.perform (h : d.Together last) (op : Operation K) :
    ∃ last', (d.perform op).Together last' := by
  by_cases hupdate : ∃ now, op = .update now
  · obtain ⟨now, rfl⟩ := hupdate
    exact ⟨_, h.update now⟩
  · exact ⟨last, h.perform_of_ne_update fun now hop => hupdate ⟨now, hop⟩⟩

theorem Together.performAll (h : d.Together last) (ops : List (Operation K)) :
    ∃ last', (d.performAll ops).Together last' := by
  induction ops generalizing d last with
  | nil => exact ⟨last, h⟩
  | cons op ops ih =>
      obtain ⟨next, hnext⟩ := h.perform op
      exact ih hnext

/-- With intervals of at most half of the clock's range, an update that finds the deadline passed
closes the interval for all counters, and any other one changes nothing. -/
theorem InStep.update_eq (h : d.InStep last) (hinterval : d.interval ≤ 0x80000000) (now : Millis) :
    d.update now = if Millis.isPast d.deadline now then d.closed now else d := by
  have hcounters := h.together.counters_update now
  rw [Diagnostics.update] at hcounters ⊢
  split
  · rename_i hpast
    have hrefreshes : d.refreshes now = true := by
      rw [h.together.refreshes_eq, hpast, Bool.true_and, decide_eq_true_eq]
      rw [h.deadline] at hpast
      exact Millis.le_since_of_isPast hinterval hpast
    rw [if_pos hpast, if_pos hrefreshes] at hcounters
    rw [closed, ← hcounters]
  · rfl

theorem InStep.perform_of_ne_update (h : d.InStep last) {op : Operation K}
    (hop : ∀ now, op ≠ .update now) : (d.perform op).InStep last := by
  obtain ⟨hinterval, hdeadline, -⟩ := d.perform_timers hop
  refine ⟨h.together.perform_of_ne_update hop, ?_⟩
  rw [hdeadline, hinterval, h.deadline]

theorem InStep.perform (h : d.InStep last) (hinterval : d.interval ≤ 0x80000000)
    (op : Operation K) : ∃ last', (d.perform op).InStep last' := by
  by_cases hupdate : ∃ now, op = .update now
  · obtain ⟨now, rfl⟩ := hupdate
    rw [Diagnostics.perform, h.update_eq hinterval]
    split
    · refine ⟨now, fun e => ?_, rfl⟩
      rw [closed, Tally.get_map]
      exact ⟨(h.together e).1, rfl⟩
    · exact ⟨last, h⟩
  · exact ⟨last, h.perform_of_ne_update fun now hop => hupdate ⟨now, hop⟩⟩

theorem interval_performAll (d : Diagnostics K) (ops : List (Operation K)) :
    (d.performAll ops).interval = d.interval := by
  induction ops generalizing d with
  | nil => rfl
  | cons op ops ih => rw [performAll_cons, ih, interval_perform]

theorem InStep.performAll (h : d.InStep last) (hinterval : d.interval ≤ 0x80000000)
    (ops : List (Operation K)) : ∃ last', (d.performAll ops).InStep last' := by
  induction ops generalizing d last with
  | nil => exact ⟨last, h⟩
  | cons op ops ih =>
      obtain ⟨next, hnext⟩ := h.perform hinterval op
      exact ih hnext (by rwa [interval_perform])

/-! ## Any sequence of operations -/

/-- With intervals of at most half of the clock's range, and whatever is done to diagnostics in
whatever order, the counters were last refreshed at one and the same time, and the deadline is one
interval after it. An update changes nothing, or it latches the selected pair and refreshes all
counters. It does the latter exactly if the clock has gone past the deadline, by less than half of
its range.

A longer interval is valid as well. But then an update right after the start finds the deadline
passed, and latches the selected pair without refreshing a counter. -/
theorem intervals_in_step (interval start : Millis) :
    (interval ≤ 0x80000000 → ∀ ops : List (Operation K),
      let d := (Diagnostics.start interval start).performAll ops
      ∃ last, (∀ e, (d.counters.get e).latest = last) ∧ d.deadline = last + interval ∧
        ∀ now, if 0 < now - last - interval ∧ now - last - interval < 0x80000000 then
            d.update now = d.closed now ∧ d.update now ≠ d
          else d.update now = d) ∧
    (0x80000000 < interval →
      (∀ s : Settings K, s.validate = .ok () →
        ({ s with statsInterval := interval } : Settings K).validate = .ok ()) ∧
      ∀ selection : Selection,
        let d := (Diagnostics.start (K := K) interval start).watch selection
        Millis.isPast d.deadline start = true ∧
          d.update start = { d with watched := d.watched.latch selection } ∧
          (d.watched.latch selection).selection = selection) := by
  constructor
  · intro hinterval ops
    obtain ⟨last, hinStep⟩ := (inStep_start (K := K) interval start).performAll hinterval ops
    have hsame : ((Diagnostics.start (K := K) interval start).performAll ops).interval = interval :=
      interval_performAll _ ops
    dsimp only
    generalize (Diagnostics.start (K := K) interval start).performAll ops = d at hinStep hsame ⊢
    subst hsame
    refine ⟨last, fun e => (hinStep.together e).2, hinStep.deadline, ?_⟩
    intro now
    rw [hinStep.update_eq hinterval, hinStep.deadline]
    simp only [← Millis.isPast_add_iff]
    split
    · rename_i hpast
      refine ⟨rfl, fun hclosed => ?_⟩
      have hlatest := congrArg (fun d => (d.counters.get .packetReceived).latest) hclosed
      rw [closed, Tally.get_map, (hinStep.together _).2] at hlatest
      obtain rfl : now = last := hlatest
      rw [Millis.isPast_add_self_iff] at hpast
      exact UInt32.not_lt.2 hinterval hpast
    · rfl
  · intro hinterval
    refine ⟨fun s hvalid => Settings.validate_statsInterval hvalid ?_, fun selection => ?_⟩
    · rintro rfl
      exact absurd hinterval (by decide)
    · have hpast : Millis.isPast (start + interval) start = true :=
        Millis.isPast_add_self_iff.2 hinterval
      have hop : ∀ now, Operation.watch (K := K) selection ≠ .update now := nofun
      have hwatch := (inStep_start (K := K) interval start).perform_of_ne_update hop
      refine ⟨hpast, ?_, Watched.latch_selection ..⟩
      have hnotDue : ¬ interval ≤ Millis.since start start := by
        rw [Millis.since_self, UInt32.not_le]
        exact UInt32.lt_trans (by decide) hinterval
      exact hwatch.together.update_of_not_due hpast hnotDue

/-- A packet is counted and a pair selected shortly before the clock starts over. The clock is set
back, and runs on to the deadline and past it. -/
def wrapOperations : List (Operation Float) :=
  [.count .packetReceived, .watch ⟨⟨3⟩, ⟨4⟩⟩, .update 4294967000, .update 399, .update 400,
    .count .known]

/-- The interval that these operations close ends at 400. One that is longer by a millisecond than
half of the clock's range does not keep the timers in step. -/
theorem intervals_in_step_wrapOperations :
    (let d := (Diagnostics.start 500 4294967195).performAll wrapOperations;
      (∀ e, (d.counters.get e).latest = 400) ∧ d.deadline = 900 ∧ d.update 900 = d ∧
        d.update 901 = d.closed 901 ∧ d.update 901 ≠ d) ∧
      let d := (Diagnostics.start (K := Float) 2147483649 7).watch ⟨⟨3⟩, ⟨4⟩⟩;
      (d.update 7).watched.selection = ⟨⟨3⟩, ⟨4⟩⟩ ∧ (d.update 7).counters = d.counters := by
  constructor
  · obtain ⟨last, hlast, hdeadline, hupdate⟩ :=
      (intervals_in_step 500 4294967195).1 (by decide) wrapOperations
    have hclosed : (((Diagnostics.start 500 4294967195).performAll wrapOperations).counters.get
        .known).latest = 400 := by decide
    obtain rfl : last = 400 := (hlast .known).symm.trans hclosed
    exact ⟨hlast, hdeadline, hupdate 900, hupdate 901⟩
  · obtain ⟨-, hwatch⟩ := (intervals_in_step (K := Float) 2147483649 7).2 (by decide)
    obtain ⟨-, hupdate, hselection⟩ := hwatch ⟨⟨3⟩, ⟨4⟩⟩
    dsimp only at hupdate ⊢
    rw [hupdate]
    exact ⟨hselection, rfl⟩

end Diagnostics

end Ranging

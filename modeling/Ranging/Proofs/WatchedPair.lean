import Mathlib.Data.List.DropRight
import Ranging.Proofs.Binary64
import Ranging.Proofs.Calls
import Ranging.Proofs.Emission

/-!
# What the watched pair shows

The diagnostics watch one pair of anchors. A selection is latched when a packet closes an interval,
and what belonged to the old pair is cleared then; a packet closes an interval before anything else is
done with it, so its own values are already those of the new pair. `Summary` is what this comes to
over a run: each value is the last one that the run brought since the pair, or for the clock ratio the
watched anchor, was last another one.

Where the two anchors of a pair are the same there is no time of flight, since what an anchor reports
about itself is ignored.
-/

namespace Ranging

variable {K : Type}

theorem getLastD_append {α : Type} (xs ys : List α) (a : α) :
    (xs ++ ys).getLastD a = ys.getLastD (xs.getLastD a) := by
  induction xs generalizing a with
  | nil => rfl
  | cons x xs ih => rw [List.cons_append, List.getLastD_cons, ih, List.getLastD_cons]

theorem getLastD_filterMap_cons {α β : Type} (f : α → Option β) (x : α) (xs : List α) (b : β) :
    ((x :: xs).filterMap f).getLastD b = (xs.filterMap f).getLastD ((f x).getD b) := by
  rw [List.filterMap_cons]
  cases f x with
  | none => rfl
  | some b' => exact List.getLastD_cons

/-! ## What operations record -/

/-- A distance difference of a selected pair, turned to be to the remote minus to the anchor. -/
def Selection.difference? [Scalar K] (s : Selection) (first second : AnchorId)
    (distanceDiff : K) : Option K :=
  if second = s.anchor ∧ first = s.remote then some (-distanceDiff)
  else if first = s.anchor ∧ second = s.remote then some distanceDiff
  else none

namespace Diagnostics

namespace Operation

/-- The ratio that is recorded for an anchor. -/
def ratio? (anchor : AnchorId) : Operation K → Option K
  | .recordClockRatio sender ratio => if sender = anchor then some ratio else none
  | _ => none

/-- The time of flight that is recorded for a pair. -/
def flight? (s : Selection) : Operation K → Option Ticks
  | .recordFlight anchor remote flight =>
    if anchor = s.anchor ∧ remote = s.remote then some flight else none
  | _ => none

/-- The distance difference that is recorded for a pair. -/
def difference? [Scalar K] (s : Selection) : Operation K → Option K
  | .recordDistanceDiff first second distanceDiff => s.difference? first second distanceDiff
  | _ => none

/-- The pair that is selected. -/
def selected? : Operation K → Option Selection
  | .watch s => some s
  | _ => none

end Operation

variable [Scalar K]

/-- A measurement and its reverse are recorded alike. -/
theorem recordDistanceDiff_reversed (d : Diagnostics K) (hneg : ∀ x : K, - -x = x)
    {m : Measurement K} (hne : m.first ≠ m.second) :
    d.recordDistanceDiff m.reversed.first m.reversed.second m.reversed.distanceDiff =
      d.recordDistanceDiff m.first m.second m.distanceDiff := by
  rw [recordDistanceDiff, recordDistanceDiff, Measurement.reversed]
  by_cases hforward : m.first = d.watched.selection.anchor ∧ m.second = d.watched.selection.remote
  · obtain ⟨hanchor, hremote⟩ := hforward
    have hother : m.second ≠ d.watched.selection.anchor := hanchor ▸ hne.symm
    simp [hanchor, hremote, hneg, hremote ▸ hother]
  · rw [if_neg hforward, if_neg hforward]

/-- Between two updates an operation leaves the pair as it is, and records what there is to record. -/
theorem watched_perform (d : Diagnostics K) {op : Operation K} (hop : ∀ now, op ≠ .update now) :
    (d.perform op).watched = {
      selection := d.watched.selection
      clockRatio := (op.ratio? d.watched.selection.anchor).getD d.watched.clockRatio
      flight := (op.flight? d.watched.selection).getD d.watched.flight
      distanceDiff := (op.difference? d.watched.selection).getD d.watched.distanceDiff } := by
  cases op with
  | count e => rfl
  | watch s => rfl
  | update now => exact absurd rfl (hop now)
  | recordClockRatio anchor ratio =>
      rw [perform, recordClockRatio, Operation.ratio?]
      split <;> rfl
  | recordFlight anchor remote flight =>
      rw [perform, recordFlight, Operation.flight?]
      split <;> rfl
  | recordDistanceDiff first second distanceDiff =>
      rw [perform, recordDistanceDiff, Operation.difference?, Selection.difference?]
      split
      · rfl
      · split <;> rfl

/-- Of what several operations record, the last counts. -/
theorem watched_performAll (d : Diagnostics K) {ops : List (Operation K)}
    (hops : ∀ op ∈ ops, ∀ now, op ≠ .update now) :
    (d.performAll ops).watched = {
      selection := d.watched.selection
      clockRatio := (ops.filterMap (Operation.ratio? d.watched.selection.anchor)).getLastD
        d.watched.clockRatio
      flight := (ops.filterMap (Operation.flight? d.watched.selection)).getLastD d.watched.flight
      distanceDiff := (ops.filterMap (Operation.difference? d.watched.selection)).getLastD
        d.watched.distanceDiff } := by
  induction ops generalizing d with
  | nil => rfl
  | cons op ops ih =>
      obtain ⟨hop, hops⟩ := List.forall_mem_cons.1 hops
      rw [performAll_cons, ih (d.perform op) hops, watched_perform d hop]
      simp only [getLastD_filterMap_cons]

theorem deadline_performAll (d : Diagnostics K) {ops : List (Operation K)}
    (hops : ∀ op ∈ ops, ∀ now, op ≠ .update now) : (d.performAll ops).deadline = d.deadline := by
  induction ops generalizing d with
  | nil => rfl
  | cons op ops ih =>
      obtain ⟨hop, hops⟩ := List.forall_mem_cons.1 hops
      rw [performAll_cons, ih (d.perform op) hops, (perform_timers d hop).2.1]

theorem selected_perform (d : Diagnostics K) (op : Operation K) :
    (d.perform op).selected = op.selected?.getD d.selected := by
  cases op with
  | count e => rfl
  | watch s => rfl
  | update now => exact (apply_ite Diagnostics.selected ..).trans (ite_self _)
  | recordClockRatio anchor ratio => exact (apply_ite Diagnostics.selected ..).trans (ite_self _)
  | recordFlight anchor remote flight =>
      exact (apply_ite Diagnostics.selected ..).trans (ite_self _)
  | recordDistanceDiff first second distanceDiff =>
      rw [perform, recordDistanceDiff]
      split
      · rfl
      · split <;> rfl

theorem selected_performAll (d : Diagnostics K) (ops : List (Operation K)) :
    (d.performAll ops).selected = (ops.filterMap Operation.selected?).getLastD d.selected := by
  induction ops generalizing d with
  | nil => rfl
  | cons op ops ih => rw [performAll_cons, ih, selected_perform, getLastD_filterMap_cons]

end Diagnostics

namespace Watched

variable [Scalar K]

/-- The clock ratio belongs to the anchor. -/
theorem latch_clockRatio (w : Watched K) (s : Selection) :
    (w.latch s).clockRatio = if s.anchor = w.selection.anchor then w.clockRatio else 0.0 := by
  rw [latch]
  by_cases hanchor : w.selection.anchor = s.anchor
  · by_cases hremote : w.selection.remote = s.remote <;> simp [hanchor, hremote]
  · simp [hanchor, Ne.symm hanchor, fresh]

/-- Everything else belongs to the pair. -/
theorem latch_of_pair (w : Watched K) (s : Selection) :
    (w.latch s).flight = (if s = w.selection then w.flight else 0) ∧
      (w.latch s).distanceDiff = if s = w.selection then w.distanceDiff else 0.0 := by
  obtain ⟨⟨anchor, remote⟩, clockRatio, flight, distanceDiff⟩ := w
  obtain ⟨anchor', remote'⟩ := s
  rw [latch]
  by_cases hanchor : anchor = anchor'
  · by_cases hremote : remote = remote'
    · simp [hanchor, hremote]
    · simp [hanchor, hremote, Ne.symm hremote, fresh]
  · simp [hanchor, Ne.symm hanchor, fresh]

end Watched

namespace Receiver

variable [Scalar K]

/-! ## One packet -/

/-- The watched pair once a packet has closed an interval, or not. -/
def latched (r : Receiver K) (a : Arrival K) : Watched K :=
  if Millis.isPast r.diagnostics.deadline a.now then
    r.diagnostics.watched.latch r.diagnostics.selected
  else r.diagnostics.watched

/-- What a packet does to the diagnostics after that. -/
def records (r : Receiver K) (a : Arrival K) : List (Diagnostics.Operation K) :=
  [Diagnostics.Operation.count (if r.table.contains a.source then .known else .entered)]
  ++ (a.flights.map fun e => .recordFlight a.source e.key e.value)
  ++ (if r.reliable a then
      [.recordClockRatio a.source (r.prepared a).clock.ratio, .count .reliable] else [])
  ++ (if (r.partner? a).isSome then [.count .paired] else [])
  ++ (match r.measurement? a with
    | some m => [.count .sent, .recordDistanceDiff m.first m.second m.distanceDiff]
    | none => [])

/-- A packet closes an interval, or not, before anything is recorded. -/
theorem after_diagnostics_eq (r : Receiver K) (a : Arrival K) :
    (r.after a).diagnostics =
      ((r.diagnostics.count .packetReceived).update a.now).performAll (r.records a) :=
  after_diagnostics r a

theorem ne_update_of_mem_records {r : Receiver K} {a : Arrival K}
    {op : Diagnostics.Operation K} (hop : op ∈ r.records a) (now : Millis) : op ≠ .update now := by
  rintro rfl
  revert hop
  rw [records]
  cases r.reliable a <;> cases (r.partner? a).isSome <;> cases r.measurement? a <;> simp

/-- What can be read off the operations that record, and not off those that count. -/
theorem filterMap_records {α : Type} {f : Diagnostics.Operation K → Option α}
    (hcount : ∀ e, f (.count e) = none) (r : Receiver K) (a : Arrival K) :
    (r.records a).filterMap f =
      (a.flights.filterMap fun e => f (.recordFlight a.source e.key e.value))
      ++ (if r.reliable a then
          (f (.recordClockRatio a.source (r.prepared a).clock.ratio)).toList else [])
      ++ ((r.measurement? a).bind fun m =>
          f (.recordDistanceDiff m.first m.second m.distanceDiff)).toList := by
  have hone (op : Diagnostics.Operation K) : [op].filterMap f = (f op).toList := by
    rw [List.filterMap_cons]
    cases f op <;> rfl
  have hfirst (e : Event) (op : Diagnostics.Operation K) :
      [.count e, op].filterMap f = (f op).toList := by
    rw [List.filterMap_cons, hcount, hone]
  have hsecond (e : Event) (op : Diagnostics.Operation K) :
      [op, .count e].filterMap f = (f op).toList := by
    rw [← List.singleton_append, List.filterMap_append, hone, hone, hcount, Option.toList_none,
      List.append_nil]
  have hcounted (e : Event) : [.count e].filterMap f = [] := by
    rw [hone, hcount, Option.toList_none]
  simp only [records, List.filterMap_append, List.filterMap_map, hcounted, List.nil_append]
  congr 1
  · cases r.reliable a <;> cases (r.partner? a).isSome <;> simp [hsecond, hcounted]
  · cases r.measurement? a with
    | none => rfl
    | some m => exact hfirst ..

theorem filterMap_selected?_records (r : Receiver K) (a : Arrival K) :
    (r.records a).filterMap Diagnostics.Operation.selected? = [] := by
  rw [filterMap_records fun _ => rfl]
  simp [Diagnostics.Operation.selected?]

theorem filterMap_ratio?_records (r : Receiver K) (a : Arrival K) (anchor : AnchorId) :
    (r.records a).filterMap (Diagnostics.Operation.ratio? anchor) =
      if r.reliable a = true ∧ a.source = anchor then [(r.prepared a).clock.ratio] else [] := by
  rw [filterMap_records fun _ => rfl]
  by_cases hsource : a.source = anchor <;> simp [Diagnostics.Operation.ratio?, hsource]

theorem filterMap_difference?_records (r : Receiver K) (a : Arrival K) (s : Selection) :
    (r.records a).filterMap (Diagnostics.Operation.difference? s) =
      (r.measurement? a).toList.filterMap fun m =>
        s.difference? m.first m.second m.distanceDiff := by
  rw [filterMap_records fun _ => rfl]
  cases r.measurement? a with
  | none => simp [Diagnostics.Operation.difference?]
  | some m =>
      rw [Option.bind_some, Diagnostics.Operation.difference?, Option.toList_some,
        List.filterMap_cons]
      cases s.difference? m.first m.second m.distanceDiff <;>
        simp [Diagnostics.Operation.difference?]

/-- The times of flight in the reports of a packet about an anchor. -/
def flightsOf (a : Arrival K) (neighbour : AnchorId) : List Ticks :=
  a.broadcast.reports.filterMap fun report =>
    if report.neighbour = neighbour ∧ report.flight ≠ 0 then some report.flight else none

omit [Scalar K] in
theorem filterMap_flight?_flights (a : Arrival K) (s : Selection) :
    (a.flights.filterMap fun e =>
      Diagnostics.Operation.flight? (K := K) s (.recordFlight a.source e.key e.value)) =
        if a.source = s.anchor ∧ s.anchor ≠ s.remote then flightsOf a s.remote else [] := by
  rw [Arrival.flights, Arrival.others, flightsOf, List.filterMap_filterMap, List.filterMap_filter]
  by_cases hpair : a.source = s.anchor ∧ s.anchor ≠ s.remote
  · rw [if_pos hpair]
    apply List.filterMap_congr
    intro report _
    obtain ⟨hsource, hne⟩ := hpair
    by_cases hneighbour : report.neighbour = s.remote <;> by_cases hflight : report.flight = 0 <;>
      simp [hsource, hneighbour, hflight, Ne.symm hne, Diagnostics.Operation.flight?]
  · rw [if_neg hpair, List.filterMap_eq_nil_iff]
    intro report _
    by_cases hsource : a.source = s.anchor
    · have hsame : s.anchor = s.remote := not_not.1 fun hne => hpair ⟨hsource, hne⟩
      by_cases hneighbour : report.neighbour = s.remote <;>
        by_cases hflight : report.flight = 0 <;>
        simp [hsource, hsame, hneighbour, hflight, Diagnostics.Operation.flight?]
    · by_cases hneighbour : report.neighbour = a.source <;>
        by_cases hflight : report.flight = 0 <;>
        simp [hsource, hneighbour, hflight, Diagnostics.Operation.flight?]

theorem filterMap_flight?_records (r : Receiver K) (a : Arrival K) (s : Selection) :
    (r.records a).filterMap (Diagnostics.Operation.flight? s) =
      if a.source = s.anchor ∧ s.anchor ≠ s.remote then flightsOf a s.remote else [] := by
  rw [filterMap_records fun _ => rfl, filterMap_flight?_flights]
  simp [Diagnostics.Operation.flight?]

theorem watched_after (r : Receiver K) (a : Arrival K) :
    (r.after a).diagnostics.watched = {
      selection := (r.latched a).selection
      clockRatio := ((r.records a).filterMap
        (Diagnostics.Operation.ratio? (r.latched a).selection.anchor)).getLastD
          (r.latched a).clockRatio
      flight := ((r.records a).filterMap
        (Diagnostics.Operation.flight? (r.latched a).selection)).getLastD (r.latched a).flight
      distanceDiff := ((r.records a).filterMap
        (Diagnostics.Operation.difference? (r.latched a).selection)).getLastD
          (r.latched a).distanceDiff } := by
  have hlatched : ((r.diagnostics.count .packetReceived).update a.now).watched = r.latched a := by
    rw [Diagnostics.update, latched]
    exact apply_ite Diagnostics.watched ..
  rw [after_diagnostics_eq, Diagnostics.watched_performAll _ fun op => ne_update_of_mem_records,
    hlatched]

/-! ## Steps of a run -/

/-- A call of a run, its answer, and the receiver before and after it. -/
structure Step (K : Type) where
  before : Receiver K
  call : Call K
  answer : Answer K
  after : Receiver K

/-- The steps of a run of calls. -/
def steps (r : Receiver K) : List (Call K) → List (Step K)
  | [] => []
  | call :: calls => ⟨r, call, r.answer call, r.afterCall call⟩ :: (r.afterCall call).steps calls

theorem steps_concat (r : Receiver K) (calls : List (Call K)) (call : Call K) :
    r.steps (calls ++ [call]) = r.steps calls ++
      [⟨r.afterCalls calls, call, (r.afterCalls calls).answer call,
        (r.afterCalls calls).afterCall call⟩] := by
  induction calls generalizing r with
  | nil => rfl
  | cons c calls ih =>
      rw [List.cons_append, steps, ih]
      rfl

/-- Every step of a run is a call that the receiver serves. -/
theorem serve_of_mem_steps {r : Receiver K} (h : r.table.Sound) {calls : List (Call K)}
    {st : Step K} (hst : st ∈ r.steps calls) :
    st.before.serve st.call = .ok (st.answer, st.after) := by
  induction calls generalizing r with
  | nil => exact absurd hst List.not_mem_nil
  | cons call calls ih =>
      rcases List.mem_cons.1 hst with rfl | hrest
      · exact serve_eq h.hasSlot call
      · exact ih (sound_afterCall h call) hrest

namespace Step

/-- The pair that is watched after a step. -/
def watching (st : Step K) : Selection :=
  st.after.diagnostics.watched.selection

/-- When a step has closed an interval. -/
def closedAt? (st : Step K) : Option Millis :=
  match st.call with
  | .packet a => if Millis.isPast st.before.diagnostics.deadline a.now then some a.now else none
  | _ => none

/-- The pair that a step has selected. -/
def selected? (st : Step K) : Option Selection :=
  match st.call with
  | .watch s => some s
  | _ => none

/-- The ratio that the filter has after a packet of an anchor, if the timing was reliable. -/
def ratios (anchor : AnchorId) (st : Step K) : List K :=
  match st.call, st.answer with
  | .packet a, .reliable true =>
    if a.source = anchor then ((st.after.table.find? anchor).map (·.clock.ratio)).toList else []
  | _, _ => []

/-- The times of flight to the remote that a packet of the anchor reports. -/
def flights (s : Selection) (st : Step K) : List Ticks :=
  match st.call with
  | .packet a => if a.source = s.anchor then flightsOf a s.remote else []
  | _ => []

/-- The measurements that a step has sent. -/
def sent (st : Step K) : List (Measurement K) :=
  st.after.outbox.drop st.before.outbox.length

/-- The distance differences of a pair that a step has sent. -/
def differences (s : Selection) (st : Step K) : List K :=
  st.sent.filterMap fun m => s.difference? m.first m.second m.distanceDiff

end Step

/-- What diagnostics show after a run that started at `start`. -/
structure Summary (steps : List (Step K)) (interval start : Millis) (d : Diagnostics K) : Prop where
  /-- An interval is counted from the time at which the last one was closed. -/
  deadline : d.deadline = (steps.filterMap Step.closedAt?).getLastD start + interval
  /-- The last selection counts that was made before an interval was last closed. -/
  selection : d.watched.selection =
    ((steps.rdropWhile fun st => st.closedAt?.isNone).filterMap Step.selected?).getLastD
      ⟨⟨0⟩, ⟨1⟩⟩
  /-- The last ratio since the watched anchor was last another one. -/
  clockRatio : d.watched.clockRatio =
    ((steps.rtakeWhile fun st => st.watching.anchor = d.watched.selection.anchor).flatMap
      (Step.ratios d.watched.selection.anchor)).getLastD 0.0
  /-- The last time of flight since the watched pair was last another one, unless it is to the anchor
  itself. -/
  flight : d.watched.flight =
    if d.watched.selection.anchor = d.watched.selection.remote then 0
    else ((steps.rtakeWhile fun st => st.watching = d.watched.selection).flatMap
      (Step.flights d.watched.selection)).getLastD 0
  /-- The last distance difference since the watched pair was last another one. -/
  distanceDiff : d.watched.distanceDiff =
    ((steps.rtakeWhile fun st => st.watching = d.watched.selection).flatMap
      (Step.differences d.watched.selection)).getLastD 0.0

theorem rtakeWhile_steps_of_ne {κ : Type} [DecidableEq κ] {key : Receiver K → κ} {k : κ}
    {r : Receiver K} {calls : List (Call K)} (h : key (r.afterCalls calls) ≠ k) :
    ((r.steps calls).rtakeWhile fun st => key st.after = k) = [] := by
  induction calls using List.reverseRecOn with
  | nil => rfl
  | append_singleton calls call _ =>
      rw [afterCalls_append] at h
      rw [steps_concat]
      exact List.rtakeWhile_concat_neg _ _ _ (by simpa using h)

/-- A value that belongs to a key and is cleared when the key changes, and of which every step may
bring new ones, is the last one that the run has brought since the key was last another one. -/
theorem getLastD_since {κ β : Type} [DecidableEq κ] (key : Receiver K → κ) (value : Receiver K → β)
    (brings : κ → Step K → List β) {cleared : β}
    (hstep : ∀ r : Receiver K, r.table.Sound → ∀ call, value (r.afterCall call) =
      (brings (key (r.afterCall call)) ⟨r, call, r.answer call, r.afterCall call⟩).getLastD
        (if key (r.afterCall call) = key r then value r else cleared))
    {r : Receiver K} (hsound : r.table.Sound) (hstart : value r = cleared) (calls : List (Call K)) :
    value (r.afterCalls calls) =
      (((r.steps calls).rtakeWhile fun st => key st.after = key (r.afterCalls calls)).flatMap
        (brings (key (r.afterCalls calls)))).getLastD cleared := by
  induction calls using List.reverseRecOn with
  | nil => exact hstart
  | append_singleton calls call ih =>
      have hrun : r.afterCalls (calls ++ [call]) = (r.afterCalls calls).afterCall call :=
        afterCalls_append ..
      rw [hrun, steps_concat, List.rtakeWhile_concat, if_pos (decide_eq_true rfl),
        List.flatMap_append, getLastD_append, List.flatMap_singleton,
        hstep _ (sound_afterCalls hsound calls)]
      congr 1
      by_cases hkey : key ((r.afterCalls calls).afterCall call) = key (r.afterCalls calls)
      · rw [if_pos hkey, hkey, ih]
      · rw [if_neg hkey, rtakeWhile_steps_of_ne (Ne.symm hkey)]
        rfl

/-! ## What one step does to the values -/

theorem latched_clockRatio (r : Receiver K) (a : Arrival K) :
    (r.latched a).clockRatio =
      if (r.latched a).selection.anchor = r.diagnostics.watched.selection.anchor
      then r.diagnostics.watched.clockRatio else 0.0 := by
  rw [latched]
  split
  · rw [Watched.latch_clockRatio, Watched.latch_selection]
  · rw [if_pos rfl]

theorem latched_of_pair (r : Receiver K) (a : Arrival K) :
    (r.latched a).flight =
      (if (r.latched a).selection = r.diagnostics.watched.selection
      then r.diagnostics.watched.flight else 0) ∧
    (r.latched a).distanceDiff =
      if (r.latched a).selection = r.diagnostics.watched.selection
      then r.diagnostics.watched.distanceDiff else 0.0 := by
  rw [latched]
  split
  · rw [Watched.latch_selection]
    exact Watched.latch_of_pair ..
  · rw [if_pos rfl, if_pos rfl]
    exact ⟨rfl, rfl⟩

theorem watched_clockRatio_afterCall (r : Receiver K) (hsound : r.table.Sound) (call : Call K) :
    (r.afterCall call).diagnostics.watched.clockRatio =
      (Step.ratios (r.afterCall call).diagnostics.watched.selection.anchor
        ⟨r, call, r.answer call, r.afterCall call⟩).getLastD
        (if (r.afterCall call).diagnostics.watched.selection.anchor =
            r.diagnostics.watched.selection.anchor
        then r.diagnostics.watched.clockRatio else 0.0) := by
  cases call with
  | packet a =>
      have hratios (anchor : AnchorId) :
          Step.ratios anchor ⟨r, .packet a, r.answer (.packet a), r.after a⟩ =
            if r.reliable a = true ∧ a.source = anchor then [(r.prepared a).clock.ratio] else [] := by
        rw [answer]
        cases hreliable : r.reliable a with
        | false => simp [Step.ratios]
        | true =>
            by_cases hsource : a.source = anchor
            · subst hsource
              simp [Step.ratios, find?_after_self hsound.hasSlot, prepared]
            · simp [Step.ratios, hsource]
      rw [afterCall, hratios, watched_after, filterMap_ratio?_records, latched_clockRatio]
  | _ => exact (if_pos rfl).symm

theorem watched_flight_afterCall (r : Receiver K) (call : Call K) :
    (r.afterCall call).diagnostics.watched.flight =
      (if (r.afterCall call).diagnostics.watched.selection.anchor =
          (r.afterCall call).diagnostics.watched.selection.remote then []
      else Step.flights (r.afterCall call).diagnostics.watched.selection
        ⟨r, call, r.answer call, r.afterCall call⟩).getLastD
        (if (r.afterCall call).diagnostics.watched.selection = r.diagnostics.watched.selection
        then r.diagnostics.watched.flight else 0) := by
  cases call with
  | packet a =>
      rw [afterCall, watched_after, filterMap_flight?_records, (latched_of_pair r a).1]
      simp only [Step.flights]
      by_cases hsame : (r.latched a).selection.anchor = (r.latched a).selection.remote <;>
        simp [hsame]
  | _ =>
      simp only [Step.flights, ite_self]
      exact (if_pos rfl).symm

theorem watched_distanceDiff_afterCall (r : Receiver K) (call : Call K) :
    (r.afterCall call).diagnostics.watched.distanceDiff =
      (Step.differences (r.afterCall call).diagnostics.watched.selection
        ⟨r, call, r.answer call, r.afterCall call⟩).getLastD
        (if (r.afterCall call).diagnostics.watched.selection = r.diagnostics.watched.selection
        then r.diagnostics.watched.distanceDiff else 0.0) := by
  have hsent (call : Call K) (hcall : (r.afterCall call).outbox = r.outbox) (s : Selection) :
      Step.differences s ⟨r, call, r.answer call, r.afterCall call⟩ = [] := by
    rw [Step.differences, Step.sent, hcall, List.drop_length]
    rfl
  cases call with
  | packet a =>
      have hdifferences (s : Selection) :
          Step.differences s ⟨r, .packet a, r.answer (.packet a), r.after a⟩ =
            (r.measurement? a).toList.filterMap fun m =>
              s.difference? m.first m.second m.distanceDiff := by
        rw [Step.differences, Step.sent, after_outbox, List.drop_left]
      rw [afterCall, hdifferences, watched_after, filterMap_difference?_records,
        (latched_of_pair r a).2]
  | _ =>
      rw [hsent _ rfl]
      exact (if_pos rfl).symm

/-! ## What one step does to the selection -/

theorem afterCall_selected (r : Receiver K) (call : Call K) :
    (r.afterCall call).diagnostics.selected =
      (Step.selected? ⟨r, call, r.answer call, r.afterCall call⟩).getD r.diagnostics.selected := by
  rw [afterCall_diagnostics, Diagnostics.selected_performAll]
  cases call with
  | packet a =>
      -- Neither the update nor anything recorded after it selects a pair.
      have hnone : (r.operations a).filterMap Diagnostics.Operation.selected? = [] :=
        filterMap_selected?_records r a
      rw [operationsOf, hnone]
      rfl
  | _ => rfl

theorem afterCall_deadline (r : Receiver K) (call : Call K) :
    (r.afterCall call).diagnostics.deadline =
      ((Step.closedAt? ⟨r, call, r.answer call, r.afterCall call⟩).map
        (· + r.diagnostics.interval)).getD r.diagnostics.deadline := by
  cases call with
  | packet a =>
      rw [afterCall, after_diagnostics_eq,
        Diagnostics.deadline_performAll _ fun op => ne_update_of_mem_records, Diagnostics.update,
        Step.closedAt?]
      cases hpast : Millis.isPast r.diagnostics.deadline a.now <;>
        simp [Diagnostics.count, hpast]
  | _ => rfl

theorem afterCall_selection (r : Receiver K) (call : Call K) :
    (r.afterCall call).diagnostics.watched.selection =
      if (Step.closedAt? ⟨r, call, r.answer call, r.afterCall call⟩).isSome
      then r.diagnostics.selected else r.diagnostics.watched.selection := by
  cases call with
  | packet a =>
      rw [afterCall, watched_after, latched, Step.closedAt?]
      cases hpast : Millis.isPast r.diagnostics.deadline a.now <;> simp [hpast]
  | _ => rfl

/-! ## Runs -/

theorem afterCalls_interval (r : Receiver K) (calls : List (Call K)) :
    (r.afterCalls calls).diagnostics.interval = r.diagnostics.interval := by
  rw [afterCalls_diagnostics, Diagnostics.interval_performAll]

theorem afterCalls_deadline {r : Receiver K} {start : Millis}
    (hstart : r.diagnostics.deadline = start + r.diagnostics.interval) (calls : List (Call K)) :
    (r.afterCalls calls).diagnostics.deadline =
      ((r.steps calls).filterMap Step.closedAt?).getLastD start + r.diagnostics.interval := by
  induction calls using List.reverseRecOn with
  | nil => exact hstart
  | append_singleton calls call ih =>
      rw [afterCalls_append, steps_concat, List.filterMap_append, getLastD_append,
        getLastD_filterMap_cons]
      refine (afterCall_deadline ..).trans ?_
      rw [ih, afterCalls_interval]
      cases Step.closedAt? _ <;> rfl

theorem afterCalls_selected (r : Receiver K) (calls : List (Call K)) :
    (r.afterCalls calls).diagnostics.selected =
      ((r.steps calls).filterMap Step.selected?).getLastD r.diagnostics.selected := by
  induction calls using List.reverseRecOn with
  | nil => rfl
  | append_singleton calls call ih =>
      rw [afterCalls_append, steps_concat, List.filterMap_append, getLastD_append,
        getLastD_filterMap_cons, ← ih]
      exact afterCall_selected ..

theorem afterCalls_selection {r : Receiver K}
    (hstart : r.diagnostics.watched.selection = r.diagnostics.selected) (calls : List (Call K)) :
    (r.afterCalls calls).diagnostics.watched.selection =
      (((r.steps calls).rdropWhile fun st => st.closedAt?.isNone).filterMap
        Step.selected?).getLastD r.diagnostics.selected := by
  induction calls using List.reverseRecOn with
  | nil => exact hstart
  | append_singleton calls call ih =>
      rw [afterCalls_append, steps_concat]
      refine (afterCall_selection ..).trans ?_
      cases hclosed : Step.closedAt? _ with
      | none =>
          rw [List.rdropWhile_concat_pos _ _ _ (by simp [hclosed]), ← ih]
          rfl
      | some now =>
          -- The step that closes an interval is a packet, which selects nothing itself.
          have hselected : Step.selected? (K := K) ⟨r.afterCalls calls, call,
              (r.afterCalls calls).answer call, (r.afterCalls calls).afterCall call⟩ = none := by
            cases call with
            | packet a => rfl
            | _ => exact absurd hclosed (by simp [Step.closedAt?])
          rw [List.rdropWhile_concat_neg _ _ _ (by simp [hclosed]), List.filterMap_append,
            getLastD_append, getLastD_filterMap_cons, hselected, ← afterCalls_selected]
          rfl

/-- The values of the watched pair are the last ones that a run brought. -/
theorem summary_afterCalls {r : Receiver K} (hsound : r.table.Sound) {interval start : Millis}
    (hstart : r.diagnostics = .start interval start) (calls : List (Call K)) :
    Summary (r.steps calls) interval start (r.afterCalls calls).diagnostics where
  deadline := by
    have hdeadline : r.diagnostics.deadline = start + r.diagnostics.interval := by
      rw [hstart]
      rfl
    rw [afterCalls_deadline hdeadline, hstart]
    rfl
  selection := by
    rw [afterCalls_selection (by rw [hstart]; rfl), hstart]
    rfl
  clockRatio :=
    getLastD_since (·.diagnostics.watched.selection.anchor) (·.diagnostics.watched.clockRatio)
      Step.ratios watched_clockRatio_afterCall hsound (by rw [hstart]; rfl) calls
  flight := by
    have hflight := getLastD_since (·.diagnostics.watched.selection) (·.diagnostics.watched.flight)
      (fun s st => if s.anchor = s.remote then [] else Step.flights s st)
      (fun r _ => watched_flight_afterCall r) hsound (by rw [hstart]; rfl) calls
    refine hflight.trans ?_
    split
    · rw [List.flatMap_eq_nil_iff.2 fun _ _ => rfl]
      rfl
    · rfl
  distanceDiff :=
    getLastD_since (·.diagnostics.watched.selection) (·.diagnostics.watched.distanceDiff)
      Step.differences (fun r _ => watched_distanceDiff_afterCall r) hsound (by rw [hstart]; rfl) calls

/-- At every point of a run the diagnostics show the last of each value that the run brought since
the watched anchor, or pair, was last another one. It does not matter in which order the anchors of a
measurement are named. -/
theorem watched_summarises {s : Settings Float} {start : Millis} {r : Receiver Float}
    (hcreate : create s start = .ok r) (calls : List (Call Float)) :
    (∃ r', r.serveAll calls = .ok (r.answers calls, r') ∧
      (∀ st ∈ r.steps calls, st.before.serve st.call = .ok (st.answer, st.after)) ∧
      Summary (r.steps calls) s.statsInterval start r'.diagnostics) ∧
    ∀ (d : Diagnostics Float) (m : Measurement Float), m.first ≠ m.second →
      d.recordDistanceDiff m.reversed.first m.reversed.second m.reversed.distanceDiff =
        d.recordDistanceDiff m.first m.second m.distanceDiff := by
  have hsound := sound_of_create hcreate
  have hstart : r.diagnostics = .start s.statsInterval start := by
    obtain ⟨-, rfl⟩ := create_eq_ok_iff.1 hcreate
    rfl
  refine ⟨⟨r.afterCalls calls, serveAll_eq hsound calls, fun st => serve_of_mem_steps hsound,
    summary_afterCalls hsound hstart calls⟩, ?_⟩
  intro d m hne
  exact d.recordDistanceDiff_reversed Binary64.neg_neg_eq hne

/-- A pair is selected, and two anchors send what it takes for a measurement. -/
def selectedPairCalls : List (Call Float) :=
  .watch ⟨⟨1⟩, ⟨2⟩⟩ :: (pairRun ++ [pairReport]).map .packet

/-- The first packet closes an interval; the last one brings a time of flight and a distance
difference. -/
theorem watched_summarises_selectedPair : ∃ r r' : Receiver Float,
    create Settings.standard 4294966296 = .ok r ∧
    r.serveAll selectedPairCalls = .ok (r.answers selectedPairCalls, r') ∧
    Summary (r.steps selectedPairCalls) 500 4294966296 r'.diagnostics ∧
    r'.diagnostics.watched.selection = ⟨⟨1⟩, ⟨2⟩⟩ ∧ r'.diagnostics.watched.flight = 50 ∧
    ((r.steps selectedPairCalls).flatMap
      (Step.differences r'.diagnostics.watched.selection)).length = 1 ∧
    r'.diagnostics.recordDistanceDiff ⟨2⟩ ⟨1⟩ (-1.5) =
      r'.diagnostics.recordDistanceDiff ⟨1⟩ ⟨2⟩ 1.5 := by
  have hcreate := create_standard 4294966296
  obtain ⟨⟨r', hserve, -, hsummary⟩, hreversed⟩ := watched_summarises hcreate selectedPairCalls
  have hturned := hreversed r'.diagnostics ⟨⟨1⟩, ⟨2⟩, ⟨0.0, 0.0, 0.0⟩, ⟨0.0, 0.0, 0.0⟩, 1.5, 0.15⟩
    (by decide)
  have hserved := hserve
  rw [serveAll_eq (sound_of_create hcreate)] at hserved
  cases hserved
  exact ⟨_, _, hcreate, hserve, hsummary, by decide +kernel, by decide +kernel, by decide +kernel,
    hturned⟩

/-- An anchor is watched together with itself, and reports a time of flight to itself. -/
def selfReportCalls : List (Call Float) :=
  [.watch ⟨⟨5⟩, ⟨5⟩⟩, .packet ⟨⟨⟨5⟩, 1000, 1, [], none⟩, 2000, 600⟩,
    .packet ⟨⟨⟨5⟩, 6400001000, 2, [⟨⟨5⟩, 0, 0, 55⟩], none⟩, 6400002000, 700⟩]

/-- The time of flight that a watched anchor reports to itself is not shown. -/
theorem flight_ignored_selfReport : ∃ r r' : Receiver Float,
    create Settings.standard 0 = .ok r ∧
    r.serveAll selfReportCalls = .ok (r.answers selfReportCalls, r') ∧
    r'.diagnostics.watched.selection = ⟨⟨5⟩, ⟨5⟩⟩ ∧
    (((r.steps selfReportCalls).rtakeWhile fun st =>
      st.watching = r'.diagnostics.watched.selection).flatMap
        (Step.flights r'.diagnostics.watched.selection)).getLastD 0 = 55 ∧
    r'.diagnostics.watched.flight = 0 := by
  have hcreate := create_standard 0
  exact ⟨_, _, hcreate, serveAll_eq (sound_of_create hcreate) _, by decide +kernel,
    by decide +kernel, by decide +kernel⟩

end Receiver

end Ranging

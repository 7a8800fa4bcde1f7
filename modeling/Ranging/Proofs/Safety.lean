import Mathlib.Data.List.ReduceOption
import Ranging.Proofs.Checked
import Ranging.Proofs.Emission
import Ranging.Proofs.Ticks

/-!
# No condition fails

In `Ranging.Proofs.Checked` every condition of a step is tested before it. Here it is shown that
on a receiver that was created from valid settings no test fails, whatever packets it is handed and
whatever is asked of it in between. The outcome is the one that the receiver gives without tests.

What carries the proof is `Receiver.Fit`, which every call preserves:

* a table with a slot for everybody and lists with a place for every entry, so that indices are in
  range and a full list has an oldest entry,
* counters with intervals that are not empty, so that time has passed when a rate is formed,
* stored flights of at most `2 ^ 62` ticks, to which the ticks of a period can be added.

The handle of a packet's sender stays good all through the packet, since nobody enters between its
creation and its last use.
-/

namespace Ranging

open Fault

theorem Fault.checkIndex_eq {i length : Nat} (h : i < length) : checkIndex i length = .ok () :=
  if_pos h

theorem Ticks.checkedAdd_eq {s t : Ticks} (hs : s.toInt.natAbs ≤ 2 ^ 62) (hpos : 0 ≤ t.toInt)
    (hlt : t.toInt < 2 ^ 40) : s.checkedAdd t = .ok (s + t) := by
  apply if_pos
  omega

/-! ## Lists and records -/

namespace Recent

variable {α : Type}

theorem place_lt {r : Recent α} (h : r.Sound) (now : Millis) (key : AnchorId) :
    r.place now key < r.capacity := by
  have hle := h.length_le
  rw [place]
  cases hindex : r.index? key with
  | some i =>
      obtain ⟨hlt, -⟩ := List.findIdx?_eq_some_iff_getElem.1 hindex
      exact Nat.lt_of_lt_of_le hlt hle
  | none =>
      dsimp only
      split
      · assumption
      · rename_i hfull
        exact Nat.lt_of_lt_of_le (oldestIndex_lt_length h hfull now) hle

/-- A write sets its place, which may be the first free one. -/
theorem write_eq {r : Recent α} (h : r.Sound) (now : Millis) (key : AnchorId) (value : α) :
    r.write now key value =
      if r.place now key < r.entries.length then
        { r with entries := r.entries.set (r.place now key) { value, written := now, key } }
      else { r with entries := r.entries ++ [{ value, written := now, key }] } := by
  rw [write, place]
  cases hindex : r.index? key with
  | some i =>
      obtain ⟨hlt, -⟩ := List.findIdx?_eq_some_iff_getElem.1 hindex
      exact (if_pos hlt).symm
  | none =>
      by_cases hroom : r.entries.length < r.capacity
      · simp [hroom]
      · simp [hroom, oldestIndex_lt_length h hroom now]

theorem checkedWrite_eq {r : Recent α} (h : r.Sound) (now : Millis) (key : AnchorId) (value : α) :
    r.checkedWrite now key value = .ok (r.write now key value) := by
  rw [checkedWrite, checkIndex_eq (place_lt h now key), write_eq h]
  by_cases hplace : r.place now key < r.entries.length <;>
    simp [hplace, bind, Except.bind, pure, Except.pure]

end Recent

namespace Arrival

variable {K : Type}

/-- No reported time of flight is larger than `2 ^ 62` ticks, in either direction. -/
def Moderate (a : Arrival K) : Prop :=
  ∀ report ∈ a.broadcast.reports, report.flight.toInt.natAbs ≤ 2 ^ 62

instance (a : Arrival K) : Decidable a.Moderate :=
  inferInstanceAs (Decidable (∀ report ∈ a.broadcast.reports, _))

theorem Moderate.of_mem_flights {a : Arrival K} (h : a.Moderate) {e : Entry Ticks}
    (he : e ∈ a.flights) : e.value.toInt.natAbs ≤ 2 ^ 62 := by
  obtain ⟨report, hreport, hentry⟩ := List.mem_filterMap.1 he
  split at hentry
  · cases hentry
  · cases hentry
    exact h report (List.mem_of_mem_filter hreport)

end Arrival

namespace Record

variable {K : Type}

/-- The lists of a record have a place for every entry, and its flights are moderate. -/
structure Fit (ρ : Record K) : Prop where
  receptions : ρ.receptions.Sound
  flights : ρ.flights.Sound
  moderate : ∀ e ∈ ρ.flights.entries, e.value.toInt.natAbs ≤ 2 ^ 62

theorem checkedLearn_eq {ρ : Record K} (hreceptions : ρ.receptions.Sound)
    (hflights : ρ.flights.Sound) (now : Millis) (report : Report) :
    ρ.checkedLearn now report = .ok (ρ.learn now report) := by
  rw [checkedLearn, learn_eq]
  by_cases hrx : report.rxTime = 0 <;> by_cases hflight : report.flight = 0 <;>
    simp [hrx, hflight, Recent.checkedWrite_eq hreceptions, Recent.checkedWrite_eq hflights, bind,
      Except.bind, pure, Except.pure]

theorem foldlM_checkedLearn_eq {ρ : Record K} (hreceptions : ρ.receptions.Sound)
    (hflights : ρ.flights.Sound) (now : Millis) (reports : List Report) :
    reports.foldlM (·.checkedLearn now ·) ρ = .ok (reports.foldl (·.learn now ·) ρ) := by
  induction reports generalizing ρ with
  | nil => rfl
  | cons report rest ih =>
      have hreceptions' : (ρ.learn now report).receptions.Sound := by
        rw [learn_eq]
        dsimp only
        split
        · exact hreceptions
        · exact hreceptions.write ..
      have hflights' : (ρ.learn now report).flights.Sound := by
        rw [learn_eq]
        dsimp only
        split
        · exact hflights
        · exact hflights.write ..
      rw [List.foldlM_cons, checkedLearn_eq hreceptions hflights]
      exact ih hreceptions' hflights'

theorem Fit.empty [Scalar K] {receptionCapacity flightCapacity : Nat}
    (hreceptions : 0 < receptionCapacity) (hflights : 0 < flightCapacity) (id : AnchorId) :
    (Record.empty (K := K) id receptionCapacity flightCapacity).Fit :=
  ⟨.empty hreceptions, .empty hflights, nofun⟩

/-- A packet with moderate flights keeps a record fit. -/
theorem Fit.prepare [Scalar K] {ρ : Record K} (h : ρ.Fit) (f : RatioFilter K) {a : Arrival K}
    (ha : a.Moderate) : (ρ.prepare f a).Fit := by
  rw [prepare_eq]
  refine ⟨h.receptions.writeAll _, h.flights.writeAll _, ?_⟩
  intro e he
  rcases Recent.mem_or_mem_of_mem_writeAll he with hold | hnew
  · exact h.moderate e hold
  · exact ha.of_mem_flights hnew

theorem Fit.receive [Scalar K] {ρ : Record K} (h : ρ.Fit) (f : RatioFilter K) {a : Arrival K}
    (ha : a.Moderate) : (ρ.receive f a).Fit := by
  have hprepared := h.prepare f ha
  rw [prepare_eq] at hprepared
  rw [receive_eq]
  exact ⟨hprepared.receptions, hprepared.flights, hprepared.moderate⟩

/-- A flight that is found is one of those stored. -/
theorem Fit.of_flight? {ρ : Record K} (h : ρ.Fit) {windows : Windows} {now : Millis}
    {neighbour : AnchorId} {flight : Ticks}
    (hflight : ρ.flight? windows now neighbour = some flight) : flight.toInt.natAbs ≤ 2 ^ 62 := by
  obtain ⟨e, he, -, rfl⟩ := (Recent.find?_eq_some_iff_mem_live h.flights).1 hflight
  exact h.moderate e (Recent.mem_live.1 he).1

end Record

/-! ## The table -/

namespace Table

variable {K : Type} {t : Table K} {h : Handle} {ρ : Record K}

/-- The slot of a good handle is one of the table's. -/
theorem slot_lt_of_read (hsound : t.Sound) (hread : t.read h = .ok ρ) : h.slot < t.capacity := by
  obtain ⟨hlt, -⟩ := List.getElem?_eq_some_iff.1 (read_eq_ok_iff.1 hread).1
  exact Nat.lt_of_lt_of_le hlt hsound.size_le

theorem access_eq {α : Type} (hslot : h.slot < t.capacity) (x : Except StaleHandle α) :
    t.access h x = x.mapError .stale := by
  rw [access, checkIndex_eq hslot]
  rfl

theorem access_of_read {α : Type} (hsound : t.Sound) (hread : t.read h = .ok ρ)
    (x : Except StaleHandle α) : t.access h x = x.mapError .stale :=
  access_eq (slot_lt_of_read hsound hread) x

theorem checkedEnter_eq [Scalar K] (hsound : t.Sound) (id : AnchorId) (now : Millis) :
    t.checkedEnter id now = .ok (t.enter id now) := by
  have hget := records_slotFor hsound.hasSlot id now
  have hentered := hsound.entered id now
  have hcapacity : (t.entered id now).capacity = t.capacity := by rw [entered_eq]
  have hlt : t.slotFor id now < t.capacity := by
    rw [← hcapacity]
    exact Nat.lt_of_lt_of_le (List.getElem?_eq_some_iff.1 hget).1 hentered.size_le
  rw [checkedEnter, enter_eq]
  dsimp only
  rw [checkIndex_eq hlt]
  rfl

/-- Filling a buffer puts as many items in front as there is room for. -/
theorem exists_fill_eq {α : Type} (buffer items : List α) : ∃ buffer',
    fill buffer items = ((items.take buffer.length).length, buffer') ∧
      items.take buffer.length <+: buffer' ∧ buffer'.length = buffer.length :=
  ⟨_, rfl, List.prefix_append .., length_fill buffer items⟩

/-- A record of the sender may go into its slot. -/
theorem Sound.put_sender [Scalar K] (hsound : t.Sound) {id : AnchorId} {now : Millis}
    (hid : (t.sender id).id = ρ.id) : ((t.entered id now).put (t.slotFor id now) ρ).Sound :=
  (hsound.entered id now).put (records_slotFor hsound.hasSlot id now) hid

/-- Entering brings in the sender's record only. -/
theorem mem_records_entered [Scalar K] (hslot : t.HasSlot) {id : AnchorId} {now : Millis}
    (hρ : ρ ∈ (t.entered id now).records) : ρ ∈ t.records ∨ ρ = t.sender id := by
  obtain ⟨-, heq, -⟩ | ⟨-, -, -, heq⟩ | ⟨-, -, -, -, heq⟩ := entered_cases hslot id now
  · rw [heq] at hρ
    exact Or.inl hρ
  · rw [heq] at hρ
    simpa using hρ
  · rw [heq] at hρ
    exact List.mem_or_eq_of_mem_set hρ

end Table

/-! ## Choosing a partner -/

namespace Pairing

variable {K : Type} {t : Table K} {h : Handle} {sender : Record K}

theorem checkedPartner?_eq (hsound : t.Sound) (hread : t.read h = .ok sender)
    (exclude : Option AnchorId) (candidate : Candidate) :
    checkedPartner? t h exclude candidate = .ok (partner? t h.now sender exclude candidate) := by
  rw [checkedPartner?, partner?]
  simp only [Table.access_of_read hsound hread, Table.flight?, hread]
  by_cases hexclude : exclude = some candidate.1
  · simp [hexclude, guard, pure, Except.pure]
  cases hflight : sender.flight? t.windows h.now candidate.1 with
  | none => simp [hexclude, hflight, bind, Except.bind, pure, Except.pure, Except.mapError]
  | some flight =>
      cases hget : t.get? candidate.1 h.now with
      | none => simp [hexclude, hflight, bind, Except.bind, pure, Except.pure, Except.mapError]
      | some other =>
          obtain ⟨-, -, ρ, hother, -⟩ := Table.get?_eq_some hget
          have hrecord := (Table.read_eq_ok_iff.1 hother).1
          simp only [Table.access_of_read hsound hother, Table.sequence,
            Table.rxTime?, Table.lastUpdate, hother]
          by_cases hsequence : ρ.sequence = candidate.2 <;> cases hrx : ρ.rxTime <;>
            simp [hexclude, hflight, hrecord, hsequence, hrx, guard, bind, Except.bind, pure,
              Except.pure, Except.mapError]

/-- With as many candidates as there are in the buffer, the step of a call finds the one whose turn
it is. -/
theorem candidateAt_eq {buffer candidates : List Candidate} (hbuffer : candidates <+: buffer)
    (turn : UInt64) {i : Nat} (hi : i < candidates.length) :
    ∃ candidate, candidates[(turn + i.toUInt64).toNat % candidates.length]? = some candidate ∧
      candidateAt buffer turn candidates.length i = .ok candidate := by
  have hne : candidates.length ≠ 0 := by omega
  have hlt := Nat.mod_lt (turn + i.toUInt64).toNat (Nat.pos_of_ne_zero hne)
  obtain ⟨rest, rfl⟩ := hbuffer
  refine ⟨_, List.getElem?_eq_getElem hlt, ?_⟩
  rw [candidateAt, if_neg hne]
  dsimp only
  rw [List.getElem?_append_left hlt, List.getElem?_eq_getElem hlt]
  rfl

/-- Looking at the candidates in a buffer one by one, in the order of a turn. -/
theorem findSomeM?_candidateAt {buffer candidates : List Candidate}
    (hbuffer : candidates <+: buffer) (turn : UInt64)
    {f : Candidate → Except Fault (Option Partner)} {g : Candidate → Option Partner}
    (hf : ∀ candidate, f candidate = .ok (g candidate)) :
    ((List.range candidates.length).findSomeM? fun i => do
      f (← candidateAt buffer turn candidates.length i)) =
      .ok ((rotated turn candidates).findSome? g) := by
  have hsteps : ∀ is : List Nat, (∀ i ∈ is, i < candidates.length) →
      (is.findSomeM? fun i => do f (← candidateAt buffer turn candidates.length i)) =
        .ok ((is.filterMap fun i =>
          candidates[(turn + i.toUInt64).toNat % candidates.length]?).findSome? g) := by
    intro is his
    induction is with
    | nil => rfl
    | cons i is ih =>
        obtain ⟨candidate, hget, hcandidate⟩ :=
          candidateAt_eq hbuffer turn (his i (List.mem_cons_self ..))
        have hrest := ih fun j hj => his j (List.mem_cons_of_mem _ hj)
        rw [List.findSomeM?_cons, hrest, hcandidate, List.filterMap_cons, hget]
        simp only [bind, Except.bind, hf, List.findSome?_cons]
        cases g candidate <;> rfl
  exact hsteps _ fun i hi => List.mem_range.1 hi

/-- Looking at all candidates in a buffer. -/
theorem mapM_take_eq {buffer candidates : List Candidate} (hbuffer : candidates <+: buffer)
    {f : Candidate → Except Fault (Option Partner)} {g : Candidate → Option Partner}
    (hf : ∀ candidate, f candidate = .ok (g candidate)) :
    (buffer.take candidates.length).mapM f = .ok (candidates.map g) := by
  obtain rfl : f = fun candidate => pure (g candidate) := funext hf
  rw [← List.prefix_iff_eq_take.1 hbuffer, List.mapM_pure]
  rfl

/-- With a buffer as long as the limit, the choice is the one without a buffer. -/
theorem checkedPick_eq (p : Pairing) {buffer : List Candidate} (hbuffer : buffer.length = p.limit)
    (hsound : t.Sound) (hread : t.read h = .ok sender) (exclude : Option AnchorId) :
    ∃ buffer', buffer'.length = buffer.length ∧ p.checkedPick buffer t h exclude =
      .ok ((p.choose t h.now sender exclude).1, (p.choose t h.now sender exclude).2, buffer') := by
  have hpartner := checkedPartner?_eq hsound hread exclude
  have hheard : t.access h (t.heard h) = .ok (sender.heard t.windows h.now) := by
    rw [Table.access_of_read hsound hread, Table.heard, hread]
    rfl
  obtain ⟨buffer', hfill, hprefix, hlength⟩ :=
    Table.exists_fill_eq buffer (sender.heard t.windows h.now)
  rw [hbuffer] at hfill hprefix
  rw [checkedPick, choose]
  simp only [hheard, bind, Except.bind, hfill]
  generalize (sender.heard t.windows h.now).take p.limit = candidates at hprefix
  cases hstrategy : p.strategy with
  | never => exact ⟨buffer, rfl, rfl⟩
  | random =>
      have hloop := findSomeM?_candidateAt hprefix (p.turn + 1) hpartner
      simp only [bind, Except.bind] at hloop
      refine ⟨buffer', hlength, ?_⟩
      simp only [hloop]
      rfl
  | youngest =>
      have hindex := checkIndex_eq (Nat.lt_succ_of_le hprefix.length_le)
      refine ⟨buffer', hlength, ?_⟩
      simp only [hindex, mapM_take_eq hprefix hpartner, List.reduceOption, List.filterMap_map]
      rfl

end Pairing

/-! ## Diagnostics -/

/-- Time has passed when an interval that is not empty is over. -/
theorem RateCounter.checkedUpdate_eq {c : RateCounter} (h : c.interval ≠ 0) (now : Millis) :
    c.checkedUpdate now = .ok (c.update now).2 := by
  have hpassed : ¬ (c.isDue now ∧ Millis.since c.latest now = 0) := by
    rintro ⟨hdue, hzero⟩
    rw [isDue, hzero, decide_eq_true_eq] at hdue
    exact h (UInt32.le_zero_iff.1 hdue)
  rw [checkedUpdate, if_neg hpassed]
  rfl

theorem Tally.mapM_eq {α β ε : Type} {f : α → Except ε β} {g : α → β} {t : Tally α}
    (h : ∀ e, f (t.get e) = .ok (g (t.get e))) : t.mapM f = .ok (t.map g) := by
  have hreceived := h .packetReceived
  have hsent := h .sent
  have hconfirmed := h .clockConfirmed
  have hknown := h .known
  have hentered := h .entered
  have hreliable := h .reliable
  have hpaired := h .paired
  simp only [get] at hreceived hsent hconfirmed hknown hentered hreliable hpaired
  simp only [mapM, hreceived, hsent, hconfirmed, hknown, hentered, hreliable, hpaired, bind,
    Except.bind]
  rfl

namespace Diagnostics

variable {K : Type} [Scalar K]

/-- No counter has an empty interval. -/
def Ticking (d : Diagnostics K) : Prop :=
  ∀ e, (d.counters.get e).interval ≠ 0

theorem checkedUpdate_eq {d : Diagnostics K} (h : d.Ticking) (now : Millis) :
    d.checkedUpdate now = .ok (d.update now) := by
  have hcounters : d.counters.mapM (·.checkedUpdate now) =
      .ok (d.counters.map fun c => (c.update now).2) :=
    Tally.mapM_eq fun e => RateCounter.checkedUpdate_eq (h e) now
  rw [checkedUpdate, update]
  split
  · rw [hcounters]
    rfl
  · rfl

omit [Scalar K] in
theorem Ticking.count {d : Diagnostics K} (h : d.Ticking) (e : Event) : (d.count e).Ticking := by
  intro other
  rw [Diagnostics.count]
  by_cases hsame : other = e
  · subst hsame
    rw [Tally.get_modify_self]
    exact h other
  · rw [Tally.get_modify_of_ne _ _ hsame]
    exact h other

omit [Scalar K] in
theorem Ticking.ite {p : Prop} [Decidable p] {d d' : Diagnostics K} (h : d.Ticking)
    (h' : d'.Ticking) : (if p then d else d').Ticking := by
  split <;> assumption

theorem Ticking.update {d : Diagnostics K} (h : d.Ticking) (now : Millis) :
    (d.update now).Ticking := by
  rw [Diagnostics.update]
  split
  · intro e
    rw [Tally.get_map, RateCounter.update]
    split <;> exact h e
  · exact h

omit [Scalar K] in
theorem Ticking.recordClockRatio {d : Diagnostics K} (h : d.Ticking) (anchor : AnchorId)
    (ratio : K) : (d.recordClockRatio anchor ratio).Ticking := by
  rw [Diagnostics.recordClockRatio]
  split
  · exact Ticking.count (d := { d with watched := _ }) h _
  · exact h

theorem Ticking.recordDistanceDiff {d : Diagnostics K} (h : d.Ticking) (first second : AnchorId)
    (distanceDiff : K) : (d.recordDistanceDiff first second distanceDiff).Ticking := by
  rw [Diagnostics.recordDistanceDiff]
  split
  · exact h
  · split <;> exact h

omit [Scalar K] in
theorem Ticking.recordReport {d : Diagnostics K} (h : d.Ticking) (anchor : AnchorId)
    (report : Report) : (d.recordReport anchor report).Ticking := by
  rw [Diagnostics.recordReport, recordFlight]
  split
  · exact h
  · split <;> exact h

theorem Ticking.start {interval : Millis} (h : interval ≠ 0) (now : Millis) :
    (Diagnostics.start (K := K) interval now).Ticking := by
  intro e
  rw [Diagnostics.start, Tally.get_replicate]
  exact h

end Diagnostics

/-! ## Packets -/

namespace Receiver

variable {K : Type} [Scalar K] {r : Receiver K} {a : Arrival K}

/-- A receiver for which no step is impossible: its table and its lists have a place for everything
that they are to hold, stored flights are moderate, and counters have intervals. -/
structure Fit (r : Receiver K) : Prop where
  table : r.table.Sound
  records : ∀ ρ ∈ r.table.records, ρ.Fit
  ticking : r.diagnostics.Ticking

theorem Fit.sender (h : r.Fit) (id : AnchorId) : (r.table.sender id).Fit := by
  rw [Table.sender]
  cases hfind : r.table.find? id with
  | none => exact Record.Fit.empty h.table.receptions_pos h.table.flights_pos id
  | some ρ => exact h.records ρ (List.mem_of_find?_eq_some hfind)

theorem Fit.prepared (h : r.Fit) (ha : a.Moderate) : (r.prepared a).Fit :=
  (h.sender a.source).prepare r.filter ha

theorem ticking_heard (h : r.diagnostics.Ticking) (a : Arrival K) :
    (r.heard a).diagnostics.Ticking := by
  have hentered : (r.entered a).diagnostics.Ticking := ((h.count _).update _).count _
  have hreports : ∀ (reports : List Report) (d : Diagnostics K), d.Ticking →
      (reports.foldl (·.recordReport a.source ·) d).Ticking := by
    intro reports
    induction reports with
    | nil => exact fun _ hd => hd
    | cons report rest ih => exact fun d hd => ih _ (hd.recordReport a.source report)
  exact hreports a.others _ hentered

theorem ticking_nextDiagnostics (h : r.diagnostics.Ticking) (a : Arrival K) :
    (r.nextDiagnostics a).Ticking := by
  have hheard := ticking_heard h a
  have htimed : (r.timed a).diagnostics.Ticking := (hheard.recordClockRatio _ _).ite hheard
  have hchosen := Diagnostics.Ticking.ite (p := r.reliable a = true) (htimed.count .reliable) htimed
  have hpaired := Diagnostics.Ticking.ite (p := (r.partner? a).isSome = true)
    (hchosen.count .paired) hchosen
  rw [nextDiagnostics]
  split
  · exact (hpaired.count _).recordDistanceDiff _ _ _
  · exact hpaired

/-- A packet with moderate flights keeps a receiver fit. -/
theorem Fit.after (h : r.Fit) (ha : a.Moderate) : (r.after a).Fit := by
  refine ⟨sound_after h.table a, ?_, ticking_nextDiagnostics h.ticking a⟩
  intro ρ hρ
  rw [after_table, Table.put_records] at hρ
  rcases List.mem_or_eq_of_mem_set hρ with hentered | rfl
  · rcases Table.mem_records_entered h.table.hasSlot hentered with hold | rfl
    · exact h.records ρ hold
    · exact h.sender a.source
  · exact (h.sender a.source).receive r.filter ha

/-! ## The steps of a packet -/

theorem checkedEnter_eq (h : r.Fit) (id : AnchorId) (now : Millis) :
    (r.count .packetReceived).checkedEnter id now =
      .ok ((r.count .packetReceived).enter id now) := by
  have hticking : (r.count .packetReceived).diagnostics.Ticking := h.ticking.count _
  rw [checkedEnter, enter, Diagnostics.checkedUpdate_eq hticking, count_table,
    Table.checkedEnter_eq h.table]
  rfl

omit [Scalar K] in
theorem checkedLearn_eq {h : Handle} {ρ : Record K} (hsound : r.table.Sound)
    (hread : r.table.read h = .ok ρ) (hρ : ρ.Fit) (reports : List Report) :
    r.checkedLearn h reports = (r.learn h reports).mapError .stale := by
  rw [learn_eq hread, checkedLearn]
  simp only [Table.access_of_read hsound hread, hread, Table.modify_eq_put hread, Except.mapError,
    bind, Except.bind, Record.foldlM_checkedLearn_eq hρ.receptions hρ.flights]
  rfl

theorem checkedDistanceDiff?_eq {h other : Handle} {ρ ο : Record K} (hsound : r.table.Sound)
    (hread : r.table.read h = .ok ρ) (hother : r.table.read other = .ok ο) (hρ : ρ.Fit)
    (txTime rxTime : Ticks) :
    r.checkedDistanceDiff? other h txTime rxTime =
      (r.distanceDiff? other h txTime rxTime).mapError .stale := by
  rw [checkedDistanceDiff?, checkedArrivalDifference?, distanceDiff?, arrivalDifference?]
  simp only [Table.access_of_read hsound hread, Table.access_of_read hsound hother, Table.flight?,
    Table.reception?, Table.rxTime?, Table.clock, hread, hother, bind, Except.bind, pure,
    Except.pure, Except.mapError]
  cases hflight : ρ.flight? r.table.windows h.now other.id with
  | none => rfl
  | some flight =>
      cases ρ.reception? r.table.windows h.now other.id with
      | none => rfl
      | some reception =>
          have hadd := Ticks.checkedAdd_eq (hρ.of_flight? hflight)
            (Ticks.toInt_elapsed_nonneg reception.time txTime)
            (Ticks.toInt_elapsed_lt reception.time txTime)
          cases ο.rxTime with
          | none => rfl
          | some otherRx => simp [hadd]

theorem checkedSend_eq {h other : Handle} {ρ ο : Record K} (hsound : r.table.Sound)
    (hread : r.table.read h = .ok ρ) (hother : r.table.read other = .ok ο) (difference : K) :
    r.checkedSend other h difference = (r.send other h difference).mapError .stale := by
  rw [checkedSend, checkIndex_eq (Table.slot_lt_of_read hsound hother),
    Table.access_of_read hsound hread]
  rfl

end Receiver

namespace Buffered

variable {K : Type} [Scalar K] {r : Receiver K} {a : Arrival K}

/-- Looking for a partner with a buffer that is as long as the limit comes to the same as without
one. -/
theorem checkedFindPartner_eq {buffer : List Pairing.Candidate}
    (hbuffer : buffer.length = r.pairing.limit) {h : Handle} {ρ : Record K}
    (hsound : r.table.Sound) (hread : r.table.read h = .ok ρ) {exclude : Option AnchorId}
    {partner : Option Handle} {r' : Receiver K}
    (hfind : r.findPartner h exclude = .ok (partner, r')) :
    ∃ buffer', buffer'.length = buffer.length ∧
      checkedFindPartner ⟨r, buffer⟩ h exclude = .ok (partner, ⟨r', buffer'⟩) := by
  obtain ⟨buffer', hlength, hpick⟩ := r.pairing.checkedPick_eq hbuffer hsound hread exclude
  rw [Receiver.findPartner_eq hread] at hfind
  rw [checkedFindPartner]
  simp only [Table.access_of_read hsound hread, Table.clock, hread, Except.mapError, bind,
    Except.bind, pure, Except.pure, hpick]
  by_cases hratio : ρ.clock.ratio ≤ 0.0
  · rw [if_pos hratio] at hfind ⊢
    cases hfind
    exact ⟨buffer, rfl, rfl⟩
  · rw [if_neg hratio] at hfind ⊢
    cases hfind
    exact ⟨buffer', hlength, rfl⟩

/-- The ranging pipeline on a packet whose reports are stored. -/
theorem checkedProcess_heard (h : r.Fit) (ha : a.Moderate) {buffer : List Pairing.Candidate}
    (hbuffer : buffer.length = r.pairing.limit) : ∃ buffer', buffer'.length = buffer.length ∧
      checkedProcess ⟨r.heard a, buffer⟩ (r.senderHandle a) a.broadcast.txTime a.rxTime =
        .ok (r.reliable a, ⟨r.ranged a, buffer'⟩) := by
  have hslot := h.table.hasSlot
  have hsound : (r.preparedTable a).Sound := h.table.put_sender (by simp [Receiver.prepared])
  have hheard : (r.heard a).table.Sound := h.table.put_sender (by simp)
  have hread := Receiver.read_preparedTable hslot a
  -- With every test passed the branches are those of the plain pipeline, whose outcome is known.
  have hplain := Receiver.process_heard hslot a
  rw [Receiver.process] at hplain
  rw [checkedProcess]
  simp only [Table.access_of_read hheard (Receiver.read_heard hslot a),
    Receiver.updateClock_heard hslot a, Except.mapError, bind, Except.bind, pure,
    Except.pure] at hplain ⊢
  cases hreliable : r.reliable a with
  | false =>
      rw [hreliable] at hplain
      obtain ⟨-, hranged⟩ := Prod.mk.inj (Except.ok.inj hplain)
      exact ⟨buffer, rfl, by rw [← hranged]; rfl⟩
  | true =>
      have hfind := Receiver.findPartner_timed hslot hreliable
      obtain ⟨buffer', hlength, hfind'⟩ :=
        checkedFindPartner_eq (r := (r.timed a).count .reliable) hbuffer hsound hread hfind
      refine ⟨buffer', hlength, ?_⟩
      rw [hreliable] at hplain
      simp only [hfind, hfind', Bool.not_true, Bool.false_eq_true, if_false] at hplain ⊢
      cases hchoice : (r.choice a).1 with
      | none =>
          rw [hchoice] at hplain
          obtain ⟨-, hranged⟩ := Prod.mk.inj (Except.ok.inj hplain)
          rw [← hranged]
      | some other =>
          obtain ⟨ο, hother, -, hnow⟩ := Receiver.read_of_choice hchoice
          have hdifference := Receiver.checkedDistanceDiff?_eq (r := (r.chosen a).count .paired)
            hsound hread hother (h.prepared ha) a.broadcast.txTime a.rxTime
          have hsend :=
            Receiver.checkedSend_eq (r := (r.chosen a).count .paired) hsound hread hother
          have hplainDifference := Receiver.distanceDiff?_eq (r := (r.chosen a).count .paired) hread
            hother (a := a) rfl
          rw [hchoice] at hplain
          simp only [hdifference, hsend, Except.mapError] at hplain ⊢
          rw [hplainDifference] at hplain ⊢
          cases hvalue : Option.map _ _ with
          | none =>
              rw [hvalue] at hplain
              obtain ⟨-, hranged⟩ := Prod.mk.inj (Except.ok.inj hplain)
              rw [← hranged]
          | some d =>
              have hsent := Receiver.send_eq (r := (r.chosen a).count .paired) hread hother
                (Receiver.senderHandle_now r a) hnow d
              rw [hvalue] at hplain
              simp only [hsent] at hplain ⊢
              obtain ⟨-, hranged⟩ := Prod.mk.inj (Except.ok.inj hplain)
              rw [← hranged]

/-- Handling a packet with moderate flights. -/
theorem checkedHandle_eq (h : r.Fit) (ha : a.Moderate) {buffer : List Pairing.Candidate}
    (hbuffer : buffer.length = r.pairing.limit) : ∃ buffer', buffer'.length = buffer.length ∧
      checkedHandle ⟨r, buffer⟩ a.broadcast a.rxTime a.now =
        .ok (r.reliable a, ⟨r.after a, buffer'⟩) := by
  have hslot := h.table.hasSlot
  have henter := Receiver.checkedEnter_eq h a.source a.now
  have hlearn := Receiver.checkedLearn_eq (r := r.entered a) (h.table.entered a.source a.now)
    (Receiver.read_entered hslot a) (h.sender a.source) a.broadcast.reports
  obtain ⟨buffer', hlength, hprocess⟩ := checkedProcess_heard h ha hbuffer
  have hread : (r.ranged a).table.read (r.senderHandle a) = .ok (r.prepared a) :=
    Receiver.read_preparedTable hslot a
  have hsound : (r.ranged a).table.Sound := h.table.put_sender (by simp [Receiver.prepared])
  have hlt := Table.slot_lt_of_read hsound hread
  have hplain := Receiver.handle_eq hslot a
  rw [Receiver.enter_eq] at henter
  rw [Receiver.learn_entered hslot] at hlearn
  refine ⟨buffer', hlength, ?_⟩
  have hsource : a.broadcast.source = a.source := rfl
  rw [Receiver.handle, hsource, Receiver.enter_eq] at hplain
  rw [checkedHandle, hsource]
  simp only [henter, hlearn, Receiver.learn_entered hslot, Receiver.process_heard hslot, hprocess,
    Table.setBroadcast, Table.setPosition, Table.modify_eq_put hread, Table.access_eq hlt,
    Except.mapError, bind, Except.bind, pure, Except.pure] at hplain ⊢
  cases hposition : a.broadcast.position with
  | none =>
      rw [hposition] at hplain
      obtain ⟨-, hafter⟩ := Prod.mk.inj (Except.ok.inj hplain)
      rw [← hafter]
  | some point =>
      have hstored := Table.read_put_self hread
        (Record.setBroadcast_id (r.prepared a) (r.senderHandle a).now a.rxTime a.broadcast.txTime
          (a.broadcast.sequence &&& sequenceMask))
      have hmodify := Table.modify_eq_put hstored (·.setPosition (r.senderHandle a).now point)
      rw [hposition] at hplain
      simp only [hmodify] at hplain ⊢
      -- The first change of the table has left its capacity alone.
      rw [Table.access_eq (by exact hlt)]
      obtain ⟨-, hafter⟩ := Prod.mk.inj (Except.ok.inj hplain)
      rw [← hafter]
      rfl

end Buffered

/-! ## Calls -/

/-- The flights in a packet are moderate. -/
def Call.Moderate {K : Type} : Call K → Prop
  | .packet a => a.Moderate
  | _ => True

instance {K : Type} (call : Call K) : Decidable call.Moderate :=
  match call with
  | .packet a => inferInstanceAs (Decidable a.Moderate)
  | .watch _ | .setStdDev _ | .anchorPosition .. | .ids _ | .activeIds .. => isTrue trivial

namespace Receiver

variable {K : Type} [Scalar K]

theorem fit_fresh {s : Settings K} (h : s.validate = .ok ()) (start : Millis) :
    (fresh s start).Fit :=
  ⟨sound_of_create (create_eq_ok_iff.2 ⟨h, rfl⟩), nofun,
    .start (Settings.validate_eq_ok_iff.1 h).statsInterval_ne_zero start⟩

end Receiver

namespace Buffered

variable {K : Type} [Scalar K] {r : Receiver K}

/-- No call with moderate flights meets a condition that fails, and it leaves everything so that
none of the next one fails either. -/
theorem checkedServe_eq (h : r.Fit) {buffer : List Pairing.Candidate}
    (hbuffer : buffer.length = r.pairing.limit) {call : Call K} (hcall : call.Moderate) :
    ∃ answer r' buffer', r.serve call = .ok (answer, r') ∧
      checkedServe ⟨r, buffer⟩ call = .ok (answer, ⟨r', buffer'⟩) ∧ r'.Fit ∧
      buffer'.length = r'.pairing.limit := by
  cases call with
  | packet a =>
      obtain ⟨buffer', hlength, hhandle⟩ := checkedHandle_eq h hcall hbuffer
      have hlimit := Receiver.afterAll_limit r [a]
      refine ⟨.reliable (r.reliable a), r.after a, buffer', ?_, ?_, h.after hcall, ?_⟩
      · rw [Receiver.serve, Receiver.handle_eq h.table.hasSlot]
        rfl
      · rw [checkedServe, hhandle]
        rfl
      · rw [hlength, hbuffer, ← hlimit]
        rfl
  | watch s => exact ⟨.done, r.watch s, buffer, rfl, rfl, ⟨h.table, h.records, h.ticking⟩, hbuffer⟩
  | setStdDev stdDev =>
      exact ⟨.done, { r with stdDev }, buffer, rfl, rfl, ⟨h.table, h.records, h.ticking⟩, hbuffer⟩
  | anchorPosition id now =>
      refine ⟨_, r, buffer, rfl, ?_, h, hbuffer⟩
      rw [checkedServe, Receiver.anchorPosition?]
      cases hget : r.table.get? id now with
      | none => simp [pure, Except.pure]
      | some handle =>
          obtain ⟨-, hnow, ρ, hread, -⟩ := Table.get?_eq_some hget
          have hrecord := (Table.read_eq_ok_iff.1 hread).1
          simp [hrecord, hnow, Table.access_of_read h.table hread, Table.position?_of_read hread,
            Except.mapError, bind, Except.bind, pure, Except.pure]
  | ids buffer' => exact ⟨_, r, buffer, rfl, rfl, h, hbuffer⟩
  | activeIds buffer' now => exact ⟨_, r, buffer, rfl, rfl, h, hbuffer⟩

/-- Nor does any of several calls. -/
theorem checkedServeAll_eq (h : r.Fit) {buffer : List Pairing.Candidate}
    (hbuffer : buffer.length = r.pairing.limit) {calls : List (Call K)}
    (hcalls : ∀ call ∈ calls, call.Moderate) :
    ∃ answers r' buffer', r.serveAll calls = .ok (answers, r') ∧
      checkedServeAll ⟨r, buffer⟩ calls = .ok (answers, ⟨r', buffer'⟩) := by
  induction calls generalizing r buffer with
  | nil => exact ⟨[], r, buffer, rfl, rfl⟩
  | cons call calls ih =>
      obtain ⟨answer, r₁, buffer₁, hserve, hchecked, hfit, hlength⟩ :=
        checkedServe_eq h hbuffer (hcalls call (List.mem_cons_self ..))
      obtain ⟨answers, r₂, buffer₂, hserveAll, hcheckedAll⟩ :=
        ih hfit hlength fun call' hmem => hcalls call' (List.mem_cons_of_mem _ hmem)
      refine ⟨answer :: answers, r₂, buffer₂, ?_, ?_⟩
      · simp only [Receiver.serveAll, hserve, hserveAll, bind, Except.bind]
        rfl
      · simp only [checkedServeAll, hchecked, hcheckedAll, bind, Except.bind]
        rfl

/-- From valid settings, whatever a receiver is called with, every condition holds when its step is
taken: no handle is stale, no index is out of range, no remainder or rate is by zero, and no sum
overflows, as long as no report has a time of flight of more than `2 ^ 62` ticks. The answers and
the receiver at the end are the ones without tests. -/
theorem checkedServeAll_never_faults {s : Settings K} (hvalid : s.validate = .ok ())
    (start : Millis) {calls : List (Call K)} (hcalls : ∀ call ∈ calls, call.Moderate) :
    ∃ b answers r buffer, create s start = .ok b ∧ b.receiver.serveAll calls = .ok (answers, r) ∧
      b.checkedServeAll calls = .ok (answers, ⟨r, buffer⟩) := by
  have hcreate : Receiver.create s start = .ok (Receiver.fresh s start) :=
    Receiver.create_eq_ok_iff.2 ⟨hvalid, rfl⟩
  have hbuffer : (List.replicate s.receptionCapacity ((⟨0⟩, 0) : Pairing.Candidate)).length =
      (Receiver.fresh s start).pairing.limit := List.length_replicate ..
  obtain ⟨answers, r, buffer, hserve, hchecked⟩ :=
    checkedServeAll_eq (Receiver.fit_fresh hvalid start) hbuffer hcalls
  refine ⟨⟨Receiver.fresh s start, _⟩, answers, r, buffer, ?_, hserve, hchecked⟩
  rw [create, hcreate]
  rfl

/-- The packet that reports on anchor 2, with other reports in place of its own. -/
def reporting (reports : List Report) : Arrival Float :=
  { Receiver.pairReport with
    broadcast := { Receiver.pairReport.broadcast with reports } }

/-- A run with a pair, with other calls in between. The last report comes three times over, about
the sender itself as well, with flights as large as they may be, and with a clock that is set
back. -/
def mixedCalls : List (Call Float) :=
  [.ids [], .watch ⟨⟨1⟩, ⟨2⟩⟩] ++ Receiver.pairRun.map .packet ++
    [.setStdDev 0.3,
      .packet (reporting [⟨⟨2⟩, 962000000, 0, 2 ^ 62⟩, ⟨⟨1⟩, 7, 0, 7⟩,
        ⟨⟨2⟩, 962000000, 0, -2 ^ 62⟩]),
      .anchorPosition ⟨1⟩ 25, .anchorPosition ⟨9⟩ 25, .activeIds [⟨0⟩, ⟨0⟩, ⟨0⟩] 3000,
      .packet { Receiver.pairReport with now := 3 }]

theorem checkedServeAll_never_faults_mixedCalls : ∃ b answers r buffer,
    create Settings.standard 0 = .ok b ∧ b.receiver.serveAll mixedCalls = .ok (answers, r) ∧
      b.checkedServeAll mixedCalls = .ok (answers, ⟨r, buffer⟩) :=
  checkedServeAll_never_faults (Receiver.create_eq_ok_iff.1 (Receiver.create_standard 0)).1 0
    (by decide +kernel)

-- A flight of almost `2 ^ 63` ticks is too large to add the time that the sender took.
example : (match checkedServeAll ⟨.fresh .standard 0, List.replicate 16 (⟨0⟩, 0)⟩
    (Receiver.pairRun.map .packet ++
      [.packet (reporting [⟨⟨2⟩, 962000000, 0, 2 ^ 63 - 1⟩])]) with
    | .ok _ => none
    | .error fault => some fault) = some (.overflow (2 ^ 63 - 1 + 319000000)) := by
  decide +kernel

end Buffered

end Ranging

import Mathlib.Data.Option.Basic
import Ranging.Broadcast
import Ranging.Proofs.RatioFilter
import Ranging.Proofs.Recent
import Ranging.Proofs.Table

/-!
# Handling one broadcast

`Receiver.handle` is a sequence of steps that can each fail on a stale handle. In a sound table
none of them does, and the whole sequence has a plain description:

1. The sender enters the table.
2. Its record takes the reports and the clock filter's verdict on the new times (`prepare`).
3. If the verdict is good, a partner may be found, and with it a measurement.
4. Its record takes the new times and the position (`receive`).

The record's part of this, `Record.receive`, depends on nothing but the record, the clock filter
and the packet. `handle_eq` states that handling a packet is exactly this and never fails; later
results use it and do not open the pipeline again.
-/

namespace Ranging

/-- A broadcast as the tag receives it: in ticks of the tag, and at a time in milliseconds. -/
structure Arrival (K : Type) where
  broadcast : Broadcast K
  rxTime : Ticks
  now : Millis

namespace Arrival

variable {K : Type}

def source (a : Arrival K) : AnchorId := a.broadcast.source

/-- The reports about other anchors. -/
def others (a : Arrival K) : List Report :=
  a.broadcast.reports.filter (·.neighbour ≠ a.source)

/-- What the reports write into the sender's list of receptions. -/
def receptions (a : Arrival K) : List (Entry Reception) :=
  a.others.filterMap fun report =>
    if report.rxTime = 0 then none
    else some ⟨⟨⟨report.rxTime, report.sequence &&& sequenceMask⟩, a.now⟩, report.neighbour⟩

/-- What the reports write into the sender's list of flights. -/
def flights (a : Arrival K) : List (Entry Ticks) :=
  a.others.filterMap fun report =>
    if report.flight = 0 then none else some ⟨⟨report.flight, a.now⟩, report.neighbour⟩

/-- What a packet writes about a neighbour comes from one of its reports. -/
theorem mem_receptions_iff {a : Arrival K} {e : Entry Reception} :
    e ∈ a.receptions ↔ e.key ≠ a.source ∧ ∃ report ∈ a.broadcast.reports,
      report.neighbour = e.key ∧ report.rxTime ≠ 0 ∧
      e = ⟨⟨⟨report.rxTime, report.sequence &&& sequenceMask⟩, a.now⟩, report.neighbour⟩ := by
  rw [Arrival.receptions, Arrival.others]
  simp only [List.mem_filterMap, List.mem_filter, decide_eq_true_eq]
  constructor
  · rintro ⟨report, ⟨hmem, hne⟩, hentry⟩
    split at hentry
    · cases hentry
    · rename_i hrx
      cases hentry
      exact ⟨hne, report, hmem, rfl, hrx, rfl⟩
  · rintro ⟨hne, report, hmem, hkey, hrx, rfl⟩
    exact ⟨report, ⟨hmem, hne⟩, by rw [if_neg hrx]⟩

end Arrival

/-- Of a sequence number seven bits are kept. -/
theorem toNat_and_sequenceMask (s : UInt8) : (s &&& sequenceMask).toNat = s.toNat % 128 := by
  have hmask : sequenceMask.toNat = 2 ^ 7 - 1 := by decide
  rw [UInt8.toNat_and, hmask, Nat.and_two_pow_sub_one_eq_mod]

/-! ## The sender's record -/

namespace Record

variable {K : Type}

/-- The record with the reports of a packet stored. -/
def hear (r : Record K) (a : Arrival K) : Record K :=
  a.others.foldl (·.learn a.now ·) r

/-- A report reaches the two lists about neighbours and nothing else. -/
theorem learn_eq (r : Record K) (now : Millis) (report : Report) :
    r.learn now report = { r with
      receptions := if report.rxTime = 0 then r.receptions
        else r.receptions.write now report.neighbour
          ⟨report.rxTime, report.sequence &&& sequenceMask⟩
      flights := if report.flight = 0 then r.flights
        else r.flights.write now report.neighbour report.flight } := by
  rw [learn, setReception, setFlight]
  by_cases hrx : report.rxTime = 0 <;> by_cases hflight : report.flight = 0 <;>
    simp [hrx, hflight]

theorem hear_eq (r : Record K) (a : Arrival K) :
    r.hear a = { r with
      receptions := r.receptions.writeAll a.receptions
      flights := r.flights.writeAll a.flights } := by
  rw [hear, Arrival.receptions, Arrival.flights]
  induction a.others generalizing r with
  | nil => rfl
  | cons report rest ih =>
      rw [List.foldl_cons, ih, learn_eq]
      by_cases hrx : report.rxTime = 0 <;> by_cases hflight : report.flight = 0 <;>
        simp [hrx, hflight]

@[simp] theorem hear_id (r : Record K) (a : Arrival K) : (r.hear a).id = r.id := by
  rw [hear_eq]

theorem length_heard_le_entries (r : Record K) (windows : Windows) (now : Millis) :
    (r.heard windows now).length ≤ r.receptions.entries.length := by
  rw [heard, List.length_map, Recent.live]
  exact List.length_filter_le ..

/-- A neighbour is heard with the sequence number of its valid report. -/
theorem mem_heard_iff {r : Record K} (h : r.receptions.Sound) {windows : Windows} {now : Millis}
    {neighbour : AnchorId} {sequence : UInt8} :
    (neighbour, sequence) ∈ r.heard windows now ↔
      ∃ reception, r.reception? windows now neighbour = some reception ∧
        reception.sequence = sequence := by
  rw [heard, reception?]
  simp only [List.mem_map, Prod.mk.injEq]
  constructor
  · rintro ⟨e, he, hkey, hsequence⟩
    exact ⟨e.value, (Recent.find?_eq_some_iff_mem_live h).2 ⟨e, he, hkey, rfl⟩, hsequence⟩
  · rintro ⟨reception, hfind, hsequence⟩
    obtain ⟨e, he, hkey, rfl⟩ := (Recent.find?_eq_some_iff_mem_live h).1 hfind
    exact ⟨e, he, hkey, hsequence⟩

variable [Scalar K]

/-- What the clock filter makes of a packet: whether its timing is reliable, and the new state. -/
def timing (r : Record K) (f : RatioFilter K) (a : Arrival K) : Bool × RatioState K :=
  match Receiver.ratioCandidate? r a.broadcast.txTime a.rxTime with
  | none => (false, r.clock)
  | some candidate => f.update r.clock candidate

/-- The record when a partner is looked for: reports and clock are new, the times are still those
of the previous packet. -/
def prepare (r : Record K) (f : RatioFilter K) (a : Arrival K) : Record K :=
  { r.hear a with clock := (r.timing f a).2 }

/-- The record after a packet. -/
def receive (r : Record K) (f : RatioFilter K) (a : Arrival K) : Record K :=
  let r := (r.prepare f a).setBroadcast a.now a.rxTime a.broadcast.txTime
    (a.broadcast.sequence &&& sequenceMask)
  match a.broadcast.position with
  | some point => r.setPosition a.now point
  | none => r

theorem prepare_eq (r : Record K) (f : RatioFilter K) (a : Arrival K) :
    r.prepare f a = { r with
      receptions := r.receptions.writeAll a.receptions
      flights := r.flights.writeAll a.flights
      clock := (r.timing f a).2 } := by
  rw [prepare, hear_eq]

theorem receive_eq (r : Record K) (f : RatioFilter K) (a : Arrival K) :
    r.receive f a = { r with
      lastUpdate := a.now
      rxTime := some a.rxTime
      txTime := some a.broadcast.txTime
      sequence := a.broadcast.sequence &&& sequenceMask
      clock := (r.timing f a).2
      position := match a.broadcast.position with
        | some point => some ⟨point, a.now⟩
        | none => r.position
      receptions := r.receptions.writeAll a.receptions
      flights := r.flights.writeAll a.flights } := by
  rw [receive, prepare_eq]
  cases a.broadcast.position <;> rfl

@[simp] theorem prepare_id (r : Record K) (f : RatioFilter K) (a : Arrival K) :
    (r.prepare f a).id = r.id := by
  rw [prepare_eq]

@[simp] theorem receive_id (r : Record K) (f : RatioFilter K) (a : Arrival K) :
    (r.receive f a).id = r.id := by
  rw [receive_eq]

@[simp] theorem receive_clock (r : Record K) (f : RatioFilter K) (a : Arrival K) :
    (r.receive f a).clock = (r.timing f a).2 := by
  rw [receive_eq]

@[simp] theorem prepare_clock (r : Record K) (f : RatioFilter K) (a : Arrival K) :
    (r.prepare f a).clock = (r.timing f a).2 := rfl

/-- What a packet reports is as it was when a partner was looked for. -/
theorem receive_flight? (r : Record K) (f : RatioFilter K) (a : Arrival K) (windows : Windows)
    (now : Millis) (neighbour : AnchorId) :
    (r.receive f a).flight? windows now neighbour =
      (r.prepare f a).flight? windows now neighbour := by
  rw [receive_eq, prepare_eq]
  rfl

theorem receive_reception? (r : Record K) (f : RatioFilter K) (a : Arrival K) (windows : Windows)
    (now : Millis) (neighbour : AnchorId) :
    (r.receive f a).reception? windows now neighbour =
      (r.prepare f a).reception? windows now neighbour := by
  rw [receive_eq, prepare_eq]
  rfl

theorem receive_heard (r : Record K) (f : RatioFilter K) (a : Arrival K) (windows : Windows)
    (now : Millis) : (r.receive f a).heard windows now = (r.prepare f a).heard windows now := by
  rw [receive_eq, prepare_eq]
  rfl

/-- Storing reports does not reach what the clock filter reads. -/
theorem timing_hear (r : Record K) (f : RatioFilter K) (a : Arrival K) :
    (r.hear a).timing f a = r.timing f a := by
  rw [hear_eq]
  rfl

/-- How much later a packet of `sender` reached the tag than the latest one of `other`, beyond the
time between their transmissions, in ticks of the tag. -/
def arrivalDifference? (sender other : Record K) (windows : Windows) (a : Arrival K) :
    Option K := do
  let flight ← sender.flight? windows a.now other.id
  let reception ← sender.reception? windows a.now other.id
  let otherRx ← other.rxTime
  return Scalar.ofInt (Ticks.elapsed otherRx a.rxTime).toInt
    - Scalar.ofInt (flight + Ticks.elapsed reception.time a.broadcast.txTime).toInt
      * sender.clock.ratio

theorem arrivalDifference?_eq_some_iff {sender other : Record K} {windows : Windows}
    {a : Arrival K} {difference : K} :
    sender.arrivalDifference? other windows a = some difference ↔ ∃ flight reception otherRx,
      sender.flight? windows a.now other.id = some flight ∧
      sender.reception? windows a.now other.id = some reception ∧
      other.rxTime = some otherRx ∧
      difference = Scalar.ofInt (Ticks.elapsed otherRx a.rxTime).toInt
        - Scalar.ofInt (flight + Ticks.elapsed reception.time a.broadcast.txTime).toInt
          * sender.clock.ratio := by
  rw [arrivalDifference?]
  simp only [Option.bind_eq_bind, Option.bind_eq_some_iff, Option.pure_def, Option.some.injEq]
  constructor
  · rintro ⟨flight, hflight, reception, hreception, otherRx, hrx, rfl⟩
    exact ⟨flight, reception, otherRx, hflight, hreception, hrx, rfl⟩
  · rintro ⟨flight, reception, otherRx, hflight, hreception, hrx, rfl⟩
    exact ⟨flight, hflight, reception, hreception, otherRx, hrx, rfl⟩

end Record

/-! ## The partner -/

namespace Pairing

variable {K : Type}

/-- The choice of `pick`, for the record behind the handle. -/
def choose (p : Pairing) (t : Table K) (now : Millis) (sender : Record K)
    (exclude : Option AnchorId) : Option Handle × Pairing :=
  let candidates := (sender.heard t.windows now).take p.limit
  match p.strategy with
  | .never => (none, p)
  | .random =>
    let chosen := (rotated (p.turn + 1) candidates).findSome? (partner? t now sender exclude)
    (chosen.map (·.handle), { p with turn := p.turn + 1 })
  | .youngest =>
    let chosen := youngest? (candidates.filterMap (partner? t now sender exclude))
    (chosen.map (·.handle), p)

theorem pick_eq (p : Pairing) {t : Table K} {h : Handle} {sender : Record K}
    (hread : t.read h = .ok sender) (exclude : Option AnchorId) :
    p.pick t h exclude = .ok (p.choose t h.now sender exclude) := by
  rw [pick, choose]
  cases hstrategy : p.strategy <;>
    simp [hread, bind, Except.bind, pure, Except.pure]

/-- A candidate makes a partner exactly if it is not excluded, its distance is known, and the tag
last heard it with the sequence number that the sender heard. -/
theorem partner?_eq_some_iff {t : Table K} {now : Millis} {sender : Record K}
    {exclude : Option AnchorId} {candidate : AnchorId × UInt8} {q : Partner} :
    partner? t now sender exclude candidate = some q ↔
      exclude ≠ some candidate.1 ∧ (sender.flight? t.windows now candidate.1).isSome ∧
      ∃ slot record, t.slot? candidate.1 = some slot ∧ t.records[slot]? = some record ∧
        record.sequence = candidate.2 ∧ record.rxTime.isSome ∧
        q = ⟨⟨slot, candidate.1, now⟩, Millis.since record.lastUpdate now⟩ := by
  rw [partner?]
  simp only [Table.get?, Option.bind_eq_bind]
  constructor
  · intro h
    obtain ⟨_, hexclude, h⟩ := Option.bind_eq_some_iff.1 h
    obtain ⟨flight, hflight, h⟩ := Option.bind_eq_some_iff.1 h
    obtain ⟨handle, hhandle, h⟩ := Option.bind_eq_some_iff.1 h
    obtain ⟨record, hrecord, h⟩ := Option.bind_eq_some_iff.1 h
    obtain ⟨_, hmatch, h⟩ := Option.bind_eq_some_iff.1 h
    obtain ⟨slot, hslot, rfl⟩ := Option.map_eq_some_iff.1 hhandle
    have hexclude := (Option.guard_eq_some' _).1 hexclude
    have hmatch := (Option.guard_eq_some' _).1 hmatch
    exact ⟨hexclude, by simp [hflight], slot, record, hslot, hrecord, hmatch.1, hmatch.2,
      (Option.some.inj h).symm⟩
  · rintro ⟨hexclude, hflight, slot, record, hslot, hrecord, hsequence, hrx, rfl⟩
    obtain ⟨flight, hflight⟩ := Option.isSome_iff_exists.1 hflight
    simp [hexclude, hflight, hslot, hrecord, hsequence, hrx, guard]

theorem mem_of_youngest? {qs : List Partner} {q : Partner} (h : youngest? qs = some q) :
    q ∈ qs := by
  induction qs generalizing q with
  | nil => cases h
  | cons p rest ih =>
      rw [youngest?] at h
      cases hrest : youngest? rest with
      | none =>
          rw [hrest] at h
          simp_all
      | some best =>
          rw [hrest] at h
          have hbest := ih hrest
          by_cases hage : best.age < p.age <;> simp_all

theorem mem_of_mem_rotated {turn : UInt64} {candidates : List (AnchorId × UInt8)}
    {c : AnchorId × UInt8} (h : c ∈ rotated turn candidates) : c ∈ candidates := by
  obtain ⟨i, -, hget⟩ := List.mem_filterMap.1 h
  exact List.mem_of_getElem? hget

/-- Whoever is chosen is a partner that one of the sender's live reports makes. -/
theorem exists_of_choose {p : Pairing} {t : Table K} {now : Millis} {sender : Record K}
    {exclude : Option AnchorId} {h : Handle}
    (hchoose : (p.choose t now sender exclude).1 = some h) :
    ∃ candidate ∈ sender.heard t.windows now, ∃ q,
      partner? t now sender exclude candidate = some q ∧ q.handle = h := by
  rw [choose] at hchoose
  cases hstrategy : p.strategy with
  | never =>
      simp [hstrategy] at hchoose
  | random =>
      simp only [hstrategy, Option.map_eq_some_iff] at hchoose
      obtain ⟨q, hq, hhandle⟩ := hchoose
      obtain ⟨candidate, hmem, hpartner⟩ := List.exists_of_findSome?_eq_some hq
      exact ⟨candidate, List.mem_of_mem_take (mem_of_mem_rotated hmem), q, hpartner, hhandle⟩
  | youngest =>
      simp only [hstrategy, Option.map_eq_some_iff] at hchoose
      obtain ⟨q, hq, hhandle⟩ := hchoose
      obtain ⟨candidate, hmem, hpartner⟩ := List.mem_filterMap.1 (mem_of_youngest? hq)
      exact ⟨candidate, List.mem_of_mem_take hmem, q, hpartner, hhandle⟩

/-- The chosen handle is good, and its anchor is one that can pair with the sender. -/
theorem read_of_choose {p : Pairing} {t : Table K} {now : Millis} {sender : Record K}
    {exclude : Option AnchorId} {h : Handle}
    (hchoose : (p.choose t now sender exclude).1 = some h) :
    ∃ other, t.read h = .ok other ∧ t.find? h.id = some other ∧ h.now = now ∧
      exclude ≠ some h.id ∧ (h.id, other.sequence) ∈ sender.heard t.windows now ∧
      other.rxTime.isSome ∧ (sender.flight? t.windows now h.id).isSome := by
  obtain ⟨candidate, hmem, q, hpartner, rfl⟩ := exists_of_choose hchoose
  obtain ⟨hexclude, hflight, slot, record, hslot, hget, hsequence, hrx, rfl⟩ :=
    partner?_eq_some_iff.1 hpartner
  obtain ⟨other, hother, hid, hfind⟩ := Table.slot?_eq_some hslot
  obtain rfl : record = other := Option.some.inj (hget.symm.trans hother)
  refine ⟨record, Table.read_eq_ok hget hid, hfind, rfl, hexclude, ?_, hrx, hflight⟩
  rw [hsequence]
  exact hmem

end Pairing

/-! ## The receiver -/

namespace Receiver

variable {K : Type} [Scalar K]

/-- The sender's record when a partner is looked for. -/
def prepared (r : Receiver K) (a : Arrival K) : Record K :=
  (r.table.sender a.source).prepare r.filter a

/-- The table when a partner is looked for. -/
def preparedTable (r : Receiver K) (a : Arrival K) : Table K :=
  (r.table.entered a.source a.now).put (r.table.slotFor a.source a.now) (r.prepared a)

/-- The clock filter accepts the timing of a packet. -/
def reliable (r : Receiver K) (a : Arrival K) : Bool :=
  ((r.table.sender a.source).timing r.filter a).1

/-- The partner of the sender of a packet, and the state of the strategy afterwards. Nobody is
looked for without reliable timing or without a ratio. -/
def choice (r : Receiver K) (a : Arrival K) : Option Handle × Pairing :=
  if r.reliable a = true ∧ ¬ (r.prepared a).clock.ratio ≤ 0.0 then
    r.pairing.choose (r.preparedTable a) a.now (r.prepared a) none
  else (none, r.pairing)

/-- The record of the partner. -/
def partner? (r : Receiver K) (a : Arrival K) : Option (Record K) :=
  (r.choice a).1.bind fun h => (r.preparedTable a).records[h.slot]?

/-- The measurement that a packet gives with a partner, if everything it needs is still valid. -/
def measurementWith? (r : Receiver K) (a : Arrival K) (other : Record K) :
    Option (Measurement K) := do
  let difference ← (r.prepared a).arrivalDifference? other r.table.windows a
  let first ← other.freshPosition? r.table.windows a.now
  let second ← (r.prepared a).freshPosition? r.table.windows a.now
  return {
    first := other.id
    second := a.source
    firstPosition := first.value
    secondPosition := second.value
    distanceDiff := speedOfLight * difference / r.tickFrequency
    stdDev := r.stdDev }

/-- The measurement that a packet leads to. -/
def measurement? (r : Receiver K) (a : Arrival K) : Option (Measurement K) :=
  (r.partner? a).bind (r.measurementWith? a)

/-- The receiver once the sender of a packet has entered. -/
def entered (r : Receiver K) (a : Arrival K) : Receiver K :=
  { r with
    table := r.table.entered a.source a.now
    diagnostics := ((r.diagnostics.count .packetReceived).update a.now).count
      (if r.table.contains a.source then .known else .entered) }

/-- The receiver once the sender's reports are stored. -/
def heard (r : Receiver K) (a : Arrival K) : Receiver K :=
  { r with
    table := (r.table.entered a.source a.now).put (r.table.slotFor a.source a.now)
      ((r.table.sender a.source).hear a)
    diagnostics := a.others.foldl (·.recordReport a.source ·) (r.entered a).diagnostics }

/-- The receiver once the clock filter has run. -/
def timed (r : Receiver K) (a : Arrival K) : Receiver K :=
  { r with
    table := r.preparedTable a
    diagnostics :=
      if r.reliable a then
        (r.heard a).diagnostics.recordClockRatio a.source (r.prepared a).clock.ratio
      else (r.heard a).diagnostics }

/-- The receiver once a partner has been looked for, on reliable timing. -/
def chosen (r : Receiver K) (a : Arrival K) : Receiver K :=
  { r with
    table := r.preparedTable a
    diagnostics := (r.timed a).diagnostics.count .reliable
    pairing := (r.choice a).2 }

/-- What a packet leaves in the diagnostics. -/
def nextDiagnostics (r : Receiver K) (a : Arrival K) : Diagnostics K :=
  let d := if r.reliable a then (r.chosen a).diagnostics else (r.timed a).diagnostics
  let d := if (r.partner? a).isSome then d.count .paired else d
  match r.measurement? a with
  | some m => (d.count .sent).recordDistanceDiff m.first m.second m.distanceDiff
  | none => d

/-- The receiver when the pipeline has run, before the times and the position are stored. -/
def ranged (r : Receiver K) (a : Arrival K) : Receiver K :=
  { r with
    table := r.preparedTable a
    diagnostics := r.nextDiagnostics a
    pairing := (r.choice a).2
    outbox := r.outbox ++ (r.measurement? a).toList }

/-- The receiver after a packet. -/
def after (r : Receiver K) (a : Arrival K) : Receiver K :=
  { r.ranged a with
    table := (r.table.entered a.source a.now).put (r.table.slotFor a.source a.now)
      ((r.table.sender a.source).receive r.filter a) }

/-- The handle of the sender of a packet. -/
def senderHandle (r : Receiver K) (a : Arrival K) : Handle :=
  ⟨r.table.slotFor a.source a.now, a.source, a.now⟩

@[simp] theorem senderHandle_slot (r : Receiver K) (a : Arrival K) :
    (r.senderHandle a).slot = r.table.slotFor a.source a.now := rfl

@[simp] theorem senderHandle_id (r : Receiver K) (a : Arrival K) :
    (r.senderHandle a).id = a.source := rfl

@[simp] theorem senderHandle_now (r : Receiver K) (a : Arrival K) :
    (r.senderHandle a).now = a.now := rfl

@[simp] theorem preparedTable_windows (r : Receiver K) (a : Arrival K) :
    (r.preparedTable a).windows = r.table.windows :=
  Table.entered_windows r.table a.source a.now

theorem read_entered {r : Receiver K} (h : r.table.HasSlot) (a : Arrival K) :
    (r.table.entered a.source a.now).read (r.senderHandle a) = .ok (r.table.sender a.source) :=
  Table.read_eq_ok (Table.records_slotFor h a.source a.now) (Table.sender_id r.table a.source)

theorem read_preparedTable {r : Receiver K} (h : r.table.HasSlot) (a : Arrival K) :
    (r.preparedTable a).read (r.senderHandle a) = .ok (r.prepared a) :=
  Table.read_put_self (read_entered h a) (Record.prepare_id _ _ _)

theorem enter_eq (r : Receiver K) (a : Arrival K) :
    (r.count .packetReceived).enter a.source a.now = (r.senderHandle a, r.entered a) := by
  rw [enter, count_table, Table.enter_eq]
  rfl

omit [Scalar K] in
theorem learn_eq {r : Receiver K} {h : Handle} {ρ : Record K} (hread : r.table.read h = .ok ρ)
    (reports : List Report) :
    r.learn h reports = .ok { r with
      table := r.table.put h.slot
        ((reports.filter (·.neighbour ≠ h.id)).foldl (·.learn h.now ·) ρ)
      diagnostics := (reports.filter (·.neighbour ≠ h.id)).foldl
        (·.recordReport h.id ·) r.diagnostics } := by
  simp only [learn, Table.modify_eq_put hread, bind, Except.bind, pure, Except.pure]

theorem updateClock_eq {r : Receiver K} {a : Arrival K} {h : Handle} {ρ : Record K}
    (hread : r.table.read h = .ok ρ) :
    r.updateClock h a.broadcast.txTime a.rxTime = .ok ((ρ.timing r.filter a).1, { r with
      table := r.table.put h.slot { ρ with clock := (ρ.timing r.filter a).2 }
      diagnostics := if (ρ.timing r.filter a).1 then
        r.diagnostics.recordClockRatio h.id (ρ.timing r.filter a).2.ratio
        else r.diagnostics }) := by
  have hget := (Table.read_eq_ok_iff.1 hread).1
  rw [updateClock, Record.timing]
  cases hcandidate : ratioCandidate? ρ a.broadcast.txTime a.rxTime with
  | none =>
      simp only [hread, hcandidate, bind, Except.bind, pure, Except.pure, Bool.false_eq_true,
        if_false]
      rw [Table.put_eq_self hget]
  | some candidate =>
      simp only [hread, hcandidate, bind, Except.bind, pure, Except.pure, Table.setClock,
        Table.modify_eq_put hread]
      cases (r.filter.update ρ.clock candidate).1 <;> simp

theorem findPartner_eq {r : Receiver K} {h : Handle} {ρ : Record K}
    (hread : r.table.read h = .ok ρ) (exclude : Option AnchorId) :
    r.findPartner h exclude = .ok (if ρ.clock.ratio ≤ 0.0 then (none, r) else
      ((r.pairing.choose r.table h.now ρ exclude).1,
        { r with pairing := (r.pairing.choose r.table h.now ρ exclude).2 })) := by
  simp only [findPartner, Table.clock, hread, Pairing.pick_eq _ hread, bind, Except.bind, pure,
    Except.pure]
  split <;> rfl

theorem distanceDiff?_eq {r : Receiver K} {h other : Handle} {ρ ο : Record K}
    (hread : r.table.read h = .ok ρ) (hother : r.table.read other = .ok ο) {a : Arrival K}
    (hnow : h.now = a.now) :
    r.distanceDiff? other h a.broadcast.txTime a.rxTime =
      .ok ((ρ.arrivalDifference? ο r.table.windows a).map
        fun d => speedOfLight * d / r.tickFrequency) := by
  have hid : ο.id = other.id := (Table.read_eq_ok_iff.1 hother).2
  rw [distanceDiff?, arrivalDifference?, Record.arrivalDifference?]
  simp only [Table.flight?, Table.reception?, Table.rxTime?, Table.clock, hread, hother, hnow, hid,
    bind, Except.bind, pure, Except.pure]
  cases hflight : ρ.flight? r.table.windows a.now other.id with
  | none => rfl
  | some flight =>
      cases hreception : ρ.reception? r.table.windows a.now other.id with
      | none => rfl
      | some reception => cases hrx : ο.rxTime <;> rfl

theorem send_eq {r : Receiver K} {h other : Handle} {ρ ο : Record K} {now : Millis}
    (hread : r.table.read h = .ok ρ) (hother : r.table.read other = .ok ο)
    (hnow : h.now = now) (hnow' : other.now = now) (difference : K) :
    r.send other h difference =
      .ok (match ο.freshPosition? r.table.windows now, ρ.freshPosition? r.table.windows now with
        | some first, some second => { r with
            diagnostics := (r.diagnostics.count .sent).recordDistanceDiff other.id h.id difference
            outbox := r.outbox ++
              [⟨other.id, h.id, first.value, second.value, difference, r.stdDev⟩] }
        | _, _ => r) := by
  simp only [send, Table.position?, hread, hother, hnow, hnow', bind, Except.bind, pure,
    Except.pure]
  cases ο.freshPosition? r.table.windows now with
  | none => rfl
  | some first => cases ρ.freshPosition? r.table.windows now <;> rfl

/-- Nobody is looked for unless the timing is reliable and there is a ratio. -/
theorem choice_of_not {r : Receiver K} {a : Arrival K}
    (h : ¬ (r.reliable a = true ∧ ¬ (r.prepared a).clock.ratio ≤ 0.0)) :
    r.choice a = (none, r.pairing) := by
  rw [choice, if_neg h]

theorem partner?_of_choice_none {r : Receiver K} {a : Arrival K} (h : (r.choice a).1 = none) :
    r.partner? a = none := by
  rw [partner?, h]
  rfl

theorem measurement?_of_partner_none {r : Receiver K} {a : Arrival K} (h : r.partner? a = none) :
    r.measurement? a = none := by
  rw [measurement?, h]
  rfl

/-- The partner that is chosen can be read, and is the one that the measurement uses. -/
theorem read_of_choice {r : Receiver K} {a : Arrival K} {h : Handle}
    (hchoice : (r.choice a).1 = some h) :
    ∃ other, (r.preparedTable a).read h = .ok other ∧ r.partner? a = some other ∧
      h.now = a.now := by
  rw [choice] at hchoice
  split at hchoice
  · rename_i hgood
    obtain ⟨other, hread, -, hnow, -⟩ := Pairing.read_of_choose hchoice
    refine ⟨other, hread, ?_, hnow⟩
    rw [partner?, choice, if_pos hgood, hchoice]
    exact (Table.read_eq_ok_iff.1 hread).1
  · cases hchoice

theorem read_heard {r : Receiver K} (h : r.table.HasSlot) (a : Arrival K) :
    (r.heard a).table.read (r.senderHandle a) = .ok ((r.table.sender a.source).hear a) :=
  Table.read_put_self (read_entered h a) (Record.hear_id _ _)

theorem updateClock_heard {r : Receiver K} (h : r.table.HasSlot) (a : Arrival K) :
    (r.heard a).updateClock (r.senderHandle a) a.broadcast.txTime a.rxTime =
      .ok (r.reliable a, r.timed a) := by
  rw [updateClock_eq (read_heard h a), Record.timing_hear]
  simp only [heard, senderHandle_slot, Table.put_put]
  rfl

theorem findPartner_timed {r : Receiver K} (h : r.table.HasSlot) {a : Arrival K}
    (hreliable : r.reliable a = true) :
    ((r.timed a).count .reliable).findPartner (r.senderHandle a) none =
      .ok ((r.choice a).1, r.chosen a) := by
  have hread : ((r.timed a).count .reliable).table.read (r.senderHandle a) = .ok (r.prepared a) :=
    read_preparedTable h a
  rw [findPartner_eq hread]
  by_cases hratio : (r.prepared a).clock.ratio ≤ 0.0
  · rw [if_pos hratio, chosen, choice_of_not (by simp [hratio])]
    rfl
  · rw [if_neg hratio, chosen, choice, if_pos ⟨hreliable, hratio⟩]
    rfl

/-- The ranging pipeline on a packet whose reports are stored. -/
theorem process_heard {r : Receiver K} (h : r.table.HasSlot) (a : Arrival K) :
    (r.heard a).process (r.senderHandle a) a.broadcast.txTime a.rxTime =
      .ok (r.reliable a, r.ranged a) := by
  rw [process]
  simp only [updateClock_heard h a, bind, Except.bind, pure, Except.pure]
  cases hreliable : r.reliable a with
  | false =>
      have hchoice : r.choice a = (none, r.pairing) := choice_of_not (by simp [hreliable])
      have hpartner := partner?_of_choice_none (congrArg Prod.fst hchoice)
      have hnone := measurement?_of_partner_none hpartner
      simp [ranged, nextDiagnostics, timed, hreliable, hchoice, hpartner, hnone]
  | true =>
      simp only [findPartner_timed h hreliable, Bool.not_true, Bool.false_eq_true, if_false]
      cases hchoice : (r.choice a).1 with
      | none =>
          have hpartner := partner?_of_choice_none hchoice
          have hnone := measurement?_of_partner_none hpartner
          simp [ranged, chosen, nextDiagnostics, hreliable, hpartner, hnone]
      | some handle =>
          obtain ⟨other, hother, hpartner, hnow⟩ := read_of_choice hchoice
          have hid : other.id = handle.id := (Table.read_eq_ok_iff.1 hother).2
          have hread : ((r.chosen a).count .paired).table.read (r.senderHandle a) =
              .ok (r.prepared a) := read_preparedTable h a
          have hmeasurement : r.measurement? a = r.measurementWith? a other := by
            rw [measurement?, hpartner]
            rfl
          have hwindows : ((r.chosen a).count .paired).table.windows = r.table.windows :=
            preparedTable_windows r a
          simp only [distanceDiff?_eq hread hother (a := a) rfl,
            send_eq hread hother (senderHandle_now r a) hnow, hwindows]
          rw [ranged, nextDiagnostics, if_pos hreliable, hpartner, hmeasurement, measurementWith?]
          cases (r.prepared a).arrivalDifference? other r.table.windows a with
          | none => simp [chosen, count]
          | some difference =>
              cases other.freshPosition? r.table.windows a.now with
              | none => simp [chosen, count]
              | some first =>
                  cases (r.prepared a).freshPosition? r.table.windows a.now <;>
                    simp [chosen, count, hid]

theorem learn_entered {r : Receiver K} (h : r.table.HasSlot) (a : Arrival K) :
    (r.entered a).learn (r.senderHandle a) a.broadcast.reports = .ok (r.heard a) := by
  rw [learn_eq (r := r.entered a) (read_entered h a)]
  rfl

/-- What handling a packet comes to. It never fails on a handle. -/
theorem handle_eq {r : Receiver K} (h : r.table.HasSlot) (a : Arrival K) :
    r.handle a.broadcast a.rxTime a.now = .ok (r.reliable a, r.after a) := by
  have henter : (r.count .packetReceived).enter a.broadcast.source a.now =
      (r.senderHandle a, r.entered a) := enter_eq r a
  have hread : (r.ranged a).table.read (r.senderHandle a) = .ok (r.prepared a) :=
    read_preparedTable h a
  have hstored := Table.read_put_self hread
    (Record.setBroadcast_id (r.prepared a) a.now a.rxTime a.broadcast.txTime
      (a.broadcast.sequence &&& sequenceMask))
  have htable : ∀ ρ, (r.ranged a).table.put (r.table.slotFor a.source a.now) ρ =
      (r.table.entered a.source a.now).put (r.table.slotFor a.source a.now) ρ :=
    fun ρ => Table.put_put _ _ _ ρ
  rw [senderHandle_slot, htable] at hstored
  rw [handle]
  simp only [henter, learn_entered h a, process_heard h a, Table.setBroadcast, Table.setPosition,
    Table.modify_eq_put hread, bind, Except.bind, pure, Except.pure]
  rw [after, Record.receive]
  cases a.broadcast.position with
  | none =>
      simp only [senderHandle_slot, senderHandle_now, htable]
      rfl
  | some point =>
      simp only [senderHandle_slot, senderHandle_now, htable, Table.modify_eq_put hstored,
        Table.put_put]
      rfl

/-- Without a single slot, the sender of a packet has no place, and handling fails. -/
theorem handle_of_not_hasSlot {r : Receiver K} (h : ¬ r.table.HasSlot) (a : Arrival K) :
    r.handle a.broadcast a.rxTime a.now = .error ⟨a.source⟩ := by
  obtain ⟨hempty, hcapacity⟩ := Classical.not_imp.1 h
  have hread : (r.entered a).table.read (r.senderHandle a) = .error ⟨a.source⟩ := by
    have hrecords : (r.entered a).table.records = [] := by
      simp [entered, Table.entered, Table.enter, Table.slot?, Table.size, hempty, hcapacity]
    simp [Table.read, hrecords]
  have henter : (r.count .packetReceived).enter a.broadcast.source a.now =
      (r.senderHandle a, r.entered a) := enter_eq r a
  rw [handle]
  simp [henter, learn, Table.modify, hread, bind, Except.bind]

/-- A packet that does not fail has this outcome. -/
theorem eq_after_of_handle {r r' : Receiver K} {a : Arrival K} {flag : Bool}
    (h : r.handle a.broadcast a.rxTime a.now = .ok (flag, r')) :
    r.table.HasSlot ∧ flag = r.reliable a ∧ r' = r.after a := by
  by_cases hslot : r.table.HasSlot
  · rw [handle_eq hslot] at h
    cases h
    exact ⟨hslot, rfl, rfl⟩
  · rw [handle_of_not_hasSlot hslot] at h
    cases h

/-! ## Where a measurement comes from -/

/-- A packet that gives a candidate ratio is not the first of its anchor. -/
theorem find?_of_ratioCandidate? {r : Receiver K} {id : AnchorId} {txTime rxTime : Ticks}
    {candidate : K} (h : ratioCandidate? (r.table.sender id) txTime rxTime = some candidate) :
    r.table.find? id = some (r.table.sender id) := by
  cases hfind : r.table.find? id with
  | some ρ => rw [Table.sender_of_find? hfind]
  | none =>
      rw [Table.sender_of_absent hfind] at h
      cases h

/-- A packet with reliable timing gives a candidate that the clock filter accepts. -/
theorem reliable_eq_true_iff {r : Receiver K} {a : Arrival K} :
    r.reliable a = true ↔ ∃ candidate,
      ratioCandidate? (r.table.sender a.source) a.broadcast.txTime a.rxTime = some candidate ∧
      r.filter.accepts (r.table.sender a.source).clock candidate = true := by
  rw [reliable, Record.timing]
  cases ratioCandidate? (r.table.sender a.source) a.broadcast.txTime a.rxTime <;> simp

theorem find?_of_reliable {r : Receiver K} {a : Arrival K} (h : r.reliable a = true) :
    r.table.find? a.source = some (r.table.sender a.source) := by
  obtain ⟨candidate, hcandidate, -⟩ := reliable_eq_true_iff.1 h
  exact find?_of_ratioCandidate? hcandidate

theorem find?_preparedTable {r : Receiver K} (h : r.table.HasSlot) (a : Arrival K)
    (id : AnchorId) :
    (r.preparedTable a).find? id =
      if id = a.source then some (r.prepared a) else (r.table.entered a.source a.now).find? id := by
  have hid : (r.prepared a).id = a.source := by
    rw [prepared, Record.prepare_id, Table.sender_id]
  have hslot : (r.table.entered a.source a.now).slot? (r.prepared a).id =
      some (r.table.slotFor a.source a.now) := by
    rw [hid]
    exact Table.slot?_entered h a.source a.now
  rw [preparedTable, Table.find?_put hslot, hid]

/-- A partner is looked for on reliable timing and with a ratio only. It is stored, the sender
reports on the broadcast that the tag last heard from it, and the distance is known. -/
theorem partner?_spec {r : Receiver K} {a : Arrival K} {other : Record K}
    (hpartner : r.partner? a = some other) :
    r.reliable a = true ∧ ¬ (r.prepared a).clock.ratio ≤ 0.0 ∧
      (r.preparedTable a).find? other.id = some other ∧
      (other.id, other.sequence) ∈ (r.prepared a).heard r.table.windows a.now ∧
      other.rxTime.isSome ∧
      ((r.prepared a).flight? r.table.windows a.now other.id).isSome := by
  rw [partner?, choice] at hpartner
  split at hpartner
  · rename_i hgood
    obtain ⟨handle, hchoose, hget⟩ := Option.bind_eq_some_iff.1 hpartner
    obtain ⟨record, hread, hfind, hnow, -, hheard, hrx, hflight⟩ := Pairing.read_of_choose hchoose
    obtain ⟨hget', hid⟩ := Table.read_eq_ok_iff.1 hread
    obtain rfl : record = other := Option.some.inj (hget'.symm.trans hget)
    rw [preparedTable_windows] at hheard hflight
    rw [← hid] at hfind hheard hflight
    exact ⟨hgood.1, hgood.2, hfind, hheard, hrx, hflight⟩
  · cases hpartner

theorem measurement?_eq_some_iff {r : Receiver K} {a : Arrival K} {m : Measurement K} :
    r.measurement? a = some m ↔ ∃ other difference first second,
      r.partner? a = some other ∧
      (r.prepared a).arrivalDifference? other r.table.windows a = some difference ∧
      other.freshPosition? r.table.windows a.now = some first ∧
      (r.prepared a).freshPosition? r.table.windows a.now = some second ∧
      m = ⟨other.id, a.source, first.value, second.value,
        speedOfLight * difference / r.tickFrequency, r.stdDev⟩ := by
  simp only [measurement?, measurementWith?, Option.bind_eq_bind, Option.bind_eq_some_iff,
    Option.pure_def, Option.some.injEq, eq_comm (b := m)]
  constructor
  · rintro ⟨other, hother, difference, hdifference, first, hfirst, second, hsecond, rfl⟩
    exact ⟨other, difference, first, second, hother, hdifference, hfirst, hsecond, rfl⟩
  · rintro ⟨other, difference, first, second, hother, hdifference, hfirst, hsecond, rfl⟩
    exact ⟨other, hother, difference, hdifference, first, hfirst, second, hsecond, rfl⟩

/-- The record that a measurement's first anchor has before the packet. -/
theorem find?_of_partner? {r : Receiver K} (h : r.table.HasSlot) {a : Arrival K}
    {other : Record K} (hpartner : r.partner? a = some other) :
    ∃ ρ, r.table.find? other.id = some ρ ∧ ρ.rxTime = other.rxTime ∧
      ρ.sequence = other.sequence := by
  obtain ⟨hreliable, -, hfind, -⟩ := partner?_spec hpartner
  have hstored := find?_of_reliable hreliable
  rw [find?_preparedTable h, Table.entered_of_find? hstored] at hfind
  split at hfind
  · rename_i hsame
    obtain rfl : r.prepared a = other := Option.some.inj hfind
    refine ⟨r.table.sender a.source, by rw [hsame, hstored], ?_, ?_⟩
    · rw [prepared, Record.prepare_eq]
    · rw [prepared, Record.prepare_eq]
  · exact ⟨other, hfind, rfl, rfl⟩

/-! ## The table after a packet -/

theorem after_table (r : Receiver K) (a : Arrival K) :
    (r.after a).table = (r.table.entered a.source a.now).put (r.table.slotFor a.source a.now)
      ((r.table.sender a.source).receive r.filter a) := rfl

@[simp] theorem after_filter (r : Receiver K) (a : Arrival K) : (r.after a).filter = r.filter := rfl

@[simp] theorem after_tickFrequency (r : Receiver K) (a : Arrival K) :
    (r.after a).tickFrequency = r.tickFrequency := rfl

@[simp] theorem after_outbox (r : Receiver K) (a : Arrival K) :
    (r.after a).outbox = r.outbox ++ (r.measurement? a).toList := rfl

@[simp] theorem after_windows (r : Receiver K) (a : Arrival K) :
    (r.after a).table.windows = r.table.windows :=
  Table.entered_windows r.table a.source a.now

/-- A packet keeps the table sound. -/
theorem sound_after {r : Receiver K} (h : r.table.Sound) (a : Arrival K) :
    (r.after a).table.Sound :=
  (h.entered a.source a.now).put (Table.records_slotFor h.hasSlot a.source a.now) (by simp)

/-- A packet puts a record for its sender, and changes what is stored for others by entering
only. -/
theorem find?_after {r : Receiver K} (h : r.table.HasSlot) (a : Arrival K) (id : AnchorId) :
    (r.after a).table.find? id =
      if id = a.source then some ((r.table.sender a.source).receive r.filter a)
      else (r.table.entered a.source a.now).find? id := by
  have hid : ((r.table.sender a.source).receive r.filter a).id = a.source := by
    rw [Record.receive_id, Table.sender_id]
  have hslot : (r.table.entered a.source a.now).slot?
      ((r.table.sender a.source).receive r.filter a).id = some (r.table.slotFor a.source a.now) := by
    rw [hid]
    exact Table.slot?_entered h a.source a.now
  rw [after_table, Table.find?_put hslot, hid]

/-- The sender is stored afterwards. -/
theorem find?_after_self {r : Receiver K} (h : r.table.HasSlot) (a : Arrival K) :
    (r.after a).table.find? a.source = some ((r.table.sender a.source).receive r.filter a) := by
  rw [find?_after h, if_pos rfl]

/-- Another anchor has the record it had before, if it is stored at all. -/
theorem find?_after_of_ne {r : Receiver K} (h : r.table.Sound) (a : Arrival K) {id : AnchorId}
    (hne : id ≠ a.source) {ρ : Record K} (hfind : (r.after a).table.find? id = some ρ) :
    r.table.find? id = some ρ := by
  rw [find?_after h.hasSlot, if_neg hne] at hfind
  exact Table.find?_entered_of_ne h a.now hne hfind

/-- What a measurement is computed from. The reports, the ratio and the times of the sender are those
that it has after the packet, the tag's reception time of the partner is the one stored before, and
the sender heard the partner with the sequence number stored before. -/
theorem measurement?_spec {r : Receiver K} (h : r.table.HasSlot) {a : Arrival K} {m : Measurement K}
    (hm : r.measurement? a = some m) :
    m.second = a.source ∧ ∃ sender other flight reception otherRx,
      (r.after a).table.find? a.source = some sender ∧
      sender.flight? r.table.windows a.now m.first = some flight ∧
      sender.reception? r.table.windows a.now m.first = some reception ∧
      (m.first, other.sequence) ∈ sender.heard r.table.windows a.now ∧
      r.table.find? m.first = some other ∧ other.rxTime = some otherRx ∧
      m.distanceDiff = speedOfLight *
        (Scalar.ofInt (Ticks.elapsed otherRx a.rxTime).toInt
          - Scalar.ofInt (flight + Ticks.elapsed reception.time a.broadcast.txTime).toInt
            * sender.clock.ratio) / r.tickFrequency := by
  obtain ⟨other, difference, first, second, hpartner, hdifference, -, -, rfl⟩ :=
    measurement?_eq_some_iff.1 hm
  obtain ⟨-, -, -, hheard, -⟩ := partner?_spec hpartner
  obtain ⟨ρ, hρ, hρrx, hρsequence⟩ := find?_of_partner? h hpartner
  obtain ⟨flight, reception, otherRx, hflight, hreception, hrx, rfl⟩ :=
    Record.arrivalDifference?_eq_some_iff.1 hdifference
  refine ⟨rfl, _, ρ, flight, reception, otherRx, find?_after_self h a, ?_, ?_, ?_, hρ,
    hρrx.trans hrx, ?_⟩
  · rwa [Record.receive_flight?]
  · rwa [Record.receive_reception?]
  · rw [Record.receive_heard, hρsequence]
    exact hheard
  · rw [Record.receive_clock, prepared, Record.prepare_clock]

end Receiver

end Ranging

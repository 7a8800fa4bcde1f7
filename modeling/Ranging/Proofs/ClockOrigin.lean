import Ranging.Proofs.Run
import Ranging.Proofs.Ticks

/-!
# Independence of clock origins

No radio knows when the counter of another one was at zero. What a receiver does must therefore
not change if all readings of one clock are moved by a constant, modulo the counter's period, and
it must not matter which of the words that stand for a reading is used.

The proof compares a run with its image under a `Rebasing`, which replaces every reading by
another one of the same clock so that ticks between readings stay. Handling a packet commutes with
it: the image of a receiver handles the image of a packet as the receiver handles the packet.
Two runs whose readings differ by constants have a common image, so neither can be told from the
other by flags, measurements, clock ratios or diagnostics.
-/

namespace Ranging

/-- A replacement of clock readings that keeps the ticks between any two readings of one clock.
Zero is kept free, since reports use it for a reception that did not take place. -/
structure Rebasing where
  /-- The tag's clock. -/
  tag : Ticks → Ticks
  /-- The clock of an anchor. -/
  anchor : AnchorId → Ticks → Ticks
  elapsed_tag : ∀ s t, Ticks.elapsed (tag s) (tag t) = Ticks.elapsed s t
  elapsed_anchor : ∀ id s t, Ticks.elapsed (anchor id s) (anchor id t) = Ticks.elapsed s t
  anchor_ne_zero : ∀ id t, anchor id t ≠ 0

variable {K : Type}

/-! ## Images of packets -/

/-- A report with its reception read off another clock. -/
def Report.rebase (clock : Ticks → Ticks) (report : Report) : Report :=
  { report with rxTime := if report.rxTime = 0 then 0 else clock report.rxTime }

@[simp] theorem Report.rebase_sequence (clock : Ticks → Ticks) (report : Report) :
    (report.rebase clock).sequence = report.sequence := rfl

namespace Arrival

/-- A packet with all its times read off other clocks. -/
def rebase (R : Rebasing) (a : Arrival K) : Arrival K where
  broadcast := { a.broadcast with
    txTime := R.anchor a.source a.broadcast.txTime
    reports := a.broadcast.reports.map (·.rebase (R.anchor a.source)) }
  rxTime := R.tag a.rxTime
  now := a.now

@[simp] theorem rebase_source (R : Rebasing) (a : Arrival K) :
    (a.rebase R).source = a.source := rfl

@[simp] theorem rebase_now (R : Rebasing) (a : Arrival K) : (a.rebase R).now = a.now := rfl

@[simp] theorem rebase_rxTime (R : Rebasing) (a : Arrival K) :
    (a.rebase R).rxTime = R.tag a.rxTime := rfl

@[simp] theorem rebase_txTime (R : Rebasing) (a : Arrival K) :
    (a.rebase R).broadcast.txTime = R.anchor a.source a.broadcast.txTime := rfl

@[simp] theorem rebase_sequence (R : Rebasing) (a : Arrival K) :
    (a.rebase R).broadcast.sequence = a.broadcast.sequence := rfl

@[simp] theorem rebase_position (R : Rebasing) (a : Arrival K) :
    (a.rebase R).broadcast.position = a.broadcast.position := rfl

theorem rebase_others (R : Rebasing) (a : Arrival K) :
    (a.rebase R).others = a.others.map (·.rebase (R.anchor a.source)) := by
  rw [others, rebase_source]
  exact List.filter_map ..

end Arrival

/-! ## Images of what is stored -/

namespace Recent

variable {α β : Type}

/-- The list with every value changed. -/
def map (f : α → β) (r : Recent α) : Recent β where
  capacity := r.capacity
  entries := r.entries.map fun e => { value := f e.value, written := e.written, key := e.key }

theorem map_write (f : α → β) (r : Recent α) (now : Millis) (key : AnchorId) (value : α) :
    (r.map f).write now key (f value) = (r.write now key value).map f := by
  have hindex : (r.map f).index? key = r.index? key := by
    simp [index?, map, List.findIdx?_map, Function.comp_def]
  simp only [write]
  rw [hindex]
  cases r.index? key with
  | some i => simp [map, List.map_set]
  | none =>
      by_cases hroom : r.entries.length < r.capacity
      · simp [map, hroom]
      · simp [map, hroom, List.map_set, Function.comp_def]

theorem map_find? (f : α → β) (r : Recent α) (window now : Millis) (key : AnchorId) :
    (r.map f).find? window now key = (r.find? window now key).map f := by
  rw [find?_eq_bind_stored?, find?_eq_bind_stored?]
  have hentry : (r.map f).stored? key =
      (r.stored? key).map fun e => { value := f e.value, written := e.written, key := e.key } :=
    List.find?_map ..
  rw [hentry]
  cases r.stored? key with
  | none => rfl
  | some e =>
      simp only [Option.map_some, Option.bind_some, Stamped.fresh?]
      split <;> rfl

end Recent

namespace Record

/-- A record with all its times read off other clocks. -/
def rebase (R : Rebasing) (r : Record K) : Record K :=
  { r with
    rxTime := r.rxTime.map R.tag
    txTime := r.txTime.map (R.anchor r.id)
    receptions := r.receptions.map fun reception =>
      { reception with time := R.anchor r.id reception.time } }

@[simp] theorem rebase_id (R : Rebasing) (r : Record K) : (r.rebase R).id = r.id := rfl

@[simp] theorem rebase_clock (R : Rebasing) (r : Record K) : (r.rebase R).clock = r.clock := rfl

@[simp] theorem rebase_lastUpdate (R : Rebasing) (r : Record K) :
    (r.rebase R).lastUpdate = r.lastUpdate := rfl

@[simp] theorem rebase_sequence (R : Rebasing) (r : Record K) :
    (r.rebase R).sequence = r.sequence := rfl

@[simp] theorem rebase_rxTime (R : Rebasing) (r : Record K) :
    (r.rebase R).rxTime = r.rxTime.map R.tag := rfl

@[simp] theorem rebase_flight? (R : Rebasing) (r : Record K) (windows : Windows) (now : Millis)
    (neighbour : AnchorId) :
    (r.rebase R).flight? windows now neighbour = r.flight? windows now neighbour := rfl

@[simp] theorem rebase_heard (R : Rebasing) (r : Record K) (windows : Windows) (now : Millis) :
    (r.rebase R).heard windows now = r.heard windows now := by
  simp [heard, rebase, Recent.live, Recent.map, List.filter_map, Function.comp_def]

theorem rebase_reception? (R : Rebasing) (r : Record K) (windows : Windows) (now : Millis)
    (neighbour : AnchorId) :
    (r.rebase R).reception? windows now neighbour =
      (r.reception? windows now neighbour).map fun reception =>
        { reception with time := R.anchor r.id reception.time } :=
  Recent.map_find? ..

/-- Storing a report commutes with a rebasing. -/
theorem rebase_learn (R : Rebasing) (r : Record K) (now : Millis) (report : Report) :
    (r.rebase R).learn now (report.rebase (R.anchor r.id)) = (r.learn now report).rebase R := by
  have hmap := Recent.map_write
    (fun reception : Reception => { reception with time := R.anchor r.id reception.time })
    r.receptions now report.neighbour ⟨report.rxTime, report.sequence &&& sequenceMask⟩
  have hne := R.anchor_ne_zero r.id report.rxTime
  rw [learn_eq, learn_eq]
  by_cases hrx : report.rxTime = 0
  · simp [rebase, Report.rebase, hrx]
  · simp [rebase, Report.rebase, hrx, hne, hmap]

theorem rebase_hear (R : Rebasing) (r : Record K) (a : Arrival K) (hid : r.id = a.source) :
    (r.rebase R).hear (a.rebase R) = (r.hear a).rebase R := by
  simp only [hear]
  rw [Arrival.rebase_others, Arrival.rebase_now, ← hid]
  induction a.others generalizing r with
  | nil => rfl
  | cons report rest ih =>
      have hlearn : (r.learn a.now report).id = r.id := by rw [learn_eq]
      rw [List.map_cons, List.foldl_cons, List.foldl_cons, rebase_learn, ← hlearn]
      exact ih _ (hlearn.trans hid)

variable [Scalar K]

/-- The candidate ratio of a packet is formed from ticks between readings. -/
theorem ratioCandidate?_rebase (R : Rebasing) (r : Record K) (txTime rxTime : Ticks) :
    Receiver.ratioCandidate? (r.rebase R) (R.anchor r.id txTime) (R.tag rxTime) =
      Receiver.ratioCandidate? r txTime rxTime := by
  simp only [Receiver.ratioCandidate?]
  cases hrx : r.rxTime with
  | none => simp [rebase, hrx]
  | some lastRx =>
      cases htx : r.txTime with
      | none => simp [rebase, hrx, htx]
      | some lastTx =>
          simp [rebase, hrx, htx, RatioFilter.candidate, Ticks.sub_and_counterMask, R.elapsed_tag,
            R.elapsed_anchor]

theorem rebase_timing (R : Rebasing) (r : Record K) (f : RatioFilter K) (a : Arrival K)
    (hid : r.id = a.source) : (r.rebase R).timing f (a.rebase R) = r.timing f a := by
  rw [timing, Arrival.rebase_txTime, Arrival.rebase_rxTime, ← hid, ratioCandidate?_rebase]
  rfl

theorem rebase_prepare (R : Rebasing) (r : Record K) (f : RatioFilter K) (a : Arrival K)
    (hid : r.id = a.source) :
    (r.rebase R).prepare f (a.rebase R) = (r.prepare f a).rebase R := by
  rw [prepare, rebase_hear R r a hid, rebase_timing R r f a hid]
  rfl

theorem rebase_receive (R : Rebasing) (r : Record K) (f : RatioFilter K) (a : Arrival K)
    (hid : r.id = a.source) :
    (r.rebase R).receive f (a.rebase R) = (r.receive f a).rebase R := by
  simp only [receive]
  rw [rebase_prepare R r f a hid, Arrival.rebase_position]
  cases a.broadcast.position <;> simp [rebase, setBroadcast, setPosition, hid]

/-- The difference of arrivals compares ticks between readings of the tag with ticks between
readings of the sender. -/
theorem rebase_arrivalDifference? (R : Rebasing) (sender other : Record K) (windows : Windows)
    (a : Arrival K) (hid : sender.id = a.source) :
    (sender.rebase R).arrivalDifference? (other.rebase R) windows (a.rebase R) =
      sender.arrivalDifference? other windows a := by
  simp only [arrivalDifference?]
  rw [rebase_reception?, rebase_flight?, rebase_rxTime, Arrival.rebase_now, rebase_id]
  cases sender.flight? windows a.now other.id with
  | none => simp
  | some flight =>
      cases sender.reception? windows a.now other.id with
      | none => simp
      | some reception =>
          cases other.rxTime with
          | none => simp
          | some otherRx =>
              simp only [Option.map_some, Option.bind_eq_bind, Option.bind_some, rebase_clock,
                Arrival.rebase_rxTime, Arrival.rebase_txTime, hid, R.elapsed_tag,
                R.elapsed_anchor]

end Record

namespace Table

/-- A table with all times read off other clocks. -/
def rebase (R : Rebasing) (t : Table K) : Table K :=
  { t with records := t.records.map (·.rebase R) }

@[simp] theorem rebase_capacity (R : Rebasing) (t : Table K) :
    (t.rebase R).capacity = t.capacity := rfl

@[simp] theorem rebase_windows (R : Rebasing) (t : Table K) :
    (t.rebase R).windows = t.windows := rfl

@[simp] theorem rebase_records (R : Rebasing) (t : Table K) :
    (t.rebase R).records = t.records.map (·.rebase R) := rfl

theorem rebase_slot? (R : Rebasing) (t : Table K) (id : AnchorId) :
    (t.rebase R).slot? id = t.slot? id := by
  rw [slot?, rebase_records, List.findIdx?_map]
  rfl

theorem rebase_contains (R : Rebasing) (t : Table K) (id : AnchorId) :
    (t.rebase R).contains id = t.contains id := by
  rw [contains, rebase_records, List.any_map]
  rfl

theorem rebase_put (R : Rebasing) (t : Table K) (slot : Nat) (r : Record K) :
    (t.rebase R).put slot (r.rebase R) = (t.put slot r).rebase R := by
  simp [put, rebase, List.map_set]

theorem rebase_find? (R : Rebasing) (t : Table K) (id : AnchorId) :
    (t.rebase R).find? id = (t.find? id).map (·.rebase R) := by
  rw [find?, rebase_records, List.find?_map]
  rfl

variable [Scalar K]

/-- A blank record holds no times. -/
theorem rebase_blank (R : Rebasing) (t : Table K) (id : AnchorId) :
    (t.rebase R).blank id = (t.blank id).rebase R := rfl

theorem rebase_sender (R : Rebasing) (t : Table K) (id : AnchorId) :
    (t.rebase R).sender id = (t.sender id).rebase R := by
  simp only [sender]
  rw [rebase_find?, rebase_blank]
  cases t.find? id <;> rfl

theorem rebase_enter (R : Rebasing) (t : Table K) (id : AnchorId) (now : Millis) :
    (t.rebase R).enter id now =
      ((t.enter id now).1, (t.enter id now).2.1, (t.enter id now).2.2.rebase R) := by
  simp only [enter]
  rw [rebase_slot?]
  cases t.slot? id with
  | some slot => rfl
  | none =>
      simp only [size, rebase_capacity, rebase_records, rebase_blank, List.length_map, List.map_map]
      by_cases hroom : t.records.length < t.capacity
      · simp [hroom, rebase]
      · simp [hroom, rebase, List.map_set, Function.comp_def]

theorem rebase_entered (R : Rebasing) (t : Table K) (id : AnchorId) (now : Millis) :
    (t.rebase R).entered id now = (t.entered id now).rebase R := by
  rw [entered, rebase_enter]
  rfl

theorem rebase_slotFor (R : Rebasing) (t : Table K) (id : AnchorId) (now : Millis) :
    (t.rebase R).slotFor id now = t.slotFor id now := by
  rw [slotFor, rebase_enter]
  rfl

end Table

/-! ## The choice of a partner -/

namespace Pairing

theorem rebase_partner? (R : Rebasing) (t : Table K) (now : Millis) (sender : Record K)
    (exclude : Option AnchorId) (candidate : AnchorId × UInt8) :
    partner? (t.rebase R) now (sender.rebase R) exclude candidate =
      partner? t now sender exclude candidate := by
  simp only [partner?, Record.rebase_flight?, Table.rebase_windows, Table.get?, Table.rebase_slot?,
    Table.rebase_records, List.getElem?_map]
  cases t.slot? candidate.1 with
  | none => rfl
  | some slot =>
      cases hget : t.records[slot]? with
      | none => simp [hget]
      | some record => simp [hget]

theorem rebase_choose (R : Rebasing) (p : Pairing) (t : Table K) (now : Millis)
    (sender : Record K) (exclude : Option AnchorId) :
    p.choose (t.rebase R) now (sender.rebase R) exclude = p.choose t now sender exclude := by
  have hpartner : partner? (t.rebase R) now (sender.rebase R) exclude =
      partner? t now sender exclude := funext (rebase_partner? R t now sender exclude)
  simp only [choose]
  rw [hpartner, Record.rebase_heard, Table.rebase_windows]

end Pairing

/-! ## Packets and runs -/

namespace Receiver

/-- A receiver with all times read off other clocks. -/
def rebase (R : Rebasing) (r : Receiver K) : Receiver K :=
  { r with table := r.table.rebase R }

@[simp] theorem rebase_table (R : Rebasing) (r : Receiver K) :
    (r.rebase R).table = r.table.rebase R := rfl

@[simp] theorem rebase_filter (R : Rebasing) (r : Receiver K) : (r.rebase R).filter = r.filter := rfl

variable [Scalar K]

theorem rebase_prepared (R : Rebasing) (r : Receiver K) (a : Arrival K) :
    (r.rebase R).prepared (a.rebase R) = (r.prepared a).rebase R := by
  have hid := Table.sender_id r.table a.source
  simp only [prepared]
  rw [rebase_table, rebase_filter, Arrival.rebase_source, Table.rebase_sender,
    Record.rebase_prepare R _ _ a hid]

theorem rebase_preparedTable (R : Rebasing) (r : Receiver K) (a : Arrival K) :
    (r.rebase R).preparedTable (a.rebase R) = (r.preparedTable a).rebase R := by
  simp only [preparedTable]
  rw [rebase_prepared, rebase_table, Arrival.rebase_source, Arrival.rebase_now,
    Table.rebase_entered, Table.rebase_slotFor, Table.rebase_put]

theorem rebase_reliable (R : Rebasing) (r : Receiver K) (a : Arrival K) :
    (r.rebase R).reliable (a.rebase R) = r.reliable a := by
  have hid := Table.sender_id r.table a.source
  simp only [reliable]
  rw [rebase_table, rebase_filter, Arrival.rebase_source, Table.rebase_sender,
    Record.rebase_timing R _ _ a hid]

theorem rebase_choice (R : Rebasing) (r : Receiver K) (a : Arrival K) :
    (r.rebase R).choice (a.rebase R) = r.choice a := by
  simp only [choice]
  rw [rebase_reliable, rebase_prepared, rebase_preparedTable, Record.rebase_clock]
  simp only [rebase, Pairing.rebase_choose, Arrival.rebase_now]

theorem rebase_partner? (R : Rebasing) (r : Receiver K) (a : Arrival K) :
    (r.rebase R).partner? (a.rebase R) = (r.partner? a).map (·.rebase R) := by
  simp only [partner?]
  rw [rebase_choice, rebase_preparedTable]
  cases (r.choice a).1 <;> simp

theorem rebase_measurement? (R : Rebasing) (r : Receiver K) (a : Arrival K) :
    (r.rebase R).measurement? (a.rebase R) = r.measurement? a := by
  have hid : (r.prepared a).id = a.source := by
    rw [prepared, Record.prepare_id, Table.sender_id]
  simp only [measurement?]
  rw [rebase_partner?]
  cases r.partner? a with
  | none => rfl
  | some other =>
      have hdifference := Record.rebase_arrivalDifference? R (r.prepared a) other r.table.windows a hid
      simp only [Option.map_some, Option.bind_some, measurementWith?, rebase_prepared]
      change ((r.prepared a).rebase R).arrivalDifference? (other.rebase R) r.table.windows
        (a.rebase R) >>= _ = _
      rw [hdifference]
      rfl

theorem rebase_heard_diagnostics (R : Rebasing) (r : Receiver K) (a : Arrival K) :
    ((r.rebase R).heard (a.rebase R)).diagnostics = (r.heard a).diagnostics := by
  rw [heard, entered, rebase_table, Arrival.rebase_source, Arrival.rebase_now,
    Table.rebase_contains, Arrival.rebase_others, List.foldl_map]
  rfl

/-- The diagnostics see no readings. -/
theorem rebase_nextDiagnostics (R : Rebasing) (r : Receiver K) (a : Arrival K) :
    (r.rebase R).nextDiagnostics (a.rebase R) = r.nextDiagnostics a := by
  simp only [nextDiagnostics, chosen, timed, rebase_heard_diagnostics, rebase_reliable,
    rebase_measurement?, rebase_partner?, rebase_prepared, Record.rebase_clock,
    Arrival.rebase_source, Option.isSome_map]

/-- Handling commutes with a rebasing. -/
theorem rebase_after (R : Rebasing) (r : Receiver K) (a : Arrival K) :
    (r.rebase R).after (a.rebase R) = (r.after a).rebase R := by
  have hid := Table.sender_id r.table a.source
  rw [after, ranged, rebase_nextDiagnostics, rebase_choice, rebase_measurement?, rebase_table,
    rebase_filter, Arrival.rebase_source, Arrival.rebase_now, Table.rebase_entered,
    Table.rebase_slotFor, Table.rebase_sender, Record.rebase_receive R _ _ a hid, Table.rebase_put]
  rfl

theorem rebase_afterAll (R : Rebasing) (r : Receiver K) (as : List (Arrival K)) :
    (r.rebase R).afterAll (as.map (·.rebase R)) = (r.afterAll as).rebase R := by
  induction as generalizing r with
  | nil => rfl
  | cons a as ih => rw [List.map_cons, afterAll_cons, afterAll_cons, rebase_after, ih]

theorem rebase_flags (R : Rebasing) (r : Receiver K) (as : List (Arrival K)) :
    (r.rebase R).flags (as.map (·.rebase R)) = r.flags as := by
  induction as generalizing r with
  | nil => rfl
  | cons a as ih => rw [List.map_cons, flags, flags, rebase_reliable, rebase_after, ih]

end Receiver

/-! ## Moved origins -/

namespace Ticks

/-- A word between one and two periods that stands for the reading `t` of a clock whose origin is
moved by `shift`. -/
def moved (shift : Int) (t : Ticks) : Ticks :=
  Int64.ofInt ((t.toInt + shift) % 2 ^ 40 + 2 ^ 40)

theorem toInt_moved (shift : Int) (t : Ticks) :
    (moved shift t).toInt = (t.toInt + shift) % 2 ^ 40 + 2 ^ 40 := by
  rw [moved, Int64.toInt_ofInt_of_le (by omega) (by omega)]

theorem moved_modEq (shift : Int) (t : Ticks) :
    (moved shift t).toInt ≡ t.toInt + shift [ZMOD 2 ^ 40] := by
  rw [toInt_moved, Int.ModEq]
  omega

theorem elapsed_moved (shift : Int) (s t : Ticks) :
    elapsed (moved shift s) (moved shift t) = elapsed s t :=
  elapsed_congr (moved_modEq shift s) (moved_modEq shift t)

theorem moved_ne_zero (shift : Int) (t : Ticks) : moved shift t ≠ 0 := by
  intro hzero
  have hvalue := toInt_moved shift t
  rw [hzero] at hvalue
  have hnone : (0 : Ticks).toInt = 0 := rfl
  omega

/-- Readings that differ by a shift have a common image. -/
theorem moved_eq_moved {shift : Int} {t t' : Ticks}
    (h : t'.toInt ≡ t.toInt + shift [ZMOD 2 ^ 40]) : moved 0 t' = moved shift t := by
  simp only [moved]
  rw [Int.add_zero, h]

end Ticks

/-- The rebasing for moved origins. -/
def Rebasing.move (tag : Int) (origin : AnchorId → Int) : Rebasing where
  tag := Ticks.moved tag
  anchor := fun id => Ticks.moved (origin id)
  elapsed_tag := Ticks.elapsed_moved tag
  elapsed_anchor := fun id => Ticks.elapsed_moved (origin id)
  anchor_ne_zero := fun id => Ticks.moved_ne_zero (origin id)

/-- Two reports that differ in the origin of the sender's clock only. -/
structure Report.Moved (shift : Int) (report report' : Report) : Prop where
  neighbour : report'.neighbour = report.neighbour
  sequence : report'.sequence = report.sequence
  flight : report'.flight = report.flight
  rxTime_eq_zero : report'.rxTime = 0 ↔ report.rxTime = 0
  rxTime : report'.rxTime.toInt ≡ report.rxTime.toInt + shift [ZMOD 2 ^ 40] ∨ report.rxTime = 0

/-- Two packets that differ in the origins of the tag's and of the sender's clock only. -/
structure Arrival.Moved (tag : Int) (origin : AnchorId → Int) (a a' : Arrival K) : Prop where
  source : a'.source = a.source
  sequence : a'.broadcast.sequence = a.broadcast.sequence
  position : a'.broadcast.position = a.broadcast.position
  now : a'.now = a.now
  rxTime : a'.rxTime.toInt ≡ a.rxTime.toInt + tag [ZMOD 2 ^ 40]
  txTime : a'.broadcast.txTime.toInt ≡ a.broadcast.txTime.toInt + origin a.source [ZMOD 2 ^ 40]
  reports : List.Forall₂ (Report.Moved (origin a.source)) a.broadcast.reports a'.broadcast.reports

theorem Report.Moved.rebase_eq {shift : Int} {report report' : Report}
    (h : report.Moved shift report') :
    report'.rebase (Ticks.moved 0) = report.rebase (Ticks.moved shift) := by
  obtain ⟨neighbour, rxTime, sequence, flight⟩ := report
  obtain ⟨neighbour', rxTime', sequence', flight'⟩ := report'
  obtain ⟨rfl, rfl, rfl, hzero, hrx⟩ := h
  dsimp only at hzero hrx
  simp only [Report.rebase]
  by_cases hnone : rxTime = 0
  · simp [hnone, hzero.2 hnone]
  · have hmoved := Ticks.moved_eq_moved (hrx.resolve_right hnone)
    simp [hnone, hzero, hmoved]

theorem map_reports_eq {shift : Int} {reports reports' : List Report}
    (h : List.Forall₂ (Report.Moved shift) reports reports') :
    reports'.map (·.rebase (Ticks.moved 0)) = reports.map (·.rebase (Ticks.moved shift)) := by
  induction h with
  | nil => rfl
  | cons hreport _ ih => rw [List.map_cons, List.map_cons, hreport.rebase_eq, ih]

/-- Packets that differ in clock origins have a common image. -/
theorem Arrival.Moved.rebase_eq {tag : Int} {origin : AnchorId → Int} {a a' : Arrival K}
    (h : a.Moved tag origin a') :
    a'.rebase (Rebasing.move 0 fun _ => 0) = a.rebase (Rebasing.move tag origin) := by
  have hreports := map_reports_eq h.reports
  have htx := Ticks.moved_eq_moved h.txTime
  have hrx := Ticks.moved_eq_moved h.rxTime
  have hsource : a'.broadcast.source = a.broadcast.source := h.source
  simp only [rebase, Rebasing.move, hreports, htx, hrx, hsource, h.sequence, h.position, h.now]

theorem map_rebase_eq {tag : Int} {origin : AnchorId → Int} {as as' : List (Arrival K)}
    (h : List.Forall₂ (Arrival.Moved tag origin) as as') :
    as'.map (·.rebase (Rebasing.move 0 fun _ => 0)) =
      as.map (·.rebase (Rebasing.move tag origin)) := by
  induction h with
  | nil => rfl
  | cons ha _ ih => rw [List.map_cons, List.map_cons, ha.rebase_eq, ih]

namespace Receiver

variable [Scalar K]

theorem rebase_fresh (R : Rebasing) (s : Settings K) (now : Millis) :
    (fresh s now).rebase R = fresh s now := rfl

/-- Two runs whose packets differ in clock origins have the same outcome: the same flags, the same
measurements in the same order, the same diagnostics, and the same clock filter states of the same
anchors. -/
theorem run_of_moved_origins {s : Settings K} {start : Millis} {r r' : Receiver K}
    (hcreate : create s start = .ok r) (hcreate' : create s start = .ok r') {tag : Int}
    {origin : AnchorId → Int} {as as' : List (Arrival K)}
    (hmoved : List.Forall₂ (Arrival.Moved tag origin) as as') :
    ∃ flags q q', r.run as = .ok (flags, q) ∧ r'.run as' = .ok (flags, q') ∧
      q'.outbox = q.outbox ∧ q'.diagnostics = q.diagnostics ∧
      q'.table.records.map (fun ρ => (ρ.id, ρ.clock)) =
        q.table.records.map (fun ρ => (ρ.id, ρ.clock)) := by
  have hsound := sound_of_create hcreate
  have hsound' := sound_of_create hcreate'
  obtain ⟨-, rfl⟩ := create_eq_ok_iff.1 hcreate
  obtain ⟨-, rfl⟩ := create_eq_ok_iff.1 hcreate'
  have hflags : (fresh s start).flags as' = (fresh s start).flags as := by
    rw [← rebase_flags (Rebasing.move 0 fun _ => 0), rebase_fresh, map_rebase_eq hmoved,
      ← rebase_fresh (Rebasing.move tag origin), rebase_flags, rebase_fresh]
  have hafter : ((fresh s start).afterAll as').rebase (Rebasing.move 0 fun _ => 0) =
      ((fresh s start).afterAll as).rebase (Rebasing.move tag origin) := by
    rw [← rebase_afterAll, ← rebase_afterAll, rebase_fresh, rebase_fresh, map_rebase_eq hmoved]
  refine ⟨(fresh s start).flags as, (fresh s start).afterAll as, (fresh s start).afterAll as',
    run_eq hsound as, ?_, ?_, ?_, ?_⟩
  · rw [run_eq hsound' as', hflags]
  · exact congrArg (·.outbox) hafter
  · exact congrArg (·.diagnostics) hafter
  · have hrecords := congrArg (fun q => q.table.records.map fun ρ => (ρ.id, ρ.clock)) hafter
    simpa [rebase, Table.rebase, Function.comp_def] using hrecords

/-- Anchor 2 sends once and anchor 1 three times. The last packet of anchor 1 leads to a
measurement. -/
def withinPeriod : List (Arrival Float) := [
  ⟨⟨⟨2⟩, 10, 5, [], some ⟨0.0, 3.0, 0.0⟩⟩, 1000, 0⟩,
  ⟨⟨⟨1⟩, 100, 0, [⟨⟨2⟩, 0, 0, 0⟩, ⟨⟨3⟩, 7, 5, 3⟩], some ⟨3.0, 0.0, 0.0⟩⟩, 1100, 1⟩,
  ⟨⟨⟨1⟩, 1100, 1, [], none⟩, 2100, 2⟩,
  ⟨⟨⟨1⟩, 2100, 2, [⟨⟨2⟩, 60, 5, 50⟩], none⟩, 3100, 3⟩]

/-- The same packets on clocks of which the tag's and anchor 1's start over before the last one.
Some readings are given outside of the counter's range. -/
def acrossWrap : List (Arrival Float) := [
  ⟨⟨⟨2⟩, 17, 5, [], some ⟨0.0, 3.0, 0.0⟩⟩, -1500, 0⟩,
  ⟨⟨⟨1⟩, -1400, 0, [⟨⟨2⟩, 0, 0, 0⟩, ⟨⟨3⟩, 0xffffffffa2b, 5, 3⟩], some ⟨3.0, 0.0, 0.0⟩⟩,
    0xfffffffa88, 1⟩,
  ⟨⟨⟨1⟩, 0xfffffffe70, 1, [], none⟩, 0xfffffffe70, 2⟩,
  ⟨⟨⟨1⟩, 600, 2, [⟨⟨2⟩, 0xfffffffa60, 5, 50⟩], none⟩, 600, 3⟩]

theorem moved_acrossWrap : List.Forall₂
    (Arrival.Moved (-2500) fun id => if id = ⟨2⟩ then 7 else -1500) withinPeriod acrossWrap := by
  refine .cons ?_ (.cons ?_ (.cons ?_ (.cons ?_ .nil)))
  · exact ⟨rfl, rfl, rfl, rfl, by decide, by decide, .nil⟩
  · refine ⟨rfl, rfl, rfl, rfl, by decide, by decide, .cons ?_ (.cons ?_ .nil)⟩
    · exact ⟨rfl, rfl, rfl, by decide, .inr rfl⟩
    · exact ⟨rfl, rfl, rfl, by decide, .inl (by decide)⟩
  · exact ⟨rfl, rfl, rfl, rfl, by decide, by decide, .nil⟩
  · refine ⟨rfl, rfl, rfl, rfl, by decide, by decide, .cons ?_ .nil⟩
    exact ⟨rfl, rfl, rfl, by decide, .inl (by decide)⟩

/-- Both runs send one measurement, and it is the same. -/
theorem run_of_moved_origins_acrossWrap :
    ∃ flags q q', (fresh Settings.standard 0).run withinPeriod = .ok (flags, q) ∧
      (fresh Settings.standard 0).run acrossWrap = .ok (flags, q') ∧
      q.outbox.length = 1 ∧ q'.outbox = q.outbox ∧ q'.diagnostics = q.diagnostics ∧
      q'.table.records.map (fun ρ => (ρ.id, ρ.clock)) =
        q.table.records.map (fun ρ => (ρ.id, ρ.clock)) := by
  obtain ⟨flags, q, q', hrun, hrun', hsame⟩ :=
    run_of_moved_origins (create_standard 0) (create_standard 0) moved_acrossWrap
  have hsent : ((fresh Settings.standard 0).run withinPeriod).map (·.2.outbox.length) = .ok 1 := by
    decide +kernel
  rw [hrun] at hsent
  exact ⟨flags, q, q', hrun, hrun', Except.ok.inj hsent, hsame⟩

end Receiver

end Ranging

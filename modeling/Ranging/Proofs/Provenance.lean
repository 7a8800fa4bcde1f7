import Ranging.Proofs.Dated
import Ranging.Proofs.Emission

/-!
# Where the parts of a measurement come from

A measurement of the anchors B and A, given by a packet of A, uses when the tag received B, when A
received B and how far the two are apart, and the positions of both. Each of these was carried by
some packet. `Sources` names the packets, and `measurement_sources` tells which ones they are in a
timely run: the latest that could have carried the value, none of them from before its sender last
entered the table, and, for values that expire, none older than the window.
-/

namespace Ranging

variable {K : Type}

namespace Arrival

variable {α : Type}

/-- What the reports that say something about other anchors write into a list, if `value` is kept of
each. -/
def noted (a : Arrival K) (keep : Report → Prop) [DecidablePred keep] (value : Report → α) :
    List (Entry α) :=
  a.others.filterMap fun report =>
    if keep report then some ⟨⟨value report, a.now⟩, report.neighbour⟩ else none

theorem receptions_eq_noted : receptions (K := K) = (·.noted (·.rxTime ≠ 0) fun report =>
    ⟨report.rxTime, report.sequence &&& sequenceMask⟩) := by
  funext a
  simp only [receptions, noted, ne_eq, ite_not]

theorem flights_eq_noted : flights (K := K) = (·.noted (·.flight ≠ 0) (·.flight)) := by
  funext a
  simp only [flights, noted, ne_eq, ite_not]

end Arrival

namespace Dated

section Reports

variable {α : Type} (keep : Report → Prop) [DecidablePred keep]

/-- The reports of an anchor on another one that say something, with the packets that carried
them. -/
def reports (ds : List (Dated K)) (id neighbour : AnchorId) : List (Dated K × Report) :=
  (ds.filter (·.source = id)).flatMap fun d =>
    (d.broadcast.reports.filter fun report => report.neighbour = neighbour ∧ keep report).map (d, ·)

/-- What is written about a neighbour comes from the reports on it, one by one. -/
theorem filter_noted (value : Report → α) (d : Dated K) {neighbour : AnchorId}
    (hne : neighbour ≠ d.source) :
    (d.arrival.noted keep value).filter (·.key = neighbour) =
      (d.broadcast.reports.filter fun report => report.neighbour = neighbour ∧ keep report).map
        fun report => ⟨⟨value report, Millis.ofTime d.time⟩, neighbour⟩ := by
  rw [Arrival.noted, Arrival.others, arrival_broadcast, arrival_source, arrival_now]
  induction d.broadcast.reports with
  | nil => rfl
  | cons report rest ih =>
      by_cases hneighbour : report.neighbour = neighbour
      · subst hneighbour
        by_cases hkeep : keep report <;> simpa [hkeep, hne] using ih
      · by_cases hself : report.neighbour = d.source
        · simpa [hself, Ne.symm hne] using ih
        · by_cases hkeep : keep report <;> simpa [hkeep, hneighbour, hself] using ih

theorem filter_flatMap_noted (value : Report → α) (ds : List (Dated K)) {id neighbour : AnchorId}
    (hne : neighbour ≠ id) :
    ((packetsOf id (ds.map arrival)).flatMap (·.noted keep value)).filter (·.key = neighbour) =
      (reports keep ds id neighbour).map
        fun source => ⟨⟨value source.2, Millis.ofTime source.1.time⟩, neighbour⟩ := by
  rw [packetsOf_arrivals, List.flatMap_map, List.filter_flatMap, reports, List.map_flatMap]
  refine List.flatMap_congr ?_
  intro d hd
  have hsource : d.source = id := by simpa using (List.mem_filter.1 hd).2
  rw [filter_noted keep value d (by rwa [hsource]), List.map_map]
  rfl

/-- A valid entry of a list comes from the last report that was written into it, and its age is that
of the packet which carried the report. -/
theorem exists_report_of_find? (value : Report → α) {capacity : Nat} (hcapacity : 0 < capacity)
    {ds : List (Dated K)} {id neighbour : AnchorId} (hne : neighbour ≠ id) {window now : Millis}
    {v : α} (hfind : (({ capacity } : Recent α).writeAll
      ((packetsOf id (ds.map arrival)).flatMap (·.noted keep value))).find? window now neighbour =
        some v) :
    ∃ d report, (reports keep ds id neighbour).getLast? = some (d, report) ∧ value report = v ∧
      Millis.since (Millis.ofTime d.time) now < window := by
  rw [Recent.find?_eq_bind_stored?] at hfind
  obtain ⟨e, he, hfresh⟩ := Option.bind_eq_some_iff.1 hfind
  obtain ⟨hage, hvalue⟩ := Stamped.fresh?_eq_some_iff.1 hfresh
  have hlast := Recent.eq_getLast?_of_stored?_writeAll hcapacity he
  rw [filter_flatMap_noted keep value ds hne, List.getLast?_map] at hlast
  obtain ⟨⟨d, report⟩, hreport, rfl⟩ := Option.map_eq_some_iff.1 hlast
  exact ⟨d, report, hreport, hvalue, hage⟩

/-- What is last in a part at the end is last in the whole. -/
theorem getLast?_reports_append (before : List (Dated K)) {during : List (Dated K)}
    {id neighbour : AnchorId} {source : Dated K × Report}
    (h : (reports keep during id neighbour).getLast? = some source) :
    (reports keep (before ++ during) id neighbour).getLast? = some source ∧
      source.1 ∈ during := by
  refine ⟨?_, ?_⟩
  · rw [reports, List.filter_append, List.flatMap_append, List.getLast?_append, ← reports, h]
    rfl
  · obtain ⟨d, hd, hmem⟩ := List.mem_flatMap.1 (List.mem_of_getLast? h)
    obtain ⟨report, -, rfl⟩ := List.mem_map.1 hmem
    exact (List.mem_filter.1 hd).1

end Reports

/-- The last packet of an anchor with a position. -/
def lastPosition? (ds : List (Dated K)) (id : AnchorId) : Option (Dated K) :=
  (ds.filter fun d => d.source = id ∧ d.broadcast.position.isSome).getLast?

theorem lastPosition?_append (before : List (Dated K)) {during : List (Dated K)} {id : AnchorId}
    {d : Dated K} (h : lastPosition? during id = some d) :
    lastPosition? (before ++ during) id = some d ∧ d ∈ during := by
  refine ⟨?_, (List.mem_filter.1 (List.mem_of_getLast? h)).1⟩
  rw [lastPosition?, List.filter_append, List.getLast?_append, ← lastPosition?, h]
  rfl

theorem lastFrom?_append (before : List (Dated K)) {during : List (Dated K)} {id : AnchorId}
    {d : Dated K} (h : lastFrom? during id = some d) :
    lastFrom? (before ++ during) id = some d ∧ d ∈ during := by
  refine ⟨?_, (mem_of_lastFrom? h).1⟩
  rw [lastFrom?, List.filter_append, List.getLast?_append, ← lastFrom?, h]
  rfl

end Dated

variable [Scalar K]

namespace Record

/-- A position that is stored was carried by the last packet that carried one. -/
theorem exists_of_receiveAll_position {r : Record K} (hnone : r.position = none)
    {f : RatioFilter K} {as : List (Arrival K)} {p : Stamped (Point K)}
    (hp : (r.receiveAll f as).position = some p) :
    ∃ a, (as.filter (·.broadcast.position.isSome)).getLast? = some a ∧
      a.broadcast.position = some p.value ∧ p.written = a.now := by
  induction as using List.reverseRecOn with
  | nil =>
      rw [show r.receiveAll f [] = r from rfl, hnone] at hp
      cases hp
  | append_singleton as a ih =>
      rw [receiveAll_concat, receive_eq] at hp
      cases hposition : a.broadcast.position with
      | none => simpa [hposition] using ih (by simpa [hposition] using hp)
      | some point =>
          obtain rfl : ⟨point, a.now⟩ = p := by simpa [hposition] using hp
          exact ⟨a, by simp [hposition], hposition, rfl⟩

/-- A reception time that is stored is that of the last packet. -/
theorem exists_of_receiveAll_rxTime {r : Record K} (hnone : r.rxTime = none) {f : RatioFilter K}
    {as : List (Arrival K)} {t : Ticks} (ht : (r.receiveAll f as).rxTime = some t) :
    ∃ a, as.getLast? = some a ∧ a.rxTime = t := by
  rcases List.eq_nil_or_concat as with rfl | ⟨init, a, rfl⟩
  · rw [show r.receiveAll f [] = r from rfl, hnone] at ht
    cases ht
  · rw [List.concat_eq_append, receiveAll_concat, receive_eq] at ht
    exact ⟨a, by simp, Option.some.inj ht⟩

end Record

namespace Receiver

open Dated

variable {r : Receiver K}

/-- A stored record is made by the packets of a stay. -/
theorem exists_dated_stay (hsound : r.table.Sound) {id : AnchorId}
    (hstart : r.table.find? id = none) {past : List (Dated K)} {ρ : Record K}
    (hfind : (r.afterAll (past.map arrival)).table.find? id = some ρ) :
    ∃ before during, past = before ++ during ∧
      r.Stay id (before.map arrival) (during.map arrival) ∧
      ρ = (r.table.blank id).receiveAll r.filter (packetsOf id (during.map arrival)) := by
  obtain ⟨before', during', hsplit, hstay, -, hrecord⟩ := exists_record_eq hsound hstart hfind
  obtain ⟨before, during, rfl, rfl, rfl⟩ := List.map_eq_append_iff.1 hsplit
  exact ⟨before, during, rfl, hstay, hrecord⟩

/-- A valid position comes from the last packet with a position in the stay of its anchor. -/
theorem lastPosition?_of_freshPosition? {id : AnchorId} {during : List (Dated K)}
    {windows : Windows} {now : Millis} {p : Stamped (Point K)}
    (hp : ((r.table.blank id).receiveAll r.filter
      (packetsOf id (during.map arrival))).freshPosition? windows now = some p) :
    ∃ d, lastPosition? during id = some d ∧ d.broadcast.position = some p.value ∧
      Millis.since (Millis.ofTime d.time) now < windows.position := by
  obtain ⟨hposition, hfresh⟩ := Option.filter_eq_some_iff.1 hp
  obtain ⟨a, hlast, hvalue, hwritten⟩ := Record.exists_of_receiveAll_position rfl hposition
  rw [packetsOf_arrivals, List.filter_map, List.getLast?_map, List.filter_filter] at hlast
  obtain ⟨d, hd, rfl⟩ := Option.map_eq_some_iff.1 hlast
  refine ⟨d, ?_, hvalue, ?_⟩
  · rw [lastPosition?, ← hd]
    congr 2
    funext e
    simp [and_comm]
  · rw [hwritten] at hfresh
    exact of_decide_eq_true hfresh

@[simp] theorem afterAll_windows (r : Receiver K) (as : List (Arrival K)) :
    (r.afterAll as).table.windows = r.table.windows := by
  induction as generalizing r with
  | nil => rfl
  | cons a as ih => rw [afterAll_cons, ih, after_windows]

/-- The records that a measurement is made from. The partner's, and the sender's position, are as
they were stored before the packet; the sender's reports are as they are after it. -/
theorem records_of_measurement? (hsound : r.table.Sound) (hstart : ∀ id, r.table.find? id = none)
    {as : List (Arrival K)} {a : Arrival K} {m : Measurement K}
    (hm : (r.afterAll as).measurement? a = some m) :
    m.second = a.source ∧ m.first ≠ a.source ∧ ∃ other sender after first second otherRx flight
      reception, (r.afterAll as).table.find? m.first = some other ∧
      (r.afterAll as).table.find? a.source = some sender ∧
      (r.afterAll (as ++ [a])).table.find? a.source = some after ∧
      other.rxTime = some otherRx ∧
      other.freshPosition? r.table.windows a.now = some first ∧ m.firstPosition = first.value ∧
      sender.freshPosition? r.table.windows a.now = some second ∧
      m.secondPosition = second.value ∧
      after.flight? r.table.windows a.now m.first = some flight ∧
      after.reception? r.table.windows a.now m.first = some reception ∧
      m.distanceDiff = speedOfLight *
        (Scalar.ofInt (Ticks.elapsed otherRx a.rxTime).toInt
          - Scalar.ofInt (flight + Ticks.elapsed reception.time a.broadcast.txTime).toInt
            * after.clock.ratio) / r.tickFrequency := by
  have hslot := (sound_afterAll hsound as).hasSlot
  obtain ⟨other, difference, first, second, hpartner, hdifference, hfirst, hsecond, rfl⟩ :=
    measurement?_eq_some_iff.1 hm
  obtain ⟨hreliable, -, hfind, -⟩ := partner?_spec hpartner
  obtain ⟨flight, reception, otherRx, hflight, hreception, hrx, rfl⟩ :=
    Record.arrivalDifference?_eq_some_iff.1 hdifference
  have hsender := find?_of_reliable hreliable
  have hne : other.id ≠ a.source := ne_of_reception? hsound hstart hreception
  rw [find?_preparedTable hslot, if_neg hne, Table.entered_of_find? hsender] at hfind
  rw [prepared, Record.prepare_eq, afterAll_windows] at hsecond
  rw [prepared, ← Record.receive_flight?, afterAll_windows] at hflight
  rw [prepared, ← Record.receive_reception?, afterAll_windows] at hreception
  rw [afterAll_windows] at hfirst
  refine ⟨rfl, hne, other, _, _, first, second, otherRx, flight, reception, hfind, hsender,
    find?_afterAll_concat hsound as a, hrx, hfirst, rfl, hsecond, rfl, hflight, hreception, ?_⟩
  rw [Record.receive_clock, prepared, Record.prepare_clock, afterAll_tickFrequency]

end Receiver

/-! ## The sources of a measurement -/

/-- The packets that a measurement comes from, and the reports among what they carry. -/
structure Sources (K : Type) where
  /-- The tag's reception time of the first anchor is that of this packet. -/
  heard : Dated K
  /-- When the second anchor received the first. -/
  reception : Dated K × Report
  /-- How far the two are apart. -/
  flight : Dated K × Report
  firstPosition : Dated K
  secondPosition : Dated K

namespace Receiver

open Dated

variable {r : Receiver K}

/-- Each source is the last packet that could be one, in the run up to the packet `p`: for what the
sender reports `p` counts, for all else it comes too late. What expires was carried within its
window. -/
structure Latest (windows : Windows) (past : List (Dated K)) (p : Dated K) (first : AnchorId)
    (sources : Sources K) : Prop where
  heard : lastFrom? past first = some sources.heard
  reception : (reports (·.rxTime ≠ 0) (past ++ [p]) p.source first).getLast? =
    some sources.reception
  flight : (reports (·.flight ≠ 0) (past ++ [p]) p.source first).getLast? = some sources.flight
  firstPosition : lastPosition? past first = some sources.firstPosition
  secondPosition : lastPosition? past p.source = some sources.secondPosition
  reception_age : p.time - sources.reception.1.time < windows.reception.toNat
  flight_age : p.time - sources.flight.1.time < windows.flight.toNat
  firstPosition_age : p.time - sources.firstPosition.time < windows.position.toNat
  secondPosition_age : p.time - sources.secondPosition.time < windows.position.toNat

/-- Both anchors have been in the table without a break since before their sources. -/
structure SinceEntry (r : Receiver K) (past : List (Dated K)) (p : Dated K) (first : AnchorId)
    (sources : Sources K) : Prop where
  firstStay : ∃ before during, past = before ++ during ∧
    r.Stay first (before.map arrival) (during.map arrival) ∧
    lastFrom? during first = some sources.heard ∧
    lastPosition? during first = some sources.firstPosition
  secondStay : ∃ before during, past = before ++ during ∧
    r.Stay p.source (before.map arrival) ((during ++ [p]).map arrival) ∧
    (reports (·.rxTime ≠ 0) (during ++ [p]) p.source first).getLast? = some sources.reception ∧
    (reports (·.flight ≠ 0) (during ++ [p]) p.source first).getLast? = some sources.flight ∧
    lastPosition? during p.source = some sources.secondPosition

/-- The measurement that the packet `p` leads to is computed from these sources. The clock of the
second anchor has the given ratio. -/
structure MadeFrom (r : Receiver K) (p : Dated K) (ratio : K) (sources : Sources K)
    (m : Measurement K) : Prop where
  second : m.second = p.source
  first_ne : m.first ≠ p.source
  firstPosition : sources.firstPosition.broadcast.position = some m.firstPosition
  secondPosition : sources.secondPosition.broadcast.position = some m.secondPosition
  distanceDiff : m.distanceDiff = speedOfLight *
    (Scalar.ofInt (Ticks.elapsed sources.heard.rxTime p.rxTime).toInt
      - Scalar.ofInt (sources.flight.2.flight +
          Ticks.elapsed sources.reception.2.rxTime p.broadcast.txTime).toInt * ratio) /
      r.tickFrequency

/-- What a run has left of an anchor, and where it comes from. -/
theorem exists_sources_first (hsound : r.table.Sound) {id : AnchorId}
    (hstart : r.table.find? id = none) {past : List (Dated K)} {ρ : Record K}
    (hfind : (r.afterAll (past.map arrival)).table.find? id = some ρ) {rxTime : Ticks}
    (hrx : ρ.rxTime = some rxTime) {windows : Windows} {now : Millis} {position : Stamped (Point K)}
    (hposition : ρ.freshPosition? windows now = some position) :
    ∃ before during heard carrier, past = before ++ during ∧
      r.Stay id (before.map arrival) (during.map arrival) ∧
      lastFrom? during id = some heard ∧ heard.rxTime = rxTime ∧
      lastPosition? during id = some carrier ∧
      carrier.broadcast.position = some position.value ∧
      Millis.since (Millis.ofTime carrier.time) now < windows.position := by
  obtain ⟨before, during, rfl, hstay, rfl⟩ := exists_dated_stay hsound hstart hfind
  obtain ⟨a, hlast, rfl⟩ := Record.exists_of_receiveAll_rxTime rfl hrx
  rw [getLast?_packetsOf_arrivals] at hlast
  obtain ⟨heard, hheard, rfl⟩ := Option.map_eq_some_iff.1 hlast
  obtain ⟨carrier, hcarrier, hvalue, hage⟩ := lastPosition?_of_freshPosition? hposition
  exact ⟨before, during, heard, carrier, rfl, hstay, hheard, rfl, hcarrier, hvalue, hage⟩

/-- What a run and one more packet `p` have left of the reports of an anchor, and where it comes
from. -/
theorem exists_sources_second (hsound : r.table.Sound) {past : List (Dated K)} {p : Dated K}
    (hstart : r.table.find? p.source = none) {sender after : Record K}
    (hsender : (r.afterAll (past.map arrival)).table.find? p.source = some sender)
    (hafter : (r.afterAll (past.map arrival ++ [p.arrival])).table.find? p.source = some after)
    {windows : Windows} {now : Millis} {position : Stamped (Point K)}
    (hposition : sender.freshPosition? windows now = some position) {neighbour : AnchorId}
    (hne : neighbour ≠ p.source) {flight : Ticks} {reception : Reception}
    (hflight : after.flight? windows now neighbour = some flight)
    (hreception : after.reception? windows now neighbour = some reception) :
    ∃ before during d report e report' carrier, past = before ++ during ∧
      r.Stay p.source (before.map arrival) ((during ++ [p]).map arrival) ∧
      (reports (·.rxTime ≠ 0) (during ++ [p]) p.source neighbour).getLast? = some (d, report) ∧
      report.rxTime = reception.time ∧
      Millis.since (Millis.ofTime d.time) now < windows.reception ∧
      (reports (·.flight ≠ 0) (during ++ [p]) p.source neighbour).getLast? = some (e, report') ∧
      report'.flight = flight ∧ Millis.since (Millis.ofTime e.time) now < windows.flight ∧
      lastPosition? during p.source = some carrier ∧
      carrier.broadcast.position = some position.value ∧
      Millis.since (Millis.ofTime carrier.time) now < windows.position := by
  obtain ⟨before, during, rfl, hstay, rfl⟩ := exists_dated_stay hsound hstart hsender
  obtain ⟨carrier, hcarrier, hvalue, hage⟩ := lastPosition?_of_freshPosition? hposition
  have hstay' : r.Stay p.source (before.map arrival) ((during ++ [p]).map arrival) := by
    rw [List.map_append]
    refine hstay.append ?_
    rw [← List.append_assoc, ← List.map_append]
    exact Option.isSome_iff_exists.2 ⟨after, hafter⟩
  have hrecord := hstay'.sender_eq hsound
  rw [← List.map_append, ← List.append_assoc, List.map_append, List.map_singleton,
    Table.sender_of_find? hafter] at hrecord
  subst hrecord
  rw [Record.flight?, Record.receiveAll_flights, Arrival.flights_eq_noted] at hflight
  rw [Record.reception?, Record.receiveAll_receptions, Arrival.receptions_eq_noted] at hreception
  obtain ⟨e, report', hreport', hflight, hage'⟩ :=
    exists_report_of_find? _ _ hsound.flights_pos hne hflight
  obtain ⟨d, report, hreport, hreception, hage''⟩ :=
    exists_report_of_find? _ _ hsound.receptions_pos hne hreception
  exact ⟨before, during, d, report, e, report', carrier, rfl, hstay', hreport,
    congrArg Reception.time hreception, hage'', hreport', hflight, hage', hcarrier, hvalue, hage⟩

/-- In a run that reaches its packet `p` in time, a measurement that `p` leads to has sources. -/
theorem exists_sources (hsound : r.table.Sound) (hstart : ∀ id, r.table.find? id = none)
    {past : List (Dated K)} {p : Dated K} (htimely : Timely (past ++ [p])) {m : Measurement K}
    (hm : (r.afterAll (past.map arrival)).measurement? p.arrival = some m) :
    ∃ sources sender, Latest r.table.windows past p m.first sources ∧
      r.SinceEntry past p m.first sources ∧
      (r.afterAll (past.map arrival ++ [p.arrival])).table.find? p.source = some sender ∧
      r.MadeFrom p sender.clock.ratio sources m := by
  obtain ⟨hsecond, hne, other, sender, after, first, second, otherRx, flight, reception, hother,
    hsender, hafter, hrx, hfirst, hfirstValue, hposition, hsecondValue, hflight, hreception,
    hdistance⟩ := records_of_measurement? hsound hstart hm
  obtain ⟨before₁, during₁, heard, carrier₁, hsplit₁, hstay₁, hheard, rfl, hcarrier₁, hpoint₁,
    hage₁⟩ := exists_sources_first hsound (hstart m.first) hother hrx hfirst
  obtain ⟨before₂, during₂, d, report, e, report', carrier₂, hsplit₂, hstay₂, hreport, hrxTime,
    hdage, hreport', rfl, heage, hcarrier₂, hpoint₂, hage₂⟩ :=
    exists_sources_second hsound (hstart p.source) hsender hafter hposition hne hflight hreception
  -- The age of anything that a packet has left is the true one.
  have hage : ∀ q ∈ past ++ [p], ∀ {window : Millis},
      Millis.since (Millis.ofTime q.time) p.arrival.now < window →
        p.time - q.time < window.toNat := by
    intro q hq window hlt
    rwa [UInt32.lt_iff_toNat_lt, arrival_now, htimely.toNat_since hq] at hlt
  have hwhole : past ++ [p] = before₂ ++ (during₂ ++ [p]) := by rw [hsplit₂, List.append_assoc]
  obtain ⟨hheard', -⟩ := lastFrom?_append before₁ hheard
  obtain ⟨hcarrier₁', hmem₁⟩ := lastPosition?_append before₁ hcarrier₁
  obtain ⟨hcarrier₂', hmem₂⟩ := lastPosition?_append before₂ hcarrier₂
  obtain ⟨hreportAll, hdmem⟩ := getLast?_reports_append _ before₂ hreport
  obtain ⟨hreportAll', hemem⟩ := getLast?_reports_append _ before₂ hreport'
  refine ⟨⟨heard, (d, report), (e, report'), carrier₁, carrier₂⟩, after, ?_, ?_, hafter, ?_⟩
  · exact {
      heard := by rw [hsplit₁, hheard']
      reception := by rw [hwhole, hreportAll]
      flight := by rw [hwhole, hreportAll']
      firstPosition := by rw [hsplit₁, hcarrier₁']
      secondPosition := by rw [hsplit₂, hcarrier₂']
      reception_age := hage d (by rw [hwhole]; exact List.mem_append_right _ hdmem) hdage
      flight_age := hage e (by rw [hwhole]; exact List.mem_append_right _ hemem) heage
      firstPosition_age := hage carrier₁ (by simp [hsplit₁, hmem₁]) hage₁
      secondPosition_age := hage carrier₂ (by simp [hsplit₂, hmem₂]) hage₂ }
  · exact {
      firstStay := ⟨before₁, during₁, hsplit₁, hstay₁, hheard, hcarrier₁⟩
      secondStay := ⟨before₂, during₂, hsplit₂, hstay₂, hreport, hreport', hcarrier₂⟩ }
  · exact {
      second := hsecond
      first_ne := hne
      firstPosition := hpoint₁.trans (congrArg some hfirstValue.symm)
      secondPosition := hpoint₂.trans (congrArg some hsecondValue.symm)
      distanceDiff := by rw [hdistance, hrxTime]; rfl }

/-- In a timely run every measurement that a packet leads to is made from the latest packets that
could be its sources, all of them handled since their senders last entered the table. -/
theorem measurement_sources {s : Settings K} {start : Millis} (hcreate : create s start = .ok r)
    {past : List (Dated K)} {p : Dated K} (htimely : Timely (past ++ [p])) :
    ∃ flags r₁ reliable r₂ sent, r.run (past.map arrival) = .ok (flags, r₁) ∧
      r₁.handle p.broadcast p.rxTime (Millis.ofTime p.time) = .ok (reliable, r₂) ∧
      r₂.outbox = r₁.outbox ++ sent ∧
      ∀ m ∈ sent, ∃ sources sender, Latest s.windows past p m.first sources ∧
        r.SinceEntry past p m.first sources ∧ r₂.table.find? p.source = some sender ∧
        r.MadeFrom p sender.clock.ratio sources m := by
  have hsound := sound_of_create hcreate
  have hslot := (sound_afterAll hsound (past.map arrival)).hasSlot
  refine ⟨_, _, _, _, _, run_eq hsound _, handle_eq hslot p.arrival, after_outbox _ _, ?_⟩
  intro m hm
  obtain ⟨sources, sender, hlatest, hentry, hsender, hmade⟩ :=
    exists_sources hsound (find?_of_create hcreate) htimely (Option.mem_toList.1 hm)
  have hwindows : r.table.windows = s.windows := by
    rw [(create_eq_ok_iff.1 hcreate).2]
    rfl
  rw [hwindows] at hlatest
  rw [afterAll_append] at hsender
  exact ⟨sources, sender, hlatest, hentry, hsender, hmade⟩

/-- Anchor 1 sends twice, then anchor 2 once, before the millisecond clock starts over. -/
def wrapRun : List (Dated Float) :=
  [⟨⟨⟨1⟩, 1000000, 0, [], some ⟨2.0, 0.0, 0.0⟩⟩, 5000000, 2 ^ 32 - 18⟩,
    ⟨⟨⟨1⟩, 641000000, 1, [], some ⟨3.0, 0.0, 0.0⟩⟩, 645000000, 2 ^ 32 - 8⟩,
    ⟨⟨⟨2⟩, 0, 0, [], some ⟨0.0, 0.0, 0.0⟩⟩, 964500000, 2 ^ 32 - 3⟩]

/-- Anchor 1 reports on the packet of anchor 2 when the clock has started over, and says that it has
moved. -/
def wrapReport : Dated Float :=
  ⟨⟨⟨1⟩, 1281000000, 2, [⟨⟨2⟩, 962000000, 0, 50⟩], some ⟨4.0, 0.0, 0.0⟩⟩, 1285000000, 2 ^ 32 + 2⟩

/-- The measurement has the position that anchor 1 reported in its second packet. -/
theorem measurement_sources_wrapReport : Timely (wrapRun ++ [wrapReport]) ∧
    ∃ (r r₁ r₂ : Receiver Float) (m : Measurement Float) (flags : List Bool) (reliable : Bool),
      create Settings.standard 0 = .ok r ∧ r.run (wrapRun.map arrival) = .ok (flags, r₁) ∧
      r₁.handle wrapReport.broadcast wrapReport.rxTime (Millis.ofTime wrapReport.time) =
        .ok (reliable, r₂) ∧
      m ∈ r₂.outbox ∧ m.first = ⟨2⟩ ∧ m.secondPosition = ⟨3.0, 0.0, 0.0⟩ := by
  have htimely : Timely (wrapRun ++ [wrapReport]) := by decide
  obtain ⟨flags, r₁, reliable, r₂, sent, hrun, hhandle, houtbox, hsent⟩ :=
    measurement_sources (create_standard 0) htimely
  obtain ⟨-, hr₁⟩ := eq_of_run (sound_of_create (create_standard 0)) hrun
  obtain ⟨-, -, hr₂⟩ := eq_after_of_handle (a := wrapReport.arrival) hhandle
  have hfirst : r₂.outbox.map (·.first) = r₁.outbox.map (·.first) ++ [⟨2⟩] := by
    rw [hr₂, hr₁]
    decide +kernel
  rw [houtbox, List.map_append, List.append_cancel_left_eq] at hfirst
  obtain ⟨m, rfl, hm⟩ := List.map_eq_singleton_iff.1 hfirst
  obtain ⟨sources, sender, hlatest, -, -, hmade⟩ := hsent m (List.mem_singleton_self m)
  have hsource : lastPosition? wrapRun wrapReport.source = wrapRun[1]? := rfl
  have hcarrier : wrapRun[1] = sources.secondPosition :=
    Option.some.inj (hsource.symm.trans hlatest.secondPosition)
  have hposition := hmade.secondPosition
  rw [← hcarrier] at hposition
  exact ⟨htimely, _, r₁, r₂, m, flags, reliable, create_standard 0, hrun, hhandle,
    by simp [houtbox], hm, (Option.some.inj hposition).symm⟩

end Receiver

end Ranging

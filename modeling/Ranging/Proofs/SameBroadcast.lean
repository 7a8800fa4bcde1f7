import Mathlib.Data.List.Induction
import Ranging.Proofs.Run

/-!
# Which broadcasts a measurement combines

A measurement of the anchors B and A uses two receptions of broadcasts of B, one by the tag and one
by A, and means something only if both are of the same broadcast. All that the tag compares is
sequence numbers of seven bits.

A `Timeline` is the view from outside: all transmissions in order, each with its full number among
those of its sender, and with who received it. Here the two values of a measurement are followed
back to the transmissions that they come from (`exists_combines`). Their numbers agree modulo 128,
so it is one transmission if and only if the numbers differ by less than that. It can be two, if A
has missed that many of B's broadcasts and goes on reporting an old one.
-/

namespace Ranging

/-- A broadcast that was sent, and what became of it. -/
structure Transmission (K : Type) where
  broadcast : Broadcast K
  /-- How many broadcasts its sender sent before it. -/
  number : Nat
  /-- When another anchor received it, in that anchor's ticks. -/
  received : AnchorId → Option Ticks
  /-- When the tag received it, in the tag's ticks and in milliseconds. -/
  heard : Option (Ticks × Millis)

namespace Transmission

variable {K : Type}

def source (t : Transmission K) : AnchorId := t.broadcast.source

/-- The transmission as the tag receives it. -/
def arrival? (t : Transmission K) : Option (Arrival K) :=
  t.heard.map fun heard => ⟨t.broadcast, heard.1, heard.2⟩

/-- What the tag receives of some transmissions. -/
def arrivals (sent : List (Transmission K)) : List (Arrival K) :=
  sent.filterMap arrival?

/-- The latest transmission of an anchor that the tag received. -/
def latestHeard? (sent : List (Transmission K)) (id : AnchorId) : Option (Transmission K) :=
  (sent.filter fun t => t.source = id ∧ t.heard.isSome).getLast?

/-- The latest transmission of an anchor that another anchor received. -/
def latestReceived? (sent : List (Transmission K)) (receiver id : AnchorId) :
    Option (Transmission K) :=
  (sent.filter fun t => t.source = id ∧ (t.received receiver).isSome).getLast?

/-- A report says nothing, or it describes the latest transmission of the neighbour that its sender
received. -/
def Describes (past : List (Transmission K)) (sender : AnchorId) (report : Report) : Prop :=
  report.rxTime = 0 ∨ ∃ v, latestReceived? past sender report.neighbour = some v ∧
    v.received sender = some report.rxTime ∧ report.sequence.toNat = v.number % 128

/-- A transmission that can come next: it has the next number of its sender, the last seven bits of
which it carries, it reports what its sender knows, and the tag's time does not go back. -/
structure Follows (past : List (Transmission K)) (t : Transmission K) : Prop where
  number : t.number = (past.filter (·.source = t.source)).length
  sequence : t.broadcast.sequence.toNat = t.number % 128
  reports : ∀ report ∈ t.broadcast.reports, Describes past t.source report
  time : ∀ a ∈ t.arrival?, ∀ b ∈ arrivals past, b.now ≤ a.now

/-- All transmissions of all anchors, in order. -/
def Timeline (sent : List (Transmission K)) : Prop :=
  ∀ past t later, sent = past ++ t :: later → Follows past t

/-- The tag received the transmission, and it reports that its sender `id` received `neighbour`, a
different anchor. -/
def Reports (t : Transmission K) (id neighbour : AnchorId) : Prop :=
  t.source = id ∧ neighbour ≠ id ∧ t.heard.isSome = true ∧
    ∃ report ∈ t.broadcast.reports, report.neighbour = neighbour ∧ report.rxTime ≠ 0

/-- The last that the tag received from `id` about `neighbour` is on the transmission `v`. -/
def LastReported (sent : List (Transmission K)) (id neighbour : AnchorId) (v : Transmission K) :
    Prop :=
  ∃ past t later, sent = past ++ t :: later ∧ t.Reports id neighbour ∧
    (∀ t' ∈ later, ¬ t'.Reports id neighbour) ∧ latestReceived? past id neighbour = some v

instance (past : List (Transmission K)) (sender : AnchorId) (report : Report) :
    Decidable (Describes past sender report) :=
  decidable_of_iff (report.rxTime = 0 ∨ (latestReceived? past sender report.neighbour).any
      (fun v => v.received sender = some report.rxTime ∧
        report.sequence.toNat = v.number % 128) = true)
    (by simp [Describes, Option.any_eq_true])

instance (past : List (Transmission K)) (t : Transmission K) : Decidable (Follows past t) :=
  decidable_of_iff (t.number = (past.filter (·.source = t.source)).length ∧
      t.broadcast.sequence.toNat = t.number % 128 ∧
      (∀ report ∈ t.broadcast.reports, Describes past t.source report) ∧
      ∀ a ∈ t.arrival?, ∀ b ∈ arrivals past, b.now ≤ a.now)
    ⟨fun h => ⟨h.1, h.2.1, h.2.2.1, h.2.2.2⟩, fun h => ⟨h.number, h.sequence, h.reports, h.time⟩⟩

theorem timeline_iff_getElem {sent : List (Transmission K)} :
    Timeline sent ↔ ∀ i (h : i < sent.length), Follows (sent.take i) sent[i] := by
  constructor
  · intro h i hi
    refine h _ _ (sent.drop (i + 1)) ?_
    rw [← List.drop_eq_getElem_cons hi, List.take_append_drop]
  · rintro h past t later rfl
    have hfollows := h past.length (by simp)
    simpa using hfollows

instance (sent : List (Transmission K)) : Decidable (Timeline sent) :=
  decidable_of_iff _ timeline_iff_getElem.symm

theorem timeline_concat_iff {sent : List (Transmission K)} {t : Transmission K} :
    Timeline (sent ++ [t]) ↔ Timeline sent ∧ Follows sent t := by
  constructor
  · intro h
    refine ⟨?_, h sent t [] rfl⟩
    rintro past u later rfl
    exact h past u (later ++ [t]) (by simp)
  · rintro ⟨hsent, ht⟩ past u later hsplit
    rcases List.eq_nil_or_concat later with rfl | ⟨later, w, rfl⟩
    · obtain ⟨rfl, rfl⟩ := List.append_inj' hsplit rfl |>.imp id (List.cons.inj · |>.1)
      exact ht
    · refine hsent past u later ?_
      rw [List.concat_eq_append, ← List.cons_append, ← List.append_assoc] at hsplit
      exact (List.append_inj' hsplit rfl).1

/-- A part of a timeline from its beginning. -/
theorem Timeline.of_append {past later : List (Transmission K)} (h : Timeline (past ++ later)) :
    Timeline past := by
  rintro earlier t rest rfl
  exact h earlier t (rest ++ later) (by simp)

/-! ## Numbers -/

/-- Numbers stay below the number of transmissions. -/
theorem Timeline.number_lt {sent : List (Transmission K)} (h : Timeline sent)
    {u : Transmission K} (hu : u ∈ sent) :
    u.number < (sent.filter (·.source = u.source)).length := by
  induction sent using List.reverseRecOn with
  | nil => cases hu
  | append_singleton sent t ih =>
      obtain ⟨hsent, ht⟩ := timeline_concat_iff.1 h
      rw [List.filter_append, List.length_append]
      rcases List.mem_append.1 hu with hu | hu
      · have hlt := ih hsent hu
        omega
      · obtain rfl := List.mem_singleton.1 hu
        rw [ht.number]
        simp

/-- A sender's numbers tell its transmissions apart. -/
theorem Timeline.eq_of_number_eq {sent : List (Transmission K)} (h : Timeline sent)
    {u v : Transmission K} (hu : u ∈ sent) (hv : v ∈ sent) (hsource : u.source = v.source)
    (hnumber : u.number = v.number) : u = v := by
  induction sent using List.reverseRecOn with
  | nil => cases hu
  | append_singleton sent t ih =>
      obtain ⟨hsent, ht⟩ := timeline_concat_iff.1 h
      have hnew : ∀ w ∈ sent, w.source = t.source → w.number ≠ t.number := by
        intro w hw hw'
        have hlt := hsent.number_lt hw
        rw [hw'] at hlt
        rw [ht.number]
        omega
      rcases List.mem_append.1 hu with hu' | hu' <;> rcases List.mem_append.1 hv with hv' | hv'
      · exact ih hsent hu' hv'
      · obtain rfl := List.mem_singleton.1 hv'
        exact absurd hnumber (hnew u hu' hsource)
      · obtain rfl := List.mem_singleton.1 hu'
        exact absurd hnumber.symm (hnew v hv' hsource.symm)
      · rw [List.mem_singleton.1 hu', List.mem_singleton.1 hv']

/-- Two transmissions of a sender with the same last seven bits of their numbers are one if and only
if fewer than 128 numbers lie between them. -/
theorem Timeline.eq_iff_of_mod_eq {sent : List (Transmission K)} (h : Timeline sent)
    {u v : Transmission K} (hu : u ∈ sent) (hv : v ∈ sent) (hsource : u.source = v.source)
    (hmod : u.number % 128 = v.number % 128) :
    u = v ↔ u.number < v.number + 128 ∧ v.number < u.number + 128 := by
  constructor
  · rintro rfl
    omega
  · rintro ⟨huv, hvu⟩
    exact h.eq_of_number_eq hu hv hsource (by omega)

/-! ## The latest transmission -/

theorem mem_of_latestHeard? {sent : List (Transmission K)} {id : AnchorId} {u : Transmission K}
    (h : latestHeard? sent id = some u) : u ∈ sent ∧ u.source = id ∧ u.heard.isSome = true := by
  have hmem := List.mem_of_getLast? h
  simpa using List.mem_filter.1 hmem

theorem mem_of_latestReceived? {sent : List (Transmission K)} {receiver id : AnchorId}
    {v : Transmission K} (h : latestReceived? sent receiver id = some v) :
    v ∈ sent ∧ v.source = id := by
  have hmem := List.mem_of_getLast? h
  have hv := List.mem_filter.1 hmem
  exact ⟨hv.1, (of_decide_eq_true hv.2).1⟩

theorem arrivals_concat (sent : List (Transmission K)) (t : Transmission K) :
    arrivals (sent ++ [t]) = arrivals sent ++ t.arrival?.toList := by
  cases h : t.arrival? <;> simp [arrivals, h]

theorem source_of_arrival? {t : Transmission K} {a : Arrival K} (h : t.arrival? = some a) :
    a.source = t.source := by
  obtain ⟨heard, -, rfl⟩ := Option.map_eq_some_iff.1 h
  rfl

/-- The last packet that the tag received from an anchor is the latest transmission that it
heard. -/
theorem getLast?_packetsOf {sent : List (Transmission K)} {id : AnchorId} {a : Arrival K}
    (h : (packetsOf id (arrivals sent)).getLast? = some a) :
    ∃ u, latestHeard? sent id = some u ∧ u.arrival? = some a := by
  induction sent using List.reverseRecOn with
  | nil => cases h
  | append_singleton sent t ih =>
      rw [arrivals_concat, packetsOf_append] at h
      rw [latestHeard?] at ih ⊢
      cases harrival : t.arrival? with
      | none =>
          have hheard : t.heard = none := Option.map_eq_none_iff.1 harrival
          rw [harrival] at h
          simpa [packetsOf, hheard] using ih (by simpa [packetsOf] using h)
      | some b =>
          obtain ⟨heard, hheard, -⟩ := Option.map_eq_some_iff.1 harrival
          have hsource := source_of_arrival? harrival
          rw [harrival] at h
          by_cases hid : t.source = id
          · rw [Option.toList_some, packetsOf_singleton_of_eq (hsource.trans hid)] at h
            refine ⟨t, by simp [hid, hheard], ?_⟩
            rw [harrival]
            simpa using h
          · have hne : b.source ≠ id := by
              rw [hsource]
              exact hid
            rw [Option.toList_some, packetsOf_singleton_of_ne hne, List.append_nil] at h
            simpa [hid] using ih h

/-! ## The last report -/

/-- What the tag writes about a neighbour of `id` when it receives a transmission. -/
def writes (t : Transmission K) (id neighbour : AnchorId) : List (Entry Reception) :=
  ((packetsOf id t.arrival?.toList).flatMap Arrival.receptions).filter (·.key = neighbour)

theorem mem_writes_iff {t : Transmission K} {id neighbour : AnchorId} {e : Entry Reception} :
    e ∈ t.writes id neighbour ↔ t.source = id ∧ e.key = neighbour ∧
      ∃ a, t.arrival? = some a ∧ e ∈ a.receptions := by
  rw [writes, packetsOf]
  simp only [List.mem_filter, List.mem_flatMap, Option.mem_toList, decide_eq_true_eq]
  constructor
  · rintro ⟨⟨a, ⟨ha, hid⟩, he⟩, hkey⟩
    exact ⟨(source_of_arrival? ha).symm.trans hid, hkey, a, ha, he⟩
  · rintro ⟨hid, hkey, a, ha, he⟩
    exact ⟨⟨a, ⟨ha, (source_of_arrival? ha).trans hid⟩, he⟩, hkey⟩

/-- A transmission that reports on a neighbour writes something. -/
theorem writes_ne_nil_of_reports {t : Transmission K} {id neighbour : AnchorId}
    (h : t.Reports id neighbour) : t.writes id neighbour ≠ [] := by
  obtain ⟨rfl, hne, hheard, report, hmem, rfl, hrx⟩ := h
  obtain ⟨heard, hheard⟩ := Option.isSome_iff_exists.1 hheard
  have harrival : t.arrival? = some ⟨t.broadcast, heard.1, heard.2⟩ := by
    rw [arrival?, hheard, Option.map_some]
  let e : Entry Reception :=
    ⟨⟨⟨report.rxTime, report.sequence &&& sequenceMask⟩, heard.2⟩, report.neighbour⟩
  have he : e ∈ t.writes t.source report.neighbour := by
    refine mem_writes_iff.2 ⟨rfl, rfl, _, harrival, ?_⟩
    exact Arrival.mem_receptions_iff.2 ⟨hne, report, hmem, rfl, hrx, rfl⟩
  exact List.ne_nil_of_mem he

/-- What a transmission writes describes the latest transmission that its sender received. -/
theorem Follows.of_mem_writes {past : List (Transmission K)} {t : Transmission K}
    (h : Follows past t) {id neighbour : AnchorId} {e : Entry Reception}
    (he : e ∈ t.writes id neighbour) :
    t.Reports id neighbour ∧ ∃ v, latestReceived? past id neighbour = some v ∧
      v.received id = some e.value.time ∧ e.value.sequence.toNat = v.number % 128 := by
  obtain ⟨rfl, rfl, a, ha, he⟩ := mem_writes_iff.1 he
  obtain ⟨heard, hheard, rfl⟩ := Option.map_eq_some_iff.1 ha
  obtain ⟨hne, report, hmem, hkey, hrx, hentry⟩ := Arrival.mem_receptions_iff.1 he
  obtain ⟨v, hlatest, hreceived, hsequence⟩ := (h.reports report hmem).resolve_left hrx
  refine ⟨⟨rfl, hne, by simp [hheard], report, hmem, hkey, hrx⟩, v, ?_, ?_, ?_⟩
  · rw [← hkey, hlatest]
  · rw [hentry, hreceived]
  · rw [hentry, toNat_and_sequenceMask, hsequence, Nat.mod_mod]

/-- The last entry that an anchor's packets write about a neighbour describes the transmission that
its last report is on. -/
theorem Timeline.lastReported {sent : List (Transmission K)} (h : Timeline sent)
    {id neighbour : AnchorId} {e : Entry Reception}
    (he : (((packetsOf id (arrivals sent)).flatMap Arrival.receptions).filter
      (·.key = neighbour)).getLast? = some e) :
    ∃ v, LastReported sent id neighbour v ∧ v.received id = some e.value.time ∧
      e.value.sequence.toNat = v.number % 128 := by
  induction sent using List.reverseRecOn with
  | nil => cases he
  | append_singleton sent t ih =>
      obtain ⟨hsent, ht⟩ := timeline_concat_iff.1 h
      rw [arrivals_concat, packetsOf_append, List.flatMap_append, List.filter_append,
        List.getLast?_append] at he
      change ((t.writes id neighbour).getLast?.or _) = some e at he
      by_cases hwrites : t.writes id neighbour = []
      · rw [hwrites, List.getLast?_nil, Option.none_or] at he
        obtain ⟨v, ⟨past, t', later, rfl, hreports, hlater, hlatest⟩, hv⟩ := ih hsent he
        refine ⟨v, ⟨past, t', later ++ [t], by simp, hreports, ?_, hlatest⟩, hv⟩
        intro w hw hw'
        rcases List.mem_append.1 hw with hw | hw
        · exact hlater w hw hw'
        · rw [List.mem_singleton.1 hw] at hw'
          exact writes_ne_nil_of_reports hw' hwrites
      · have hlast : (t.writes id neighbour).getLast? = some e := by
          rw [List.getLast?_eq_some_getLast hwrites] at he ⊢
          simpa using he
        obtain ⟨hreports, v, hlatest, hv⟩ := ht.of_mem_writes (List.mem_of_getLast? hlast)
        exact ⟨v, ⟨sent, t, [], rfl, hreports, by simp, hlatest⟩, hv⟩

theorem mem_of_lastReported {sent : List (Transmission K)} {id neighbour : AnchorId}
    {v : Transmission K} (h : LastReported sent id neighbour v) :
    v ∈ sent ∧ v.source = neighbour := by
  obtain ⟨past, t, later, rfl, -, -, hlatest⟩ := h
  obtain ⟨hmem, hsource⟩ := mem_of_latestReceived? hlatest
  exact ⟨List.mem_append_left _ hmem, hsource⟩

end Transmission

variable {K : Type} [Scalar K]

namespace Receiver

open Transmission

/-- What is stored of an anchor comes from its latest transmission that the tag received. -/
theorem latestHeard?_of_find? {r : Receiver K} (hsound : r.table.Sound)
    {sent : List (Transmission K)} (hsent : Timeline sent) {id : AnchorId}
    (hstart : r.table.find? id = none) {ρ : Record K}
    (hfind : (r.afterAll (arrivals sent)).table.find? id = some ρ) :
    ∃ u a, latestHeard? sent id = some u ∧ u.arrival? = some a ∧ ρ.rxTime = some a.rxTime ∧
      ρ.sequence.toNat = u.number % 128 := by
  obtain ⟨a, hlast, hrx, -, hsequence, -⟩ := last_packet_of_find? hsound hstart hfind
  obtain ⟨u, hu, ha⟩ := getLast?_packetsOf hlast
  have hbroadcast : a.broadcast = u.broadcast := by
    obtain ⟨heard, -, rfl⟩ := Option.map_eq_some_iff.1 ha
    rfl
  obtain ⟨past, later, rfl⟩ := List.append_of_mem (mem_of_latestHeard? hu).1
  have hnumber := (hsent past u later rfl).sequence
  refine ⟨u, a, hu, ha, hrx, ?_⟩
  rw [hsequence, toNat_and_sequenceMask, hbroadcast, hnumber, Nat.mod_mod]

/-- What is stored about a neighbour describes the transmission of the last report. -/
theorem lastReported_of_reception? {r : Receiver K} (hsound : r.table.Sound)
    {sent : List (Transmission K)} (hsent : Timeline sent) {id neighbour : AnchorId}
    (hstart : r.table.find? id = none) {ρ : Record K}
    (hfind : (r.afterAll (arrivals sent)).table.find? id = some ρ) {windows : Windows}
    {now : Millis} {reception : Reception}
    (hreception : ρ.reception? windows now neighbour = some reception) :
    ∃ v, LastReported sent id neighbour v ∧ v.received id = some reception.time ∧
      reception.sequence.toNat = v.number % 128 := by
  rw [Record.reception?] at hreception
  rw [Recent.find?_eq_bind_stored?] at hreception
  obtain ⟨e, he, hfresh⟩ := Option.bind_eq_some_iff.1 hreception
  obtain ⟨-, rfl⟩ := Stamped.fresh?_eq_some_iff.1 hfresh
  exact hsent.lastReported (last_report_of_stored? hsound hstart hfind he)

/-- The measurement `m`, given by the packet `a`, is computed from when `u` reached the tag and when
`v` reached the packet's sender, as reported in the sender's valid entry. `r` is the receiver after
the packet. -/
def Combines (r : Receiver K) (a : Arrival K) (m : Measurement K) (u v : Transmission K) : Prop :=
  ∃ sender flight reception b, r.table.find? a.source = some sender ∧
    sender.flight? r.table.windows a.now m.first = some flight ∧
    sender.reception? r.table.windows a.now m.first = some reception ∧
    u.arrival? = some b ∧ v.received a.source = some reception.time ∧
    reception.sequence.toNat = v.number % 128 ∧
    m.distanceDiff = speedOfLight *
      (Scalar.ofInt (Ticks.elapsed b.rxTime a.rxTime).toInt
        - Scalar.ofInt (flight + Ticks.elapsed reception.time a.broadcast.txTime).toInt
          * sender.clock.ratio) / r.tickFrequency

/-- A measurement combines the latest transmission of its first anchor that the tag received and the
one that its second anchor last reported on. They have the same last seven bits of their numbers. -/
theorem exists_combines {r : Receiver K} (hsound : r.table.Sound)
    (hstart : ∀ id, r.table.find? id = none) {past : List (Transmission K)} {t : Transmission K}
    (hsent : Timeline (past ++ [t])) {a : Arrival K} (ha : t.arrival? = some a)
    {m : Measurement K} (hm : (r.afterAll (arrivals past)).measurement? a = some m) :
    m.second = t.source ∧ ∃ u v, latestHeard? past m.first = some u ∧
      LastReported (past ++ [t]) t.source m.first v ∧
      ((r.afterAll (arrivals past)).after a).Combines a m u v ∧
      u.number % 128 = v.number % 128 := by
  have hslot := (sound_afterAll hsound (arrivals past)).hasSlot
  have hsource := source_of_arrival? ha
  have hafter : (r.afterAll (arrivals past)).after a = r.afterAll (arrivals (past ++ [t])) := by
    rw [arrivals_concat, ha, afterAll_append]
    rfl
  obtain ⟨hsecond, sender, other, flight, reception, otherRx, hsender, hflight, hreception, hheard,
    hother, hrx, hdistance⟩ := measurement?_spec hslot hm
  obtain ⟨u, b, hu, hb, hurx, husequence⟩ :=
    latestHeard?_of_find? hsound hsent.of_append (hstart _) hother
  have hsender' := hsender
  rw [hafter, hsource] at hsender'
  obtain ⟨v, hv, hvrx, hvsequence⟩ :=
    lastReported_of_reception? hsound hsent (hstart _) hsender' hreception
  refine ⟨hsecond.trans hsource, u, v, hu, hv, ?_, ?_⟩
  · obtain rfl : b.rxTime = otherRx := Option.some.inj (hurx.symm.trans hrx)
    refine ⟨sender, flight, reception, b, hsender, ?_, ?_, hb, ?_, hvsequence, hdistance⟩
    · rwa [after_windows]
    · rwa [after_windows]
    · rw [hsource, hvrx]
  · -- The match is on the sequence number that the sender's valid report carries.
    obtain ⟨reception', hreception', hsequence⟩ := (Record.mem_heard_iff
      (sound_receptions_of_find? hsound (hstart _) hsender')).1 hheard
    obtain rfl := Option.some.inj (hreception.symm.trans hreception')
    rw [← husequence, ← hvsequence, hsequence]

/-- A measurement of B and A that a packet of A gives combines the latest transmission of B that the
tag received and the one that A last reported on. They have the same last seven bits of their
numbers. They are one transmission if and only if fewer than 128 numbers lie between them. -/
theorem measurement_same_broadcast_iff {s : Settings K} {start : Millis} {r : Receiver K}
    (hcreate : create s start = .ok r) {past later : List (Transmission K)} {t : Transmission K}
    (hsent : Timeline (past ++ t :: later)) {a : Arrival K} (ha : t.arrival? = some a) :
    ∃ flags r₁ reliable r₂ emitted, r.run (arrivals past) = .ok (flags, r₁) ∧
      r₁.handle a.broadcast a.rxTime a.now = .ok (reliable, r₂) ∧
      r₂.outbox = r₁.outbox ++ emitted ∧
      ∀ m ∈ emitted, m.second = t.source ∧ ∃ u v, latestHeard? past m.first = some u ∧
        LastReported (past ++ [t]) t.source m.first v ∧ r₂.Combines a m u v ∧
        u.number % 128 = v.number % 128 ∧
        (u = v ↔ u.number < v.number + 128 ∧ v.number < u.number + 128) := by
  have hsound := sound_of_create hcreate
  have hsound' := sound_afterAll hsound (arrivals past)
  have hnow : Timeline (past ++ [t]) := by
    have hassoc : Timeline ((past ++ [t]) ++ later) := by simpa using hsent
    exact hassoc.of_append
  refine ⟨_, r.afterAll (arrivals past), _, (r.afterAll (arrivals past)).after a,
    ((r.afterAll (arrivals past)).measurement? a).toList, run_eq hsound (arrivals past),
    handle_eq hsound'.hasSlot a, after_outbox _ a, ?_⟩
  intro m hm
  obtain ⟨hsecond, u, v, hu, hv, hcombines, hmod⟩ :=
    exists_combines hsound (find?_of_create hcreate) hnow ha (Option.mem_toList.1 hm)
  obtain ⟨hmemu, hsourceu, -⟩ := mem_of_latestHeard? hu
  obtain ⟨hmemv, hsourcev⟩ := mem_of_lastReported hv
  exact ⟨hsecond, u, v, hu, hv, hcombines, hmod, hnow.eq_iff_of_mod_eq
    (List.mem_append_left _ hmemu) hmemv (hsourceu.trans hsourcev.symm) hmod⟩

/-- A broadcast of anchor 2. Anchor 1 receives the first one only, and the tag number `n`. -/
def neighbourSends (n i : Nat) : Transmission Float where
  broadcast := ⟨⟨2⟩, Int64.ofNat (640000000 * i), (i % 128).toUInt8, [], some ⟨0.0, 0.0, 0.0⟩⟩
  number := i
  received _ := if i = 0 then some 962000000 else none
  heard := if i = n then some (Int64.ofNat (640000000 * n + 964500000), (15 + 10 * n).toUInt32)
    else none

/-- A broadcast of anchor 1, which the tag receives. -/
def senderSends (i : Nat) (txTime : Ticks) (now : Millis) (reports : List Report) :
    Transmission Float where
  broadcast := ⟨⟨1⟩, txTime, i.toUInt8, reports, some ⟨3.0, 0.0, 0.0⟩⟩
  number := i
  received _ := none
  heard := some (txTime + 4000000, now)

/-- After two broadcasts of anchor 1, anchor 2 sends every ten milliseconds. -/
def missedRun (n : Nat) : List (Transmission Float) :=
  [senderSends 0 1000000 0 [], senderSends 1 641000000 10 []] ++
    (List.range (n + 1)).map (neighbourSends n)

/-- Anchor 1 reports on the first broadcast of anchor 2, with the tag having heard number `n`. -/
def lateReport (n : Nat) : Transmission Float :=
  senderSends 2 (Int64.ofNat (640000000 * n + 1281000000)) (20 + 10 * n).toUInt32
    [⟨⟨2⟩, 962000000, 0, 50⟩]

/-- Anchor 1's report as the tag receives it. -/
def lateArrival (n : Nat) : Arrival Float :=
  ⟨(lateReport n).broadcast, Int64.ofNat (640000000 * n + 1281000000) + 4000000,
    (20 + 10 * n).toUInt32⟩

/-- The receiver just before the report. -/
def beforeReport (n : Nat) : Receiver Float :=
  (fresh Settings.standard 0).afterAll (arrivals (missedRun n))

/-- If the tag heard the first broadcast of anchor 2 too, it is the one that is measured. -/
theorem measurement_same_broadcast_missedRun : ∃ flags r₁ r₂ m u,
    (fresh Settings.standard 0).run (arrivals (missedRun 0)) = .ok (flags, r₁) ∧
    r₁.handle (lateArrival 0).broadcast (lateArrival 0).rxTime (lateArrival 0).now =
      .ok (true, r₂) ∧
    r₂.outbox = r₁.outbox ++ [m] ∧ latestHeard? (missedRun 0) m.first = some u ∧
    LastReported (missedRun 0 ++ [lateReport 0]) ⟨1⟩ m.first u := by
  have hsent : Timeline (missedRun 0 ++ [lateReport 0]) := by decide +kernel
  have hreliable : (beforeReport 0).reliable (lateArrival 0) = true := by decide +kernel
  obtain ⟨m, hm, hfirst⟩ : ∃ m, (beforeReport 0).measurement? (lateArrival 0) = some m ∧
      m.first = ⟨2⟩ := Option.map_eq_some_iff.1 (by decide +kernel)
  obtain ⟨flags, r₁, reliable, r₂, emitted, hrun, hhandle, houtbox, hemitted⟩ :=
    measurement_same_broadcast_iff (create_standard 0) hsent (a := lateArrival 0) rfl
  obtain ⟨-, hr₁⟩ := eq_of_run (sound_of_create (create_standard 0)) hrun
  change r₁ = beforeReport 0 at hr₁
  obtain ⟨-, hflag, hr₂⟩ := eq_after_of_handle hhandle
  obtain rfl : emitted = [m] := by
    rw [hr₂, hr₁, after_outbox, hm] at houtbox
    exact (List.append_cancel_left houtbox).symm
  rw [hflag, hr₁, hreliable] at hhandle
  obtain ⟨-, u, v, hu, hv, -, -, hiff⟩ := hemitted m (by simp)
  obtain ⟨hmemu, hsourceu, -⟩ := mem_of_latestHeard? hu
  obtain ⟨hmemv, hsourcev⟩ := mem_of_lastReported hv
  have hltu := hsent.number_lt (List.mem_append_left _ hmemu)
  have hltv := hsent.number_lt hmemv
  have hcount : ((missedRun 0 ++ [lateReport 0]).filter (·.source = ⟨2⟩)).length = 1 := by
    decide +kernel
  rw [hsourceu, hfirst, hcount] at hltu
  rw [hsourcev, hfirst, hcount] at hltv
  obtain rfl := hiff.2 (by omega)
  rw [← hr₁] at hhandle
  exact ⟨flags, r₁, r₂, m, u, hrun, hhandle, houtbox, hu, hv⟩

/-- Anchor 1 missed 128 broadcasts of anchor 2, and the tag heard the last of them. A measurement
combines it with the one before those, since their sequence numbers are equal. -/
theorem measurement_of_two_broadcasts : ∃ r r₁ r₂ flags m u v,
    create Settings.standard 0 = .ok r ∧ Timeline (missedRun 128 ++ [lateReport 128]) ∧
    r.run (arrivals (missedRun 128)) = .ok (flags, r₁) ∧
    r₁.handle (lateArrival 128).broadcast (lateArrival 128).rxTime (lateArrival 128).now =
      .ok (true, r₂) ∧ r₂.outbox = r₁.outbox ++ [m] ∧
    latestHeard? (missedRun 128) m.first = some u ∧
    LastReported (missedRun 128 ++ [lateReport 128]) ⟨1⟩ m.first v ∧
    r₂.Combines (lateArrival 128) m u v ∧ u.number = 128 ∧ v.number = 0 := by
  have hsound := sound_of_create (create_standard 0)
  have hsent : Timeline (missedRun 128 ++ [lateReport 128]) := by decide +kernel
  have hreliable : (beforeReport 128).reliable (lateArrival 128) = true := by decide +kernel
  obtain ⟨m, hm, hfirst⟩ : ∃ m, (beforeReport 128).measurement? (lateArrival 128) = some m ∧
      m.first = ⟨2⟩ := Option.map_eq_some_iff.1 (by decide +kernel)
  have hhandle := handle_eq (r := beforeReport 128) (sound_afterAll hsound _).hasSlot
    (lateArrival 128)
  rw [hreliable] at hhandle
  have hsent' : ((beforeReport 128).after (lateArrival 128)).outbox =
      (beforeReport 128).outbox ++ [m] := by
    rw [after_outbox, hm]
    rfl
  obtain ⟨-, u, v, hu, hv, hcombines, -⟩ := exists_combines hsound
    (find?_of_create (create_standard 0)) hsent (a := lateArrival 128) rfl hm
  refine ⟨_, _, _, _, m, u, v, create_standard 0, hsent, run_eq hsound _, hhandle, hsent', hu, hv,
    hcombines, ?_, ?_⟩
  · have hnumber : (latestHeard? (missedRun 128) ⟨2⟩).map (·.number) = some 128 := by
      decide +kernel
    rw [← hfirst, hu] at hnumber
    exact Option.some.inj hnumber
  · -- Nothing but the first broadcast of anchor 2 reached anchor 1.
    have hreceived : ∀ w ∈ missedRun 128 ++ [lateReport 128],
        (w.received ⟨1⟩).isSome = true → w.number = 0 := by
      decide +kernel
    obtain ⟨sender, flight, reception, b, -, -, -, -, hvreceived, -⟩ := hcombines
    refine hreceived v (mem_of_lastReported hv).1 ?_
    change v.received ⟨1⟩ = _ at hvreceived
    rw [hvreceived]
    rfl

end Receiver

end Ranging

import Ranging.Proofs.Dated
import Ranging.Proofs.Recency

/-!
# Who is in the table

A new anchor that finds the table full takes the place of the one heard longest ago. Ages are taken
modulo the period of the millisecond clock, and an anchor that left may come back, so it is not
obvious what a whole run leaves behind. For a timely run it is simple: the stored anchors are kept in
the sense of `Recency.Kept`. The table is as full as the number of anchors heard allows, and nobody
outside it was heard later than anybody inside. This goes from packet to packet. If no two packets are
handled at the same time, it says who is stored: those heard most recently, as many as there are
slots.
-/

namespace Ranging

variable {K : Type}

namespace Dated

/-- The anchors heard, the last one first. -/
def recent (ds : List (Dated K)) : List AnchorId :=
  (ds.map source).dedup.reverse

end Dated

/-- The stored anchors without repetition. -/
theorem Table.card_ids {t : Table K} (h : t.Sound) : t.ids.toFinset.card = t.size := by
  rw [ids, List.toFinset_card_of_nodup h.ids_nodup, List.length_map, size]

theorem Table.mem_toFinset_ids {t : Table K} {id : AnchorId} :
    id ∈ t.ids.toFinset ↔ (t.find? id).isSome = true := by
  rw [List.mem_toFinset, mem_ids_iff, contains_iff]

namespace Receiver

open Dated

variable [Scalar K]

section Timely

variable {r : Receiver K} {past : List (Dated K)} {d : Dated K}

/-- A stored anchor was heard, and its record has the time of its last packet. -/
theorem lastFrom?_of_find? (hsound : r.table.Sound) (hstart : ∀ id, r.table.find? id = none)
    {ds : List (Dated K)} {id : AnchorId} {ρ : Record K}
    (hfind : (r.afterAll (ds.map arrival)).table.find? id = some ρ) :
    ∃ p, lastFrom? ds id = some p ∧ ρ.rxTime = some p.rxTime ∧
      ρ.lastUpdate = Millis.ofTime p.time := by
  obtain ⟨a, hlast, hrx, -, -, hupdate⟩ := last_packet_of_find? hsound (hstart id) hfind
  rw [getLast?_packetsOf_arrivals] at hlast
  obtain ⟨p, hp, rfl⟩ := Option.map_eq_some_iff.1 hlast
  exact ⟨p, hp, hrx, hupdate⟩

/-- An anchor that has to make room was heard no later than any other. -/
theorem le_of_evicted (hsound : r.table.Sound) (hstart : ∀ id, r.table.find? id = none)
    (htimely : Timely (past ++ [d])) {old other : Record K}
    (hold : old ∈ (r.afterAll (past.map arrival)).table.records)
    (hother : other ∈ (r.afterAll (past.map arrival)).table.records)
    (hage : Millis.since other.lastUpdate d.arrival.now ≤
      Millis.since old.lastUpdate d.arrival.now)
    {p q : Dated K} (hp : lastFrom? past other.id = some p) (hq : lastFrom? past old.id = some q) :
    q.time ≤ p.time := by
  have hsound' := sound_afterAll hsound (past.map arrival)
  have hupdate : ∀ ρ ∈ (r.afterAll (past.map arrival)).table.records, ∀ e,
      lastFrom? past ρ.id = some e → ρ.lastUpdate = Millis.ofTime e.time := by
    intro ρ hρ e he
    obtain ⟨e', he', -, hupdate⟩ :=
      lastFrom?_of_find? hsound hstart ((Table.find?_eq_some_iff hsound').2 ⟨hρ, rfl⟩)
    obtain rfl := Option.some.inj (he.symm.trans he')
    exact hupdate
  rw [hupdate other hother p hp, hupdate old hold q hq] at hage
  obtain ⟨hqle, hqspan⟩ := htimely.of_mem (List.mem_append_left _ (mem_of_lastFrom? hq).1)
  obtain ⟨hple, hpspan⟩ := htimely.of_mem (List.mem_append_left _ (mem_of_lastFrom? hp).1)
  exact Millis.le_of_since_le hqle hple hqspan hpspan hage

/-- The sender of a packet is stored afterwards, and others if they are after it has entered. -/
theorem mem_ids_after {r : Receiver K} (h : r.table.HasSlot) (a : Arrival K) (id : AnchorId) :
    id ∈ (r.after a).table.ids.toFinset ↔
      id = a.source ∨ ((r.table.entered a.source a.now).find? id).isSome = true := by
  rw [Table.mem_toFinset_ids, find?_after h]
  by_cases hid : id = a.source <;> simp [hid]

/-- What one packet does to the anchors stored. -/
theorem kept_after (hsound : r.table.Sound) (hstart : ∀ id, r.table.find? id = none)
    (htimely : Timely (past ++ [d]))
    (h : Recency.Kept source time (r.afterAll (past.map arrival)).table.capacity past
      (r.afterAll (past.map arrival)).table.ids.toFinset) :
    Recency.Kept source time (r.afterAll (past.map arrival)).table.capacity (past ++ [d])
      ((r.afterAll (past.map arrival)).after d.arrival).table.ids.toFinset := by
  have hsound' := sound_afterAll hsound (past.map arrival)
  have hcard := Table.card_ids hsound'
  have hordered : ∀ p ∈ past, p.time ≤ d.time :=
    fun p hp => (htimely.of_mem (List.mem_append_left _ hp)).1
  obtain ⟨hstored, heq⟩ | ⟨hnone, hroom, -, hfind⟩ | ⟨hnone, hfull, -, old, hold, hage, hfind⟩ :=
    Table.find?_entered hsound' d.arrival.source d.arrival.now
  · have hids : ((r.afterAll (past.map arrival)).after d.arrival).table.ids.toFinset =
        (r.afterAll (past.map arrival)).table.ids.toFinset := by
      ext id
      rw [mem_ids_after hsound'.hasSlot, heq, Table.mem_toFinset_ids]
      exact or_iff_right_of_imp fun hid => hid ▸ hstored
    rw [hids]
    exact h.again (Table.mem_toFinset_ids.2 hstored) hordered
  · have hids : ((r.afterAll (past.map arrival)).after d.arrival).table.ids.toFinset =
        insert d.source (r.afterAll (past.map arrival)).table.ids.toFinset := by
      ext id
      rw [mem_ids_after hsound'.hasSlot, Finset.mem_insert, Table.mem_toFinset_ids, arrival_source]
      by_cases hid : id = d.source
      · simp [hid]
      · rw [← arrival_source, hfind id hid]
    have hnew : d.source ∉ (r.afterAll (past.map arrival)).table.ids.toFinset := by
      rw [Table.mem_toFinset_ids, ← arrival_source, hnone]
      exact Bool.false_ne_true
    rw [hids]
    exact h.grow hnew (hcard.trans_lt hroom) hordered
  · have hids : ((r.afterAll (past.map arrival)).after d.arrival).table.ids.toFinset =
        insert d.source ((r.afterAll (past.map arrival)).table.ids.toFinset.erase old.id) := by
      ext id
      rw [mem_ids_after hsound'.hasSlot, Finset.mem_insert, Finset.mem_erase,
        Table.mem_toFinset_ids, arrival_source]
      by_cases hid : id = d.source
      · simp [hid]
      · rw [← arrival_source, hfind id hid]
        by_cases hvictim : old.id = id
        · simp [hvictim]
        · simp [hvictim, Ne.symm hvictim]
    have hnew : d.source ∉ (r.afterAll (past.map arrival)).table.ids.toFinset := by
      rw [Table.mem_toFinset_ids, ← arrival_source, hnone]
      exact Bool.false_ne_true
    rw [hids]
    refine h.replace hnew (hcard.trans hfull) ?_ ?_ hordered
    · exact List.mem_toFinset.2 (List.mem_map.2 ⟨old, hold, rfl⟩)
    · intro x hx p q hp hq
      obtain ⟨other, hother, rfl⟩ := List.mem_map.1 (List.mem_toFinset.1 hx)
      exact le_of_evicted hsound hstart htimely hold hother (hage other hother) hp hq

/-- What a timely run leaves in the table. -/
theorem kept_afterAll {s : Settings K} {start : Millis} (hcreate : create s start = .ok r)
    {ds : List (Dated K)} (htimely : Timely ds) :
    Recency.Kept source time s.anchorCapacity ds
      (r.afterAll (ds.map arrival)).table.ids.toFinset := by
  have hsound := sound_of_create hcreate
  have hcapacity (ds : List (Dated K)) :
      (r.afterAll (ds.map arrival)).table.capacity = s.anchorCapacity := by
    rw [afterAll_capacity, (create_eq_ok_iff.1 hcreate).2]
    rfl
  induction ds using List.reverseRecOn with
  | nil =>
      obtain ⟨-, rfl⟩ := create_eq_ok_iff.1 hcreate
      exact Recency.Kept.nil
  | append_singleton past d ih =>
      have hpast := ih htimely.of_append
      rw [← hcapacity past] at hpast ⊢
      rw [List.map_append, afterAll_append]
      exact kept_after hsound (find?_of_create hcreate) htimely hpast

/-- After every packet of a timely run the table holds as many anchors as were heard, up to its
capacity, and none that is stored was heard earlier than one that is not. If no two packets are
handled at the same time, the stored anchors are those heard most recently. -/
theorem table_least_recent {s : Settings K} {start : Millis} (hcreate : create s start = .ok r)
    {past later : List (Dated K)} (htimely : Timely (past ++ later)) :
    ∃ flags r', r.run (past.map arrival) = .ok (flags, r') ∧
      r'.table.size = min s.anchorCapacity (past.map source).toFinset.card ∧
      (∀ x, r'.table.contains x = true → ∃ p, lastFrom? past x = some p ∧
        ∀ y q, ¬ r'.table.contains y = true → lastFrom? past y = some q → q.time ≤ p.time) ∧
      (past.Pairwise (·.time < ·.time) → ∀ x, r'.table.contains x = true ↔
        x ∈ (recent past).take s.anchorCapacity) := by
  have hsound := sound_of_create hcreate
  have h := kept_afterAll hcreate htimely.of_append
  have hstored (x : AnchorId) : (r.afterAll (past.map arrival)).table.contains x = true ↔
      x ∈ (r.afterAll (past.map arrival)).table.ids.toFinset := by
    rw [List.mem_toFinset, Table.mem_ids_iff]
  refine ⟨_, _, run_eq hsound _, ?_, ?_, ?_⟩
  · rw [← Table.card_ids (sound_afterAll hsound _), h.card]
  · intro x hx
    rw [hstored] at hx
    obtain ⟨p, hp⟩ := Recency.exists_last?_iff.2 (List.mem_toFinset.1 (h.subset hx))
    refine ⟨p, hp, fun y q hy hq => ?_⟩
    rw [hstored] at hy
    exact h.le x hx y hy p q hp hq
  · intro hstrict x
    rw [hstored]
    exact h.mem_iff hstrict x

end Timely

/-- Room for two anchors. -/
def twoSlots : Settings Float :=
  { Settings.standard with anchorCapacity := 2 }

/-- A packet without reports. -/
def call (id : UInt8) (time : Nat) : Dated Float :=
  ⟨⟨⟨id⟩, 0, 0, [], none⟩, 0, time⟩

/-- Four packets of three anchors, while the millisecond clock starts over. -/
def fourCalls : List (Dated Float) :=
  [call 1 (2 ^ 32 - 20), call 2 (2 ^ 32 - 10), call 1 (2 ^ 32 - 5), call 3 (2 ^ 32 + 3)]

/-- Anchor 2 was heard longest ago and makes room. -/
theorem table_least_recent_fourCalls : ∃ flags r',
    (fresh twoSlots 0).run (fourCalls.map arrival) = .ok (flags, r') ∧ r'.table.size = 2 ∧
    r'.table.contains ⟨1⟩ = true ∧ ¬ r'.table.contains ⟨2⟩ = true ∧
    r'.table.contains ⟨3⟩ = true := by
  have hcreate : create twoSlots 0 = .ok (fresh twoSlots 0) := create_eq_ok_iff.2 ⟨rfl, rfl⟩
  have htimely : Timely (fourCalls ++ []) := by decide
  obtain ⟨flags, r', hrun, hsize, -, hrecent⟩ := table_least_recent hcreate htimely
  have hcontains := hrecent (by decide)
  refine ⟨flags, r', hrun, hsize, ?_, ?_, ?_⟩
  · exact (hcontains ⟨1⟩).2 (by decide)
  · exact (hcontains ⟨2⟩).not.2 (by decide)
  · exact (hcontains ⟨3⟩).2 (by decide)

end Receiver

end Ranging

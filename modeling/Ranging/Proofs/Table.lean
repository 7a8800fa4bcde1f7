import Ranging.Anchor.Table
import Ranging.Proofs.Keyed
import Ranging.Proofs.Millis

/-!
# The table as a map from anchors to records

A sound table holds at most one record for each anchor and has room for at least one. Entering
gives the sender of a packet a slot that holds its record: the stored one, or a blank one in free
space or in place of the record heard longest ago. Everything that happens to a packet afterwards
replaces the record in this slot.

The statements speak about `find?`, the record stored for an anchor, so that slots and their
order do not show.
-/

namespace Ranging.Table

variable {K : Type}

/-- The record stored for an anchor. -/
def find? (t : Table K) (id : AnchorId) : Option (Record K) :=
  t.records.find? (·.id = id)

/-- The table with another record in a slot. -/
def put (t : Table K) (slot : Nat) (r : Record K) : Table K :=
  { t with records := t.records.set slot r }

/-- One record for each anchor, and room for at least one. -/
structure Sound (t : Table K) : Prop where
  capacity_pos : 0 < t.capacity
  receptions_pos : 0 < t.receptionCapacity
  flights_pos : 0 < t.flightCapacity
  ids_nodup : (t.records.map (·.id)).Nodup
  size_le : t.records.length ≤ t.capacity

/-- There is a slot that a new anchor can take. -/
def HasSlot (t : Table K) : Prop :=
  t.records = [] → 0 < t.capacity

theorem Sound.hasSlot {t : Table K} (h : t.Sound) : t.HasSlot :=
  fun _ => h.capacity_pos

@[simp] theorem put_capacity (t : Table K) (slot : Nat) (r : Record K) :
    (t.put slot r).capacity = t.capacity := rfl

@[simp] theorem put_receptionCapacity (t : Table K) (slot : Nat) (r : Record K) :
    (t.put slot r).receptionCapacity = t.receptionCapacity := rfl

@[simp] theorem put_flightCapacity (t : Table K) (slot : Nat) (r : Record K) :
    (t.put slot r).flightCapacity = t.flightCapacity := rfl

@[simp] theorem put_records (t : Table K) (slot : Nat) (r : Record K) :
    (t.put slot r).records = t.records.set slot r := rfl

@[simp] theorem put_put (t : Table K) (slot : Nat) (r s : Record K) :
    (t.put slot r).put slot s = t.put slot s := by
  simp [put]

theorem create_eq_ok_iff {capacity receptionCapacity flightCapacity : Nat} {windows : Windows}
    {t : Table K} :
    create capacity receptionCapacity flightCapacity windows = .ok t ↔
      capacity ≠ 0 ∧ receptionCapacity ≠ 0 ∧ flightCapacity ≠ 0 ∧
        t = { capacity, receptionCapacity, flightCapacity, windows } := by
  simp only [create, bind, Except.bind, throw, throwThe, MonadExceptOf.throw, pure, Except.pure]
  by_cases hanchors : capacity = 0
  · simp [hanchors]
  · by_cases hreceptions : receptionCapacity = 0
    · simp [hanchors, hreceptions]
    · by_cases hflights : flightCapacity = 0
      · simp [hanchors, hreceptions, hflights]
      · simp [hanchors, hreceptions, hflights, eq_comm]

theorem Sound.of_create {capacity receptionCapacity flightCapacity : Nat} {windows : Windows}
    {t : Table K} (h : create capacity receptionCapacity flightCapacity windows = .ok t) :
    t.Sound := by
  obtain ⟨hanchors, hreceptions, hflights, rfl⟩ := create_eq_ok_iff.1 h
  exact ⟨Nat.pos_of_ne_zero hanchors, Nat.pos_of_ne_zero hreceptions, Nat.pos_of_ne_zero hflights,
    List.nodup_nil, Nat.zero_le _⟩

/-! ## Looking up -/

theorem slot?_eq_some {t : Table K} {id : AnchorId} {slot : Nat} (h : t.slot? id = some slot) :
    ∃ r, t.records[slot]? = some r ∧ r.id = id ∧ t.find? id = some r := by
  obtain ⟨hlt, hid, -⟩ := List.findIdx?_eq_some_iff_getElem.1 h
  refine ⟨t.records[slot], List.getElem?_eq_getElem hlt, by simpa using hid, ?_⟩
  have hindex := (List.findIdx?_eq_some_iff_findIdx_eq.1 h).2
  rw [find?, List.find?_eq_getElem?_findIdx, hindex]
  exact List.getElem?_eq_getElem hlt

theorem slot?_eq_none_iff {t : Table K} {id : AnchorId} :
    t.slot? id = none ↔ t.find? id = none := by
  simp [slot?, find?]

theorem find?_eq_some_iff {t : Table K} (h : t.Sound) {id : AnchorId} {r : Record K} :
    t.find? id = some r ↔ r ∈ t.records ∧ r.id = id :=
  Keyed.find?_eq_some_iff h.ids_nodup

theorem id_of_find? {t : Table K} {id : AnchorId} {r : Record K} (h : t.find? id = some r) :
    r.id = id := by
  simpa using List.find?_some h

theorem contains_eq_isSome (t : Table K) (id : AnchorId) :
    t.contains id = (t.find? id).isSome := by
  rw [Bool.eq_iff_iff]
  simp [contains, find?]

theorem contains_iff {t : Table K} {id : AnchorId} :
    t.contains id = true ↔ (t.find? id).isSome = true := by
  rw [contains_eq_isSome]

theorem mem_ids_iff {t : Table K} {id : AnchorId} : id ∈ t.ids ↔ t.contains id = true := by
  simp [ids, contains]

theorem find?_eq_bind (t : Table K) (id : AnchorId) :
    t.find? id = (t.slot? id).bind (t.records[·]?) := by
  cases hslot : t.slot? id with
  | none => exact slot?_eq_none_iff.1 hslot
  | some slot =>
      obtain ⟨r, hget, -, hfind⟩ := slot?_eq_some hslot
      rw [hfind, Option.bind_some, hget]

/-- Slots are found by identifiers alone. -/
theorem slot?_put {t : Table K} {slot : Nat} {old r : Record K}
    (hold : t.records[slot]? = some old) (hid : old.id = r.id) (id : AnchorId) :
    (t.put slot r).slot? id = t.slot? id := by
  have hids : (t.records.set slot r).map (·.id) = t.records.map (·.id) :=
    Keyed.map_set_of_key_eq hold hid
  have hslot := congrArg (List.findIdx? (· = id)) hids
  rwa [List.findIdx?_map, List.findIdx?_map] at hslot

/-- Putting a record of the same anchor back changes what is stored for this anchor only. -/
theorem find?_put {t : Table K} {slot : Nat} {r : Record K} (hslot : t.slot? r.id = some slot)
    (id : AnchorId) : (t.put slot r).find? id = if id = r.id then some r else t.find? id := by
  obtain ⟨old, hold, hid, -⟩ := slot?_eq_some hslot
  have hlt := (List.getElem?_eq_some_iff.1 hold).1
  rw [find?_eq_bind, find?_eq_bind, slot?_put hold hid]
  by_cases hsame : id = r.id
  · subst hsame
    rw [if_pos rfl, hslot, Option.bind_some, put_records, List.getElem?_set_self hlt]
  · rw [if_neg hsame]
    cases hother : t.slot? id with
    | none => rfl
    | some other =>
        obtain ⟨s, hs, hsid, -⟩ := slot?_eq_some hother
        have hne : slot ≠ other := by
          rintro rfl
          have hsold : s = old := Option.some.inj (hs.symm.trans hold)
          exact hsame (by rw [← hsid, hsold, hid])
        rw [Option.bind_some, Option.bind_some, put_records, List.getElem?_set_ne hne]

theorem Sound.put {t : Table K} (h : t.Sound) {slot : Nat} {old r : Record K}
    (hold : t.records[slot]? = some old) (hid : old.id = r.id) : (t.put slot r).Sound :=
  ⟨h.capacity_pos, h.receptions_pos, h.flights_pos,
    Keyed.nodup_set h.ids_nodup hold (Or.inl hid), by simpa using h.size_le⟩

/-- Reading and changing through a handle whose slot holds its anchor. -/
theorem read_eq_ok {t : Table K} {h : Handle} {r : Record K} (hget : t.records[h.slot]? = some r)
    (hid : r.id = h.id) : t.read h = .ok r :=
  read_eq_ok_iff.2 ⟨hget, hid⟩

theorem position?_of_read {t : Table K} {h : Handle} {r : Record K} (hread : t.read h = .ok r) :
    t.position? h = .ok (r.freshPosition? t.windows h.now) := by
  rw [position?, hread]
  rfl

theorem modify_eq_put {t : Table K} {h : Handle} {r : Record K} (hread : t.read h = .ok r)
    (f : Record K → Record K) : t.modify h f = .ok (t.put h.slot (f r)) :=
  modify_eq_ok_iff.2 ⟨r, hread, rfl⟩

theorem read_put_self {t : Table K} {h : Handle} {r s : Record K} (hread : t.read h = .ok r)
    (hid : s.id = r.id) : (t.put h.slot s).read h = .ok s := by
  obtain ⟨hget, hsame⟩ := read_eq_ok_iff.1 hread
  refine read_eq_ok ?_ (hid.trans hsame)
  rw [put_records, List.getElem?_set_self (List.getElem?_eq_some_iff.1 hget).1]

theorem put_eq_self {t : Table K} {slot : Nat} {r : Record K} (hget : t.records[slot]? = some r) :
    t.put slot r = t := by
  obtain ⟨hlt, rfl⟩ := List.getElem?_eq_some_iff.1 hget
  simp [put]

theorem get?_eq_some {t : Table K} {id : AnchorId} {now : Millis} {h : Handle}
    (hget : t.get? id now = some h) :
    h.id = id ∧ h.now = now ∧ ∃ r, t.read h = .ok r ∧ t.find? id = some r := by
  obtain ⟨slot, hslot, rfl⟩ := Option.map_eq_some_iff.1 hget
  obtain ⟨r, hr, hid, hfind⟩ := slot?_eq_some hslot
  exact ⟨rfl, rfl, r, read_eq_ok hr hid, hfind⟩

theorem get?_of_find? {t : Table K} {id : AnchorId} {r : Record K} (hfind : t.find? id = some r)
    (now : Millis) : ∃ h, t.get? id now = some h ∧ h.id = id ∧ t.read h = .ok r := by
  rw [find?_eq_bind] at hfind
  obtain ⟨slot, hslot, hget⟩ := Option.bind_eq_some_iff.1 hfind
  obtain ⟨r', hr', hid, -⟩ := slot?_eq_some hslot
  obtain rfl : r' = r := Option.some.inj (hr'.symm.trans hget)
  exact ⟨⟨slot, id, now⟩, by rw [get?, hslot]; rfl, rfl, read_eq_ok hget hid⟩

/-- A handle whose slot holds its anchor leads to the record that is found for the anchor. -/
theorem slot?_of_read {t : Table K} (hsound : t.Sound) {h : Handle} {r : Record K}
    (hread : t.read h = .ok r) : t.slot? h.id = some h.slot ∧ t.find? h.id = some r := by
  obtain ⟨hget, hid⟩ := read_eq_ok_iff.1 hread
  have hfind := (find?_eq_some_iff hsound).2 ⟨List.mem_of_getElem? hget, hid⟩
  refine ⟨?_, hfind⟩
  obtain ⟨slot, hslot, hget'⟩ := Option.bind_eq_some_iff.1 ((find?_eq_bind t h.id).symm.trans hfind)
  obtain ⟨hlt, -⟩ := List.getElem?_eq_some_iff.1 hget
  have hsame : slot = h.slot := by
    refine (List.getElem?_inj (by simpa using hlt) hsound.ids_nodup).1 ?_ |>.symm
    rw [List.getElem?_map, List.getElem?_map, hget, hget']
  rw [hslot, hsame]

/-! ## Entering -/

section Entering

variable [Scalar K]

/-- The record that the sender of a packet has once it is in the table. -/
def sender (t : Table K) (id : AnchorId) : Record K :=
  (t.find? id).getD (t.blank id)

/-- The slot that the sender of a packet gets. -/
def slotFor (t : Table K) (id : AnchorId) (now : Millis) : Nat :=
  (t.enter id now).1.slot

/-- The table once the sender of a packet has entered. -/
def entered (t : Table K) (id : AnchorId) (now : Millis) : Table K :=
  (t.enter id now).2.2

theorem sender_id (t : Table K) (id : AnchorId) : (t.sender id).id = id := by
  rw [sender]
  cases hfind : t.find? id with
  | some r => exact id_of_find? hfind
  | none => rfl

theorem sender_of_find? {t : Table K} {id : AnchorId} {r : Record K} (h : t.find? id = some r) :
    t.sender id = r := by
  rw [sender, h]
  rfl

theorem sender_of_absent {t : Table K} {id : AnchorId} (h : t.find? id = none) :
    t.sender id = t.blank id := by
  rw [sender, h]
  rfl

theorem enter_eq (t : Table K) (id : AnchorId) (now : Millis) :
    t.enter id now = (⟨t.slotFor id now, id, now⟩, t.contains id, t.entered id now) := by
  rw [slotFor, entered, enter]
  cases hslot : t.slot? id with
  | some slot =>
      obtain ⟨r, -, -, hfind⟩ := slot?_eq_some hslot
      simp [contains_eq_isSome, hfind]
  | none =>
      have hfind := slot?_eq_none_iff.1 hslot
      by_cases hroom : t.size < t.capacity <;> simp [contains_eq_isSome, hfind, hroom]

/-- Nothing changes for an anchor that is stored. -/
theorem entered_of_find? {t : Table K} {id : AnchorId} {r : Record K} (h : t.find? id = some r)
    (now : Millis) : t.entered id now = t := by
  cases hslot : t.slot? id with
  | none => simp [slot?_eq_none_iff.1 hslot] at h
  | some slot => simp [entered, enter, hslot]

/-- Entering changes records only. -/
theorem entered_eq (t : Table K) (id : AnchorId) (now : Millis) :
    t.entered id now = { t with records := (t.entered id now).records } := by
  rw [entered, enter]
  cases t.slot? id with
  | some slot => rfl
  | none => by_cases hroom : t.size < t.capacity <;> simp [hroom]

@[simp] theorem entered_receptionCapacity (t : Table K) (id : AnchorId) (now : Millis) :
    (t.entered id now).receptionCapacity = t.receptionCapacity := by
  rw [entered_eq]

@[simp] theorem entered_flightCapacity (t : Table K) (id : AnchorId) (now : Millis) :
    (t.entered id now).flightCapacity = t.flightCapacity := by
  rw [entered_eq]

@[simp] theorem entered_windows (t : Table K) (id : AnchorId) (now : Millis) :
    (t.entered id now).windows = t.windows := by
  rw [entered_eq]

@[simp] theorem entered_blank (t : Table K) (id : AnchorId) (now : Millis) (other : AnchorId) :
    (t.entered id now).blank other = t.blank other := by
  rw [blank, blank, entered_receptionCapacity, entered_flightCapacity]

@[simp] theorem put_blank (t : Table K) (slot : Nat) (r : Record K) (id : AnchorId) :
    (t.put slot r).blank id = t.blank id := rfl

/-- The three ways to enter: the sender is stored, there is free space, or another record makes
room. -/
theorem entered_cases {t : Table K} (h : t.HasSlot) (id : AnchorId) (now : Millis) :
    ((t.find? id).isSome = true ∧ t.entered id now = t ∧
      t.records[t.slotFor id now]? = some (t.sender id)) ∨
    (t.find? id = none ∧ t.slotFor id now = t.records.length ∧
      t.records.length < t.capacity ∧
      t.entered id now = { t with records := t.records ++ [t.sender id] }) ∨
    (t.find? id = none ∧ t.capacity ≤ t.records.length ∧
      t.slotFor id now = Millis.oldestIndex now (t.records.map (·.lastUpdate)) ∧
      (∃ old, t.records[t.slotFor id now]? = some old) ∧
      t.entered id now = t.put (t.slotFor id now) (t.sender id)) := by
  rw [slotFor, entered, enter]
  cases hslot : t.slot? id with
  | some slot =>
      obtain ⟨r, hget, -, hfind⟩ := slot?_eq_some hslot
      exact Or.inl ⟨by simp [hfind], rfl, by simpa [sender, hfind] using hget⟩
  | none =>
      have hfind := slot?_eq_none_iff.1 hslot
      have hsender : t.sender id = t.blank id := by simp [sender, hfind]
      by_cases hroom : t.records.length < t.capacity
      · refine Or.inr (Or.inl ⟨hfind, ?_⟩)
        simp [size, hroom, hsender]
      · refine Or.inr (Or.inr ⟨hfind, Nat.le_of_not_lt hroom, ?_⟩)
        have hne : t.records.map (·.lastUpdate) ≠ [] := by
          intro hmap
          have hnil : t.records = [] := List.map_eq_nil_iff.1 hmap
          exact hroom (by rw [hnil]; exact h hnil)
        have hlt : Millis.oldestIndex now (t.records.map (·.lastUpdate)) < t.records.length := by
          simpa using @Millis.oldestIndex_lt now _ hne
        simp only [size, hroom, if_false, hsender, true_and]
        exact ⟨⟨_, List.getElem?_eq_getElem hlt⟩, rfl⟩

/-- The slot holds the sender's record. -/
theorem records_slotFor {t : Table K} (h : t.HasSlot) (id : AnchorId) (now : Millis) :
    (t.entered id now).records[t.slotFor id now]? = some (t.sender id) := by
  obtain ⟨-, heq, hget⟩ | ⟨-, hslot, -, heq⟩ | ⟨-, -, -, ⟨old, hold⟩, heq⟩ :=
    entered_cases h id now
  · rw [heq, hget]
  · rw [heq, hslot]
    simp
  · rw [heq, put_records, List.getElem?_set_self (List.getElem?_eq_some_iff.1 hold).1]

/-- The sender's slot is where its identifier is found. -/
theorem slot?_entered {t : Table K} (h : t.HasSlot) (id : AnchorId) (now : Millis) :
    (t.entered id now).slot? id = some (t.slotFor id now) := by
  have hid := sender_id t id
  obtain ⟨hstored, heq, -⟩ | ⟨hnone, hslot, -, heq⟩ | ⟨hnone, -, -, ⟨old, hold⟩, heq⟩ :=
    entered_cases h id now
  · rw [heq]
    cases hslot : t.slot? id with
    | none => simp [slot?_eq_none_iff.1 hslot] at hstored
    | some slot => simp [slotFor, enter, hslot]
  · have habsent := slot?_eq_none_iff.2 hnone
    rw [slot?] at habsent ⊢
    rw [heq, hslot]
    simp [List.findIdx?_append, hid, habsent]
  · have habsent := Keyed.find?_eq_none_iff.1 hnone
    obtain ⟨hlt, -⟩ := List.getElem?_eq_some_iff.1 hold
    rw [heq, slot?, put_records, List.findIdx?_eq_some_iff_getElem]
    refine ⟨by simpa using hlt, by simpa using hid, ?_⟩
    intro other hother
    rw [List.getElem_set_ne (by omega)]
    simpa using habsent _ (List.getElem_mem _)

theorem find?_entered_self {t : Table K} (h : t.HasSlot) (id : AnchorId) (now : Millis) :
    (t.entered id now).find? id = some (t.sender id) := by
  rw [find?_eq_bind, slot?_entered h, Option.bind_some, records_slotFor h]

theorem Sound.entered {t : Table K} (h : t.Sound) (id : AnchorId) (now : Millis) :
    (t.entered id now).Sound := by
  obtain ⟨-, heq, -⟩ | ⟨hnone, -, hroom, heq⟩ | ⟨hnone, -, -, ⟨old, hold⟩, heq⟩ :=
    entered_cases h.hasSlot id now
  · rwa [heq]
  · have habsent : ∀ r ∈ t.records, r.id ≠ (t.sender id).id := by
      rw [sender_id]
      exact Keyed.find?_eq_none_iff.1 hnone
    rw [heq]
    exact ⟨h.capacity_pos, h.receptions_pos, h.flights_pos,
      Keyed.nodup_append h.ids_nodup habsent, by simpa using Nat.succ_le_of_lt hroom⟩
  · have habsent : ∀ r ∈ t.records, r.id ≠ (t.sender id).id := by
      rw [sender_id]
      exact Keyed.find?_eq_none_iff.1 hnone
    rw [heq]
    exact ⟨h.capacity_pos, h.receptions_pos, h.flights_pos,
      Keyed.nodup_set h.ids_nodup hold (Or.inr habsent), by simpa using h.size_le⟩

/-- Who is stored once the sender has entered: everybody as before, or, if the sender is new to a
full table, everybody but the one heard longest ago. -/
theorem find?_entered {t : Table K} (h : t.Sound) (id : AnchorId) (now : Millis) :
    ((t.find? id).isSome = true ∧ t.entered id now = t) ∨
    (t.find? id = none ∧ t.size < t.capacity ∧ (t.entered id now).size = t.size + 1 ∧
      ∀ other, other ≠ id → (t.entered id now).find? other = t.find? other) ∨
    (t.find? id = none ∧ t.size = t.capacity ∧ (t.entered id now).size = t.size ∧
      ∃ old ∈ t.records,
        (∀ r ∈ t.records, Millis.since r.lastUpdate now ≤ Millis.since old.lastUpdate now) ∧
        ∀ other, other ≠ id →
          (t.entered id now).find? other = if old.id = other then none else t.find? other) := by
  have hid := sender_id t id
  obtain ⟨hstored, heq, -⟩ | ⟨hnone, -, hroom, heq⟩ | ⟨hnone, hfull, hslot, ⟨old, hold⟩, heq⟩ :=
    entered_cases h.hasSlot id now
  · exact Or.inl ⟨hstored, heq⟩
  · refine Or.inr (Or.inl ⟨hnone, hroom, by simp [heq, size], ?_⟩)
    intro other hne
    have hsender : ((t.sender id).id = other) = False := by
      rw [hid]
      exact eq_false (Ne.symm hne)
    simp [heq, find?, hsender]
  · refine Or.inr (Or.inr ⟨hnone, Nat.le_antisymm h.size_le hfull, by simp [heq, size], ?_⟩)
    have holdest := hold
    rw [hslot] at holdest
    refine ⟨old, List.mem_of_getElem? hold, (Millis.oldestIndex_map_spec holdest).1, ?_⟩
    intro other hne
    have habsent : ∀ r ∈ t.records, r.id ≠ (t.sender id).id := by
      rw [hid]
      exact Keyed.find?_eq_none_iff.1 hnone
    rw [heq, find?, put_records,
      Keyed.find?_set_of_ne h.ids_nodup hold (Or.inr habsent) (by rwa [hid])]
    rfl

/-- Entering adds nothing but the sender, and keeps every other record that stays. -/
theorem find?_entered_of_ne {t : Table K} (h : t.Sound) {id other : AnchorId} (now : Millis)
    (hne : other ≠ id) {r : Record K} (hr : (t.entered id now).find? other = some r) :
    t.find? other = some r := by
  obtain ⟨-, heq⟩ | ⟨-, -, -, hfind⟩ | ⟨-, -, -, old, -, -, hfind⟩ := find?_entered h id now
  · rwa [heq] at hr
  · rwa [hfind other hne] at hr
  · rw [hfind other hne] at hr
    split at hr
    · cases hr
    · exact hr

end Entering

end Ranging.Table

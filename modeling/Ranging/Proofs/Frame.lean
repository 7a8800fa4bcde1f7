import Ranging.Proofs.Uses

/-!
# What a packet leaves alone

Between entering its sender and storing its times, a packet goes through the reports, the clock
filter, the search for a partner and the sending of a measurement, and any of these may be the last
that does anything. Whatever happens, only the sender's record changes, and it takes the packet's
times, sequence number and position.

The one way in which a packet reaches another anchor is by taking its slot. This happens to one
anchor, when the sender is new to a full table, and it is the one heard longest ago, with the lowest
slot of several such ones (`Table.MakesRoom`).
-/

namespace Ranging

variable {K : Type}

namespace Table

/-! ## Slots -/

/-- An anchor has a slot exactly if its record is there. -/
theorem slot?_eq_some_iff {t : Table K} (h : t.Sound) {id : AnchorId} {slot : Nat} :
    t.slot? id = some slot ↔ ∃ ρ, t.records[slot]? = some ρ ∧ ρ.id = id := by
  constructor
  · intro hslot
    obtain ⟨ρ, hget, hid, -⟩ := slot?_eq_some hslot
    exact ⟨ρ, hget, hid⟩
  · rintro ⟨ρ, hget, rfl⟩
    exact (slot?_of_read h (h := ⟨slot, ρ.id, 0⟩) (read_eq_ok hget rfl)).1

/-- An anchor keeps its slot and everything that is stored for it, or is still not stored. -/
structure SameFor (t t' : Table K) (id : AnchorId) : Prop where
  slot : t'.slot? id = t.slot? id
  record : t'.find? id = t.find? id

namespace SameFor

variable {t t' t'' : Table K} {id : AnchorId}

theorem refl (t : Table K) (id : AnchorId) : t.SameFor t id :=
  ⟨rfl, rfl⟩

theorem trans (h : t.SameFor t' id) (h' : t'.SameFor t'' id) : t.SameFor t'' id :=
  ⟨h'.slot.trans h.slot, h'.record.trans h.record⟩

/-- It is enough that the same slots hold the same records of the anchor. -/
theorem of_records (h : t.Sound) (h' : t'.Sound)
    (hsame : ∀ (slot : Nat) (ρ : Record K), ρ.id = id →
      (t'.records[slot]? = some ρ ↔ t.records[slot]? = some ρ)) :
    t.SameFor t' id := by
  constructor
  · apply Option.ext
    intro slot
    rw [slot?_eq_some_iff h, slot?_eq_some_iff h']
    apply exists_congr
    intro ρ
    constructor
    · rintro ⟨hget, hid⟩
      exact ⟨(hsame slot ρ hid).1 hget, hid⟩
    · rintro ⟨hget, hid⟩
      exact ⟨(hsame slot ρ hid).2 hget, hid⟩
  · apply Option.ext
    intro ρ
    rw [find?_eq_some_iff h, find?_eq_some_iff h']
    apply and_congr_left
    intro hid
    rw [List.mem_iff_getElem?, List.mem_iff_getElem?]
    apply exists_congr
    intro slot
    exact hsame slot ρ hid

/-- A record that is put into a slot is noticed by its own anchor and by the one that was there. -/
theorem put {slot : Nat} {old new : Record K} (h : t.Sound) (h' : (t.put slot new).Sound)
    (hold : t.records[slot]? = some old) (hne : id ≠ old.id) (hne' : id ≠ new.id) :
    t.SameFor (t.put slot new) id := by
  apply of_records h h'
  intro other ρ hid
  rw [put_records]
  by_cases hslot : slot = other
  · subst hslot
    rw [List.getElem?_set_self (List.getElem?_eq_some_iff.1 hold).1, hold]
    constructor
    · intro hnew
      rw [Option.some.inj hnew] at hne'
      exact absurd hid.symm hne'
    · intro hstays
      rw [Option.some.inj hstays] at hne
      exact absurd hid.symm hne
  · rw [List.getElem?_set_ne hslot]

/-- A record behind the others is noticed by its own anchor. -/
theorem append {new : Record K} (h : t.Sound)
    (h' : Sound { t with records := t.records ++ [new] }) (hne : id ≠ new.id) :
    t.SameFor { t with records := t.records ++ [new] } id := by
  apply of_records h h'
  intro slot ρ hid
  rcases Nat.lt_or_ge slot t.records.length with hlt | hge
  · rw [List.getElem?_append_left hlt]
  · rw [List.getElem?_append_right hge, List.getElem?_eq_none hge, List.getElem?_singleton]
    split
    · constructor
      · intro hnew
        rw [Option.some.inj hnew] at hne
        exact absurd hid.symm hne
      · nofun
    · rfl

end SameFor

/-- The record in a slot is the one to make room: it is as old as any, and those in lower slots are
younger. -/
structure MakesRoom (t : Table K) (now : Millis) (slot : Nat) (old : Record K) : Prop where
  stored : t.records[slot]? = some old
  oldest : ∀ ρ ∈ t.records, Millis.since ρ.lastUpdate now ≤ Millis.since old.lastUpdate now
  first : ∀ lower < slot, ∀ ρ, t.records[lower]? = some ρ →
    Millis.since ρ.lastUpdate now < Millis.since old.lastUpdate now

/-- There is one such record at most. -/
theorem MakesRoom.unique {t : Table K} {now : Millis} {slot slot' : Nat} {old old' : Record K}
    (h : t.MakesRoom now slot old) (h' : t.MakesRoom now slot' old') :
    slot = slot' ∧ old = old' := by
  have hle := h.oldest old' (List.mem_of_getElem? h'.stored)
  have hle' := h'.oldest old (List.mem_of_getElem? h.stored)
  rcases Nat.lt_trichotomy slot slot' with hlt | rfl | hlt
  · exact absurd (h'.first slot hlt old h.stored) (UInt32.not_lt.2 hle)
  · exact ⟨rfl, Option.some.inj (h.stored.symm.trans h'.stored)⟩
  · exact absurd (h.first slot' hlt old' h'.stored) (UInt32.not_lt.2 hle')

/-- Whoever makes room for another anchor is no longer stored. -/
theorem contains_put_evicted {t : Table K} {slot : Nat} {old new : Record K} (h : t.Sound)
    (h' : (t.put slot new).Sound) (hold : t.records[slot]? = some old) (hne : old.id ≠ new.id) :
    (t.put slot new).contains old.id = false := by
  rw [contains_eq_isSome, Option.isSome_eq_false_iff, Option.isNone_iff_eq_none,
    ← slot?_eq_none_iff, Option.eq_none_iff_forall_not_mem]
  intro other hother
  obtain ⟨ρ, hget, hid⟩ := (slot?_eq_some_iff h').1 hother
  rw [put_records] at hget
  by_cases hslot : slot = other
  · rw [← hslot, List.getElem?_set_self (List.getElem?_eq_some_iff.1 hold).1] at hget
    rw [Option.some.inj hget] at hne
    exact hne hid.symm
  · rw [List.getElem?_set_ne hslot] at hget
    have hhere := (slot?_eq_some_iff h).2 ⟨old, hold, rfl⟩
    have hthere := (slot?_eq_some_iff h).2 ⟨ρ, hget, hid⟩
    exact hslot (Option.some.inj (hhere.symm.trans hthere))

theorem makesRoom_of_oldestIndex {t : Table K} {now : Millis} {slot : Nat} {old : Record K}
    (hslot : slot = Millis.oldestIndex now (t.records.map (·.lastUpdate)))
    (hold : t.records[slot]? = some old) : t.MakesRoom now slot old := by
  obtain rfl := hslot
  obtain ⟨holdest, hfirst⟩ := Millis.oldestIndex_map_spec hold
  exact ⟨hold, holdest, hfirst⟩

variable [Scalar K]

/-- How the table `t'`, in which an anchor has a slot, comes from `t`, where it had the record
`old` or none. -/
inductive Frame (t t' : Table K) (id : AnchorId) (now : Millis) (slot : Nat) (old : Record K) :
    Prop where
  | stored (hslot : t.slot? id = some slot) (hold : t.find? id = some old)
      (hothers : ∀ other, other ≠ id → t.SameFor t' other)
  | free (habsent : t.contains id = false) (hold : old = t.blank id) (hroom : t.size < t.capacity)
      (hslot : slot = t.size) (hothers : ∀ other, other ≠ id → t.SameFor t' other)
  | full (habsent : t.contains id = false) (hold : old = t.blank id) (hfull : t.size = t.capacity)
      (evicted : Record K) (hroom : t.MakesRoom now slot evicted)
      (hgone : t'.contains evicted.id = false)
      (hothers : ∀ other, other ≠ id → other ≠ evicted.id → t.SameFor t' other)

/-- Entering is noticed by the sender, and by the anchor that makes room for it. -/
theorem frame_entered {t : Table K} (h : t.Sound) (id : AnchorId) (now : Millis) :
    t.Frame (t.entered id now) id now (t.slotFor id now) (t.sender id) := by
  have hid := sender_id t id
  have hsound := h.entered id now
  obtain ⟨hstored, heq, hget⟩ | ⟨hnone, hslot, hroom, heq⟩ |
    ⟨hnone, hfull, hslot, ⟨old, hold⟩, heq⟩ := entered_cases h.hasSlot id now
  · obtain ⟨ρ, hfind⟩ := Option.isSome_iff_exists.1 hstored
    rw [sender_of_find? hfind] at hget ⊢
    apply Frame.stored
    · exact (slot?_eq_some_iff h).2 ⟨ρ, hget, id_of_find? hfind⟩
    · exact hfind
    · intro other _
      rw [heq]
      exact SameFor.refl t other
  · apply Frame.free
    · rw [contains_eq_isSome, hnone]
      rfl
    · exact sender_of_absent hnone
    · exact hroom
    · exact hslot
    · intro other hne
      rw [heq] at hsound ⊢
      apply SameFor.append h hsound
      rwa [hid]
  · apply Frame.full
    · rw [contains_eq_isSome, hnone]
      rfl
    · exact sender_of_absent hnone
    · exact Nat.le_antisymm h.size_le hfull
    · exact makesRoom_of_oldestIndex hslot hold
    · have hne : old.id ≠ id := Keyed.find?_eq_none_iff.1 hnone old (List.mem_of_getElem? hold)
      rw [heq] at hsound ⊢
      apply contains_put_evicted h hsound hold
      rwa [hid]
    · intro other hne hne'
      rw [heq] at hsound ⊢
      apply SameFor.put h hsound hold hne'
      rwa [hid]

/-- What happens to the sender's record afterwards does not show elsewhere. -/
theorem Frame.trans {t t' t'' : Table K} {id : AnchorId} {now : Millis} {slot : Nat}
    {old : Record K} (h : t.Frame t' id now slot old)
    (hsame : ∀ other, other ≠ id → t'.SameFor t'' other) : t.Frame t'' id now slot old := by
  cases h with
  | stored hslot hold hothers =>
      apply Frame.stored hslot hold
      intro other hne
      exact (hothers other hne).trans (hsame other hne)
  | free habsent hold hroom hslot hothers =>
      apply Frame.free habsent hold hroom hslot
      intro other hne
      exact (hothers other hne).trans (hsame other hne)
  | full habsent hold hfull evicted hroom hgone hothers =>
      have hne : evicted.id ≠ id := by
        rintro rfl
        rw [contains_eq_isSome, Option.isSome_eq_false_iff, Option.isNone_iff_eq_none] at habsent
        exact Keyed.find?_eq_none_iff.1 habsent evicted (List.mem_of_getElem? hroom.stored) rfl
      apply Frame.full habsent hold hfull evicted hroom
      · rw [contains_eq_isSome, (hsame _ hne).record, ← contains_eq_isSome]
        exact hgone
      · intro other hne hne'
        exact (hothers other hne hne').trans (hsame other hne)

end Table

/-! ## The record of the sender -/

/-- What a packet makes of the record `old` of its sender. Whatever it reports about the sender
itself is not stored. -/
structure Arrival.Leaves (a : Arrival K) (old new : Record K) : Prop where
  id : new.id = a.source
  lastUpdate : new.lastUpdate = a.now
  rxTime : new.rxTime = some a.rxTime
  txTime : new.txTime = some a.broadcast.txTime
  sequence : new.sequence = a.broadcast.sequence &&& sequenceMask
  position : new.position = match a.broadcast.position with
    | some point => some ⟨point, a.now⟩
    | none => old.position
  tagFlight : new.tagFlight = old.tagFlight
  receptions : new.receptions = old.receptions.writeAll a.receptions
  flights : new.flights = old.flights.writeAll a.flights
  ownReceptions : ∀ e ∈ a.receptions, e.key ≠ a.source
  ownFlights : ∀ e ∈ a.flights, e.key ≠ a.source

variable [Scalar K]

theorem Arrival.leaves_receive {old : Record K} (a : Arrival K) (hid : old.id = a.source)
    (f : RatioFilter K) : a.Leaves old (old.receive f a) := by
  rw [Record.receive_eq]
  constructor
  case id => exact hid
  case ownReceptions =>
    intro e he
    exact (Arrival.mem_receptions_iff.1 he).1
  case ownFlights =>
    intro e he
    obtain ⟨report, hreport, hentry⟩ := List.mem_filterMap.1 he
    split at hentry
    · cases hentry
    · obtain rfl := Option.some.inj hentry
      simpa using (List.mem_filter.1 hreport).2
  all_goals rfl

namespace Receiver

/-- A packet stores what it carries, whatever becomes of it in the ranging pipeline, and leaves
everybody else alone, except for the one that makes room for a new sender in a full table. -/
theorem handle_frame {s : Settings K} {start : Millis} {r₀ r : Receiver K}
    (hcreate : create s start = .ok r₀) {us : List (Use K)} (hused : r₀.useAll us = r)
    (a : Arrival K) :
    ∃ flag next old new slot, r.handle a.broadcast a.rxTime a.now = .ok (flag, next) ∧
      next.table.slot? a.source = some slot ∧ next.table.find? a.source = some new ∧
      a.Leaves old new ∧ r.table.Frame next.table a.source a.now slot old := by
  have hsound : r.table.Sound := by
    rw [← hused]
    exact sound_useAll (sound_of_create hcreate) us
  have hstored := Table.records_slotFor hsound.hasSlot a.source a.now
  have hid := (Record.receive_id (r.table.sender a.source) r.filter a).symm
  refine ⟨r.reliable a, r.after a, r.table.sender a.source, _, r.table.slotFor a.source a.now,
    handle_eq hsound.hasSlot a, ?_, find?_after_self hsound.hasSlot a,
    a.leaves_receive (Table.sender_id ..) r.filter, ?_⟩
  · rw [after_table, Table.slot?_put hstored hid]
    exact Table.slot?_entered hsound.hasSlot a.source a.now
  · apply (Table.frame_entered hsound a.source a.now).trans
    intro other hne
    rw [after_table]
    apply Table.SameFor.put (hsound.entered a.source a.now) (sound_after hsound a) hstored
    · rwa [Table.sender_id]
    · rwa [Record.receive_id, Table.sender_id]

/-- Room for two anchors. Anchor 1 has taken the first slot and anchor 3 the second, and then anchor
1 was heard again. -/
def bothSlotsTaken : Receiver Float :=
  (fresh { Settings.standard with anchorCapacity := 2 } 0).useAll [
    .call (.packet ⟨⟨⟨1⟩, 1000000, 0, [], some ⟨3.0, 0.0, 0.0⟩⟩, 5000000, 0⟩),
    .call (.packet ⟨⟨⟨3⟩, 7000, 9, [], some ⟨0.0, 3.0, 0.0⟩⟩, 5100000, 5⟩),
    .call (.packet ⟨⟨⟨1⟩, 2000000, 1, [⟨⟨3⟩, 1100000, 9, 50⟩], none⟩, 6000000, 10⟩), .collect]

/-- Anchor 2 comes without a position and with a report about itself. It takes the slot of anchor 3,
and the report is not stored. Anchor 1 keeps its slot and its record. -/
theorem handle_frame_bothSlotsTaken : ∃ flag next new,
    bothSlotsTaken.handle ⟨⟨2⟩, 7, 0x85, [⟨⟨2⟩, 9, 1, 50⟩], none⟩ 8 20 = .ok (flag, next) ∧
    next.table.slot? ⟨1⟩ = some 0 ∧ next.table.find? ⟨1⟩ = bothSlotsTaken.table.find? ⟨1⟩ ∧
    next.table.contains ⟨3⟩ = false ∧ next.table.slot? ⟨2⟩ = some 1 ∧
    next.table.find? ⟨2⟩ = some new ∧ new.txTime = some 7 ∧ new.sequence = 5 ∧
    new.lastUpdate = 20 ∧ new.position = none ∧ new.flights.entries = [] := by
  have hcreate : create { Settings.standard (K := Float) with anchorCapacity := 2 } 0 =
      .ok (fresh _ 0) := create_eq_ok_iff.2 ⟨rfl, rfl⟩
  obtain ⟨flag, next, old, new, slot, hhandle, hslot, hfind, hleaves, hframe⟩ :=
    handle_frame hcreate (rfl : _ = bothSlotsTaken)
      ⟨⟨⟨2⟩, 7, 0x85, [⟨⟨2⟩, 9, 1, 50⟩], none⟩, 8, 20⟩
  have hsecond : bothSlotsTaken.table.records[1]?.map (·.id) = some ⟨3⟩ := by decide +kernel
  obtain ⟨ρ, hρ, hthird⟩ := Option.map_eq_some_iff.1 hsecond
  have hleast : bothSlotsTaken.table.MakesRoom 20 1 ρ :=
    Table.makesRoom_of_oldestIndex (by decide +kernel) hρ
  have habsent : bothSlotsTaken.table.contains ⟨2⟩ = false := by decide +kernel
  have hsize : bothSlotsTaken.table.size = bothSlotsTaken.table.capacity := by decide +kernel
  cases hframe with
  | stored _ hold hothers =>
      have hfound : bothSlotsTaken.table.find? ⟨2⟩ = some old := hold
      rw [Table.contains_eq_isSome, hfound] at habsent
      cases habsent
  | free _ hold hroom _ hothers => exact absurd hroom (hsize ▸ Nat.lt_irrefl _)
  | full _ hold hfull evicted hroom hgone hothers =>
      obtain ⟨rfl, rfl⟩ := hroom.unique hleast
      obtain ⟨hkept, hsame⟩ := hothers ⟨1⟩ (by decide) (by rw [hthird]; decide)
      have hfirst : bothSlotsTaken.table.slot? ⟨1⟩ = some 0 := by decide +kernel
      rw [hthird] at hgone
      subst hold
      exact ⟨flag, next, new, hhandle, hkept.trans hfirst, hsame, hgone, hslot, hfind,
        hleaves.txTime, hleaves.sequence, hleaves.lastUpdate, hleaves.position,
        congrArg (·.entries) hleaves.flights⟩

end Receiver

end Ranging

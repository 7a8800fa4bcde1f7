import Ranging.Proofs.Emission

/-!
# Room that is not used

The capacities of a receiver bound how many anchors it stores, and how many neighbours it keeps
reports about for each of them. They also decide where things go: a list of reports grows while it
has room and is overwritten afterwards, and a strategy looks at as many candidates as a list can
hold.

If nothing ever has to make room, none of this shows. `Sizes.Suffice` says which capacities are
large enough for a run: a slot for each anchor heard, and in the lists of each anchor an entry for
each neighbour that it reports on. A receiver of other capacities that suffice as well goes through
the same states, up to the capacities (`resize_afterAll`), and so returns the same flags, sends the
same measurements and counts the same.
-/

namespace Ranging

variable {K : Type}

/-- Capacities of a receiver. -/
structure Sizes where
  anchors : Nat
  receptions : Nat
  flights : Nat
deriving DecidableEq

namespace Settings

/-- The capacities that some settings choose. -/
def sizes (s : Settings K) : Sizes :=
  ⟨s.anchorCapacity, s.receptionCapacity, s.flightCapacity⟩

/-- The same settings with other capacities. -/
def resize (c : Sizes) (s : Settings K) : Settings K :=
  { s with
    anchorCapacity := c.anchors
    receptionCapacity := c.receptions
    flightCapacity := c.flights }

end Settings

/-! ## Enough room -/

/-- The anchors that send some packets. -/
def sources (as : List (Arrival K)) : Finset AnchorId :=
  (as.map Arrival.source).toFinset

/-- The neighbours that an anchor reports to have received. -/
def receivedBy (id : AnchorId) (as : List (Arrival K)) : Finset AnchorId :=
  (((packetsOf id as).flatMap Arrival.receptions).map (·.key)).toFinset

/-- The neighbours that an anchor reports a time of flight from. -/
def rangedBy (id : AnchorId) (as : List (Arrival K)) : Finset AnchorId :=
  (((packetsOf id as).flatMap Arrival.flights).map (·.key)).toFinset

theorem mem_receivedBy {id : AnchorId} {as : List (Arrival K)} {e : Entry Reception}
    (he : e ∈ (packetsOf id as).flatMap Arrival.receptions) : e.key ∈ receivedBy id as :=
  List.mem_toFinset.2 (List.mem_map_of_mem he)

theorem mem_rangedBy {id : AnchorId} {as : List (Arrival K)} {e : Entry Ticks}
    (he : e ∈ (packetsOf id as).flatMap Arrival.flights) : e.key ∈ rangedBy id as :=
  List.mem_toFinset.2 (List.mem_map_of_mem he)

/-- There is a slot for each anchor that sends, and in its lists an entry for each other anchor that
it reports on. -/
structure Sizes.Suffice (c : Sizes) (as : List (Arrival K)) : Prop where
  anchors : (sources as).card ≤ c.anchors
  receptions : ∀ a ∈ as, (receivedBy a.source as).card ≤ c.receptions
  flights : ∀ a ∈ as, (rangedBy a.source as).card ≤ c.flights

instance (c : Sizes) (as : List (Arrival K)) : Decidable (c.Suffice as) :=
  decidable_of_iff ((sources as).card ≤ c.anchors ∧
    (∀ a ∈ as, (receivedBy a.source as).card ≤ c.receptions) ∧
    ∀ a ∈ as, (rangedBy a.source as).card ≤ c.flights)
    ⟨fun h => ⟨h.1, h.2.1, h.2.2⟩, fun h => ⟨h.1, h.2, h.3⟩⟩

/-! ## Lists and records of other capacities -/

namespace Recent

variable {α : Type}

/-- The list with another capacity. -/
def resize (capacity : Nat) (r : Recent α) : Recent α :=
  { r with capacity }

/-- The capacity does not show in a write that needs no room or finds some in either list. -/
theorem resize_write {r : Recent α} {capacity : Nat} {key : AnchorId}
    (hroom : (∀ e ∈ r.entries, e.key ≠ key) →
      r.entries.length < r.capacity ∧ r.entries.length < capacity) (now : Millis) (value : α) :
    (r.resize capacity).write now key value = (r.write now key value).resize capacity := by
  have hindex : (r.resize capacity).index? key = r.index? key := rfl
  rw [write, write, hindex]
  cases habsent : r.index? key with
  | some i => rfl
  | none =>
      obtain ⟨hroom, hroom'⟩ := hroom (by simpa using List.findIdx?_eq_none_iff.1 habsent)
      simp [resize, hroom, hroom']

/-- Nor does it in several writes if there is room for all neighbours written, old and new. -/
theorem resize_writeAll {r : Recent α} (h : r.Sound) {es : List (Entry α)} {ks : Finset AnchorId}
    (hold : ∀ e ∈ r.entries, e.key ∈ ks) (hnew : ∀ e ∈ es, e.key ∈ ks)
    (hroom : ks.card ≤ r.capacity) {capacity : Nat} (hroom' : ks.card ≤ capacity) :
    (r.resize capacity).writeAll es = (r.writeAll es).resize capacity := by
  induction es generalizing r with
  | nil => rfl
  | cons e es ih =>
      have hkey : e.key ∈ ks := hnew e (List.mem_cons_self ..)
      have hrest : ∀ e' ∈ es, e'.key ∈ ks := by
        intro e' he'
        exact hnew e' (List.mem_cons_of_mem _ he')
      have hwritten : ∀ e' ∈ (r.write e.written e.key e.value).entries, e'.key ∈ ks := by
        intro e' he'
        rcases mem_or_eq_of_mem_write he' with hmem | rfl
        · exact hold e' hmem
        · exact hkey
      rw [writeAll_cons, writeAll_cons, resize_write]
      · exact ih (h.write ..) hwritten hrest (by rwa [write_capacity])
      · intro habsent
        have hlt := Keyed.length_lt_card h.keys_nodup hold hkey habsent
        exact ⟨by omega, by omega⟩

/-- What was written into an empty list is about neighbours that were written. -/
theorem key_mem_of_mem_writeAll {capacity : Nat} {es : List (Entry α)} {ks : Finset AnchorId}
    (hes : ∀ e ∈ es, e.key ∈ ks) :
    ∀ e ∈ (({ capacity } : Recent α).writeAll es).entries, e.key ∈ ks := by
  intro e he
  rcases mem_or_mem_of_mem_writeAll he with hnone | hmem
  · cases hnone
  · exact hes e hmem

/-- What several writes leave of an empty list at another capacity. -/
theorem resize_writeAll_empty {capacity capacity' : Nat} (hpos : 0 < capacity)
    {es fs : List (Entry α)} {ks : Finset AnchorId} (hkeys : ∀ e ∈ es ++ fs, e.key ∈ ks)
    (hroom : ks.card ≤ capacity) (hroom' : ks.card ≤ capacity') :
    ((({ capacity } : Recent α).writeAll es).resize capacity').writeAll fs =
      ((({ capacity } : Recent α).writeAll es).writeAll fs).resize capacity' := by
  obtain ⟨hold, hnew⟩ := List.forall_mem_append.1 hkeys
  have hsound := (Sound.empty (α := α) hpos).writeAll es
  exact resize_writeAll hsound (key_mem_of_mem_writeAll hold) hnew (by rwa [writeAll_capacity])
    hroom'

end Recent

namespace Record

/-- A record whose lists have other capacities. -/
def resize (c : Sizes) (r : Record K) : Record K :=
  { r with
    receptions := r.receptions.resize c.receptions
    flights := r.flights.resize c.flights }

@[simp] theorem resize_clock (c : Sizes) (r : Record K) : (r.resize c).clock = r.clock := rfl

@[simp] theorem resize_heard (c : Sizes) (r : Record K) (windows : Windows) (now : Millis) :
    (r.resize c).heard windows now = r.heard windows now := rfl

@[simp] theorem resize_flight? (c : Sizes) (r : Record K) (windows : Windows) (now : Millis)
    (neighbour : AnchorId) :
    (r.resize c).flight? windows now neighbour = r.flight? windows now neighbour := rfl

/-- A packet's reports are stored in the same places at other capacities. -/
structure Stores (c : Sizes) (r : Record K) (a : Arrival K) : Prop where
  receptions : (r.receptions.resize c.receptions).writeAll a.receptions =
    (r.receptions.writeAll a.receptions).resize c.receptions
  flights : (r.flights.resize c.flights).writeAll a.flights =
    (r.flights.writeAll a.flights).resize c.flights

variable [Scalar K]

@[simp] theorem resize_timing (c : Sizes) (r : Record K) (f : RatioFilter K) (a : Arrival K) :
    (r.resize c).timing f a = r.timing f a := rfl

theorem resize_prepare {c : Sizes} {r : Record K} {a : Arrival K} (h : r.Stores c a)
    (f : RatioFilter K) : (r.resize c).prepare f a = (r.prepare f a).resize c := by
  rw [prepare_eq, prepare_eq, resize_timing]
  simp [resize, h.receptions, h.flights]

theorem resize_receive {c : Sizes} {r : Record K} {a : Arrival K} (h : r.Stores c a)
    (f : RatioFilter K) : (r.resize c).receive f a = (r.receive f a).resize c := by
  rw [receive_eq, receive_eq, resize_timing]
  simp [resize, h.receptions, h.flights]

end Record

/-! ## Tables of other capacities -/

namespace Table

/-- A table of other capacities that stores the same. -/
def resize (c : Sizes) (t : Table K) : Table K :=
  { t with
    capacity := c.anchors
    receptionCapacity := c.receptions
    flightCapacity := c.flights
    records := t.records.map (·.resize c) }

@[simp] theorem resize_windows (c : Sizes) (t : Table K) : (t.resize c).windows = t.windows := rfl

@[simp] theorem resize_records (c : Sizes) (t : Table K) :
    (t.resize c).records = t.records.map (·.resize c) := rfl

theorem resize_slot? (c : Sizes) (t : Table K) (id : AnchorId) :
    (t.resize c).slot? id = t.slot? id := by
  rw [slot?, resize_records, List.findIdx?_map]
  rfl

theorem resize_contains (c : Sizes) (t : Table K) (id : AnchorId) :
    (t.resize c).contains id = t.contains id := by
  rw [contains, resize_records, List.any_map]
  rfl

theorem resize_put (c : Sizes) (t : Table K) (slot : Nat) (r : Record K) :
    (t.resize c).put slot (r.resize c) = (t.put slot r).resize c := by
  simp [put, resize, List.map_set]

theorem resize_find? (c : Sizes) (t : Table K) (id : AnchorId) :
    (t.resize c).find? id = (t.find? id).map (·.resize c) := by
  rw [find?, resize_records, List.find?_map]
  rfl

variable [Scalar K]

theorem resize_sender (c : Sizes) (t : Table K) (id : AnchorId) :
    (t.resize c).sender id = (t.sender id).resize c := by
  rw [sender, sender, resize_find?]
  cases t.find? id <;> rfl

/-- The capacity does not show when an anchor enters that is stored or finds a free slot in either
table. -/
theorem resize_enter {c : Sizes} {t : Table K} {id : AnchorId}
    (hroom : t.find? id = none → t.size < t.capacity ∧ t.size < c.anchors) (now : Millis) :
    (t.resize c).enter id now =
      ((t.enter id now).1, (t.enter id now).2.1, (t.enter id now).2.2.resize c) := by
  rw [enter, enter, resize_slot?]
  cases habsent : t.slot? id with
  | some slot => rfl
  | none =>
      obtain ⟨hroom, hroom'⟩ := hroom (slot?_eq_none_iff.1 habsent)
      have hsize : (t.resize c).size = t.size := List.length_map ..
      have hcapacity : (t.resize c).capacity = c.anchors := rfl
      simp only [hsize, hcapacity, if_pos hroom, if_pos hroom']
      simp [resize, blank, Record.empty, Record.resize, Recent.resize]

theorem resize_entered {c : Sizes} {t : Table K} {id : AnchorId}
    (hroom : t.find? id = none → t.size < t.capacity ∧ t.size < c.anchors) (now : Millis) :
    (t.resize c).entered id now = (t.entered id now).resize c := by
  rw [entered, resize_enter hroom]
  rfl

theorem resize_slotFor {c : Sizes} {t : Table K} {id : AnchorId}
    (hroom : t.find? id = none → t.size < t.capacity ∧ t.size < c.anchors) (now : Millis) :
    (t.resize c).slotFor id now = t.slotFor id now := by
  rw [slotFor, resize_enter hroom]
  rfl

end Table

namespace Pairing

/-- A strategy that looks at another number of candidates at most. -/
def resize (limit : Nat) (p : Pairing) : Pairing :=
  { p with limit }

theorem resize_partner? (c : Sizes) (t : Table K) (now : Millis) (sender : Record K)
    (exclude : Option AnchorId) (candidate : AnchorId × UInt8) :
    partner? (t.resize c) now (sender.resize c) exclude candidate =
      partner? t now sender exclude candidate := by
  simp only [partner?, Record.resize_flight?, Table.resize_windows, Table.get?, Table.resize_slot?,
    Table.resize_records, List.getElem?_map]
  cases t.slot? candidate.1 with
  | none => rfl
  | some slot =>
      cases hget : t.records[slot]? with
      | none => simp [hget]
      | some record =>
          simp only [Option.bind_eq_bind, Option.map_some, Option.bind_some, hget]
          rfl

/-- The limit does not show if all candidates are looked at under either. -/
theorem resize_choose {c : Sizes} {p : Pairing} {t : Table K} {now : Millis} {sender : Record K}
    (hlimit : (sender.heard t.windows now).length ≤ p.limit)
    (hlimit' : (sender.heard t.windows now).length ≤ c.receptions) (exclude : Option AnchorId) :
    (p.resize c.receptions).choose (t.resize c) now (sender.resize c) exclude =
      ((p.choose t now sender exclude).1,
        (p.choose t now sender exclude).2.resize c.receptions) := by
  have hpartner : partner? (t.resize c) now (sender.resize c) exclude =
      partner? t now sender exclude := funext (resize_partner? c t now sender exclude)
  rw [choose, choose, hpartner, Record.resize_heard, Table.resize_windows]
  cases hstrategy : p.strategy <;>
    simp [resize, hstrategy, List.take_of_length_le hlimit, List.take_of_length_le hlimit']

end Pairing

/-! ## Packets and runs -/

namespace Receiver

/-- A receiver of other capacities in the same state. -/
def resize (c : Sizes) (r : Receiver K) : Receiver K :=
  { r with
    table := r.table.resize c
    pairing := r.pairing.resize c.receptions }

@[simp] theorem resize_table (c : Sizes) (r : Receiver K) :
    (r.resize c).table = r.table.resize c := rfl

@[simp] theorem resize_filter (c : Sizes) (r : Receiver K) : (r.resize c).filter = r.filter := rfl

variable [Scalar K]

/-- A packet finds room in a receiver and would find it at other capacities: for its sender, for the
reports that it carries, and for looking at all candidates. -/
structure HasRoom (c : Sizes) (r : Receiver K) (a : Arrival K) : Prop where
  slot : r.table.find? a.source = none → r.table.size < r.table.capacity ∧ r.table.size < c.anchors
  reports : (r.table.sender a.source).Stores c a
  limit : ((r.prepared a).heard r.table.windows a.now).length ≤ r.pairing.limit
  limit' : ((r.prepared a).heard r.table.windows a.now).length ≤ c.receptions

section Step

variable {c : Sizes} {r : Receiver K} {a : Arrival K}

theorem resize_reliable (c : Sizes) (r : Receiver K) (a : Arrival K) :
    (r.resize c).reliable a = r.reliable a := by
  rw [reliable, resize_table, Table.resize_sender, Record.resize_timing]
  rfl

theorem resize_prepared (h : r.HasRoom c a) :
    (r.resize c).prepared a = (r.prepared a).resize c := by
  rw [prepared, resize_table, Table.resize_sender, Record.resize_prepare h.reports]
  rfl

theorem resize_preparedTable (h : r.HasRoom c a) :
    (r.resize c).preparedTable a = (r.preparedTable a).resize c := by
  rw [preparedTable, resize_prepared h, resize_table, Table.resize_entered h.slot,
    Table.resize_slotFor h.slot, Table.resize_put]
  rfl

theorem resize_choice (h : r.HasRoom c a) :
    (r.resize c).choice a = ((r.choice a).1, (r.choice a).2.resize c.receptions) := by
  rw [choice, resize_reliable, resize_prepared h, resize_preparedTable h, Record.resize_clock,
    choice]
  have hlimit := h.limit
  have hlimit' := h.limit'
  rw [← preparedTable_windows r a] at hlimit hlimit'
  split
  · exact Pairing.resize_choose hlimit hlimit' none
  · rfl

theorem resize_partner? (h : r.HasRoom c a) :
    (r.resize c).partner? a = (r.partner? a).map (·.resize c) := by
  rw [partner?, resize_choice h, resize_preparedTable h, partner?]
  cases (r.choice a).1 <;> simp

theorem resize_measurement? (h : r.HasRoom c a) :
    (r.resize c).measurement? a = r.measurement? a := by
  rw [measurement?, resize_partner? h, measurement?]
  cases r.partner? a with
  | none => rfl
  | some other =>
      simp only [Option.map_some, Option.bind_some, measurementWith?, resize_prepared h]
      rfl

theorem resize_heard_diagnostics (c : Sizes) (r : Receiver K) (a : Arrival K) :
    ((r.resize c).heard a).diagnostics = (r.heard a).diagnostics := by
  rw [heard, entered, resize_table, Table.resize_contains]
  rfl

theorem resize_nextDiagnostics (h : r.HasRoom c a) :
    (r.resize c).nextDiagnostics a = r.nextDiagnostics a := by
  simp only [nextDiagnostics, chosen, timed, resize_heard_diagnostics, resize_reliable,
    resize_measurement? h, resize_partner? h, resize_prepared h, Record.resize_clock,
    Option.isSome_map]

/-- Handling a packet that finds room commutes with changing the capacities. -/
theorem resize_after (h : r.HasRoom c a) : (r.resize c).after a = (r.after a).resize c := by
  rw [after, ranged, resize_nextDiagnostics h, resize_choice h, resize_measurement? h, resize_table,
    Table.resize_entered h.slot, Table.resize_slotFor h.slot, Table.resize_sender,
    resize_filter, Record.resize_receive h.reports, Table.resize_put]
  rfl

end Step

/-- The sender of a packet has the record that packets which it sent before make of a blank one. -/
theorem exists_sender_eq {r : Receiver K} (hsound : r.table.Sound) {id : AnchorId}
    (hstart : r.table.find? id = none) (as : List (Arrival K)) :
    ∃ before during, as = before ++ during ∧ (r.afterAll as).table.sender id =
      (r.table.blank id).receiveAll r.filter (packetsOf id during) := by
  cases hfind : (r.afterAll as).table.find? id with
  | none =>
      refine ⟨as, [], (List.append_nil as).symm, ?_⟩
      rw [Table.sender_of_absent hfind, afterAll_blank]
      rfl
  | some ρ =>
      obtain ⟨before, during, rfl, -, -, rfl⟩ := exists_record_eq hsound hstart hfind
      exact ⟨before, during, rfl, Table.sender_of_find? hfind⟩

/-- Only anchors that sent are stored. -/
theorem mem_sources_of_mem_records {r : Receiver K} (hsound : r.table.Sound)
    (hstart : ∀ id, r.table.find? id = none) {as : List (Arrival K)} {ρ : Record K}
    (hρ : ρ ∈ (r.afterAll as).table.records) : ρ.id ∈ sources as := by
  have hfind := (Table.find?_eq_some_iff (sound_afterAll hsound as)).2 ⟨hρ, rfl⟩
  obtain ⟨before, during, rfl, -, hne, -⟩ := exists_record_eq hsound (hstart ρ.id) hfind
  obtain ⟨a, ha⟩ := List.exists_mem_of_ne_nil _ hne
  obtain ⟨hmem, hsource⟩ := List.mem_filter.1 ha
  rw [← of_decide_eq_true hsource]
  exact List.mem_toFinset.2 (List.mem_map_of_mem (List.mem_append_right _ hmem))

section Runs

variable {s : Settings K} {start : Millis} {c : Sizes} {before : List (Arrival K)} {a : Arrival K}

/-- A sender that is not stored adds to the anchors that are. -/
theorem size_lt_card_sources (hsound : (fresh s start).table.Sound)
    (habsent : ((fresh s start).afterAll before).table.find? a.source = none)
    (rest : List (Arrival K)) :
    ((fresh s start).afterAll before).table.size < (sources (before ++ a :: rest)).card := by
  have hstored : ∀ ρ ∈ ((fresh s start).afterAll before).table.records,
      ρ.id ∈ sources (before ++ a :: rest) := by
    intro ρ hρ
    have hmem := mem_sources_of_mem_records hsound (fun _ => rfl) hρ
    rw [sources, List.map_append, List.toFinset_append]
    exact Finset.mem_union_left _ hmem
  have hsource : a.source ∈ sources (before ++ a :: rest) := by
    simp [sources]
  exact Keyed.length_lt_card (sound_afterAll hsound before).ids_nodup hstored hsource
    (Keyed.find?_eq_none_iff.1 habsent)

omit [Scalar K] in
/-- Reports of the sender that are stored or to be stored are among those of the whole run. -/
theorem mem_flatMap_packetsOf {β : Type} (f : Arrival K → List β)
    {past during rest : List (Arrival K)} {e : β}
    (he : e ∈ (packetsOf a.source during).flatMap f ++ f a) :
    e ∈ (packetsOf a.source (past ++ during ++ a :: rest)).flatMap f := by
  have hpackets : packetsOf a.source (past ++ during ++ a :: rest) =
      packetsOf a.source past ++ packetsOf a.source during ++ a :: packetsOf a.source rest := by
    simp [packetsOf]
  rw [hpackets]
  simp only [List.flatMap_append, List.flatMap_cons, List.mem_append] at he ⊢
  tauto

/-- The sender's receptions, with those that a packet adds, are of neighbours of the whole run. -/
theorem exists_sender_receptions (hsound : (fresh s start).table.Sound) (before : List (Arrival K))
    (a : Arrival K) (rest : List (Arrival K)) : ∃ es,
    (((fresh s start).afterAll before).table.sender a.source).receptions =
      ({ capacity := s.receptionCapacity } : Recent Reception).writeAll es ∧
    ∀ e ∈ es ++ a.receptions, e.key ∈ receivedBy a.source (before ++ a :: rest) := by
  have hstart : (fresh s start).table.find? a.source = none := rfl
  obtain ⟨past, during, rfl, hsender⟩ := exists_sender_eq hsound hstart before
  refine ⟨(packetsOf a.source during).flatMap Arrival.receptions, ?_, ?_⟩
  · rw [hsender, Record.receiveAll_receptions]
    rfl
  · intro e he
    exact mem_receivedBy (mem_flatMap_packetsOf _ he)

/-- The same for its flights. -/
theorem exists_sender_flights (hsound : (fresh s start).table.Sound) (before : List (Arrival K))
    (a : Arrival K) (rest : List (Arrival K)) : ∃ es,
    (((fresh s start).afterAll before).table.sender a.source).flights =
      ({ capacity := s.flightCapacity } : Recent Ticks).writeAll es ∧
    ∀ e ∈ es ++ a.flights, e.key ∈ rangedBy a.source (before ++ a :: rest) := by
  have hstart : (fresh s start).table.find? a.source = none := rfl
  obtain ⟨past, during, rfl, hsender⟩ := exists_sender_eq hsound hstart before
  refine ⟨(packetsOf a.source during).flatMap Arrival.flights, ?_, ?_⟩
  · rw [hsender, Record.receiveAll_flights]
    rfl
  · intro e he
    exact mem_rangedBy (mem_flatMap_packetsOf _ he)

/-- The candidates are among the neighbours of the whole run. -/
theorem length_heard_le_card (hsound : (fresh s start).table.Sound) (before : List (Arrival K))
    (a : Arrival K) (rest : List (Arrival K)) (windows : Windows) (now : Millis) :
    ((((fresh s start).afterAll before).prepared a).heard windows now).length ≤
      (receivedBy a.source (before ++ a :: rest)).card := by
  obtain ⟨es, hreceptions, hkeys⟩ := exists_sender_receptions hsound before a rest
  have hlists := (Recent.Sound.empty (α := Reception) hsound.receptions_pos).writeAll
    (es ++ a.receptions)
  apply Nat.le_trans (Record.length_heard_le_entries ..)
  rw [prepared, Record.prepare_eq, hreceptions, ← Recent.writeAll_append]
  exact Keyed.length_le_card hlists.keys_nodup (Recent.key_mem_of_mem_writeAll hkeys)

/-- In a run for which two choices of capacities suffice, every packet finds room under both. -/
theorem hasRoom_afterAll (hsound : (fresh s start).table.Sound) {rest : List (Arrival K)}
    (h : s.sizes.Suffice (before ++ a :: rest)) (h' : c.Suffice (before ++ a :: rest)) :
    ((fresh s start).afterAll before).HasRoom c a := by
  have hmem : a ∈ before ++ a :: rest := List.mem_append_right _ (List.mem_cons_self ..)
  have hheard := length_heard_le_card hsound before a rest
  refine ⟨?_, ⟨?_, ?_⟩, ?_, Nat.le_trans (hheard _ _) (h'.receptions a hmem)⟩
  · intro habsent
    have hlt := size_lt_card_sources hsound habsent rest
    rw [afterAll_capacity]
    exact ⟨Nat.lt_of_lt_of_le hlt h.anchors, Nat.lt_of_lt_of_le hlt h'.anchors⟩
  · obtain ⟨es, hreceptions, hkeys⟩ := exists_sender_receptions hsound before a rest
    rw [hreceptions]
    exact Recent.resize_writeAll_empty hsound.receptions_pos hkeys (h.receptions a hmem)
      (h'.receptions a hmem)
  · obtain ⟨es, hflights, hkeys⟩ := exists_sender_flights hsound before a rest
    rw [hflights]
    exact Recent.resize_writeAll_empty hsound.flights_pos hkeys (h.flights a hmem)
      (h'.flights a hmem)
  · rw [afterAll_limit]
    exact Nat.le_trans (hheard _ _) (h.receptions a hmem)

/-- What a run preserves: at other capacities that suffice the receiver is the same up to the
capacities. -/
theorem resize_afterAll (hsound : (fresh s start).table.Sound) {as : List (Arrival K)}
    (h : s.sizes.Suffice as) (h' : c.Suffice as) (hbefore : before <+: as) :
    ((fresh s start).resize c).afterAll before = ((fresh s start).afterAll before).resize c := by
  induction before using List.reverseRecOn with
  | nil => rfl
  | append_singleton before a ih =>
      obtain ⟨rest, rfl⟩ := hbefore
      rw [List.append_assoc, List.singleton_append] at h h' ih
      rw [afterAll_append, ih (List.prefix_append ..), afterAll_append]
      exact resize_after (hasRoom_afterAll hsound h h')

theorem resize_flags (hsound : (fresh s start).table.Sound) {as : List (Arrival K)}
    (h : s.sizes.Suffice as) (h' : c.Suffice as) (hbefore : before <+: as) :
    ((fresh s start).resize c).flags before = (fresh s start).flags before := by
  induction before using List.reverseRecOn with
  | nil => rfl
  | append_singleton before a ih =>
      have hprefix : before <+: as := (List.prefix_append before [a]).trans hbefore
      rw [flags_concat, flags_concat, ih hprefix, resize_afterAll hsound h h' hprefix,
        resize_reliable]

end Runs

theorem fresh_resize (c : Sizes) (s : Settings K) (start : Millis) :
    fresh (s.resize c) start = (fresh s start).resize c := rfl

/-- Two receivers whose settings differ in the capacities only, which suffice for a run in both,
cannot be told apart by it: after every packet they have returned the same flags, sent the same
measurements and have the same diagnostics. -/
theorem run_of_capacities {s : Settings K} {c : Sizes} {start : Millis} {r r' : Receiver K}
    (hcreate : create s start = .ok r) (hcreate' : create (s.resize c) start = .ok r')
    {as : List (Arrival K)} (h : s.sizes.Suffice as) (h' : c.Suffice as) :
    ∀ before, before <+: as → ∃ flags q q', r.run before = .ok (flags, q) ∧
      r'.run before = .ok (flags, q') ∧ q'.outbox = q.outbox ∧ q'.diagnostics = q.diagnostics := by
  intro before hbefore
  have hsound := sound_of_create hcreate
  have hsound' := sound_of_create hcreate'
  obtain ⟨-, rfl⟩ := create_eq_ok_iff.1 hcreate
  obtain ⟨-, rfl⟩ := create_eq_ok_iff.1 hcreate'
  refine ⟨(fresh s start).flags before, (fresh s start).afterAll before,
    ((fresh s start).afterAll before).resize c, run_eq hsound before, ?_, rfl, rfl⟩
  rw [run_eq hsound', fresh_resize, resize_flags hsound h h' hbefore,
    resize_afterAll hsound h h' hbefore]

/-- Just enough room for two anchors, of which one reports on the other. -/
def tight : Settings Float :=
  Settings.standard.resize ⟨2, 1, 1⟩

/-- The run with a pair needs two slots and one report. With room for sixteen of each it gives the
same measurement. -/
theorem run_of_capacities_pairReport : ∃ flags q q',
    (fresh tight 0).run (pairRun ++ [pairReport]) = .ok (flags, q) ∧
    (fresh (tight.resize ⟨16, 16, 16⟩) 0).run (pairRun ++ [pairReport]) = .ok (flags, q') ∧
    q.outbox.length = 1 ∧ q'.outbox = q.outbox ∧ q'.diagnostics = q.diagnostics := by
  have hcreate : create tight 0 = .ok (fresh tight 0) := create_eq_ok_iff.2 ⟨rfl, rfl⟩
  have hcreate' :
      create (tight.resize ⟨16, 16, 16⟩) 0 = .ok (fresh (tight.resize ⟨16, 16, 16⟩) 0) :=
    create_eq_ok_iff.2 ⟨rfl, rfl⟩
  have hsuffice : tight.sizes.Suffice (pairRun ++ [pairReport]) := by decide +kernel
  have hsuffice' : (⟨16, 16, 16⟩ : Sizes).Suffice (pairRun ++ [pairReport]) := by decide +kernel
  obtain ⟨flags, q, q', hrun, hrun', houtbox, hdiagnostics⟩ :=
    run_of_capacities hcreate hcreate' hsuffice hsuffice' _ (List.prefix_refl _)
  have hlength : q.outbox.length = 1 := by
    obtain ⟨-, rfl⟩ := eq_of_run (sound_of_create hcreate) hrun
    decide +kernel
  exact ⟨flags, q, q', hrun, hrun', hlength, houtbox, hdiagnostics⟩

end Receiver

end Ranging

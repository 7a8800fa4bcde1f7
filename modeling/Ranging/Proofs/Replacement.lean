import Ranging.Proofs.TimedTable

/-!
# What makes room in a list of neighbours

A write into a list of neighbours changes one place (`Recent.Replaces`). Another neighbour's entry is
there only if the list is full and has no entry to overwrite, and then it is the oldest one, the first
of equally old ones. Since all entries of a list have the same window, one that can still be read makes
room only if all of them can.

Ages are taken modulo the period of the millisecond clock. With writes in the order of their true
times, and all within a period, the oldest entry is the one written first, and the list keeps the
neighbours that were reported last (`Recent.HoldsLatest`).
-/

namespace Ranging

/-- Each report is later than those before it, and by less than a period of the millisecond clock. -/
def Timed.InOrder {α : Type} (reports : List (Timed α)) : Prop :=
  reports.Pairwise fun p q => p.time < q.time ∧ q.time < p.time + 2 ^ 32

instance {α : Type} (reports : List (Timed α)) : Decidable (Timed.InOrder reports) :=
  inferInstanceAs (Decidable (reports.Pairwise _))

namespace Recent

variable {α : Type}

/-- An entry makes room for a neighbour: there is neither an entry to overwrite nor free space, and no
entry is older, nor any before it as old. So if it could still be read, every entry could. -/
structure MakesRoom (r : Recent α) (now : Millis) (key : AnchorId) (place : Nat) (old : Entry α) :
    Prop where
  absent : ∀ e ∈ r.entries, e.key ≠ key
  full : r.entries.length = r.capacity
  oldest : ∀ e ∈ r.entries, Millis.since e.written now ≤ Millis.since old.written now
  first : ∀ i < place, ∀ e, r.entries[i]? = some e →
    Millis.since e.written now < Millis.since old.written now
  fresh : ∀ window, Millis.isFresh old.written window now = true →
    ∀ e ∈ r.entries, Millis.isFresh e.written window now = true

/-- One place of a list gets the entry that is written, and the others stay as they are. Another
neighbour's entry in this place makes room. -/
structure Replaces (before after : Recent α) (now : Millis) (key : AnchorId) (value : α)
    (place : Nat) : Prop where
  capacity : after.capacity = before.capacity
  written : after.entries[place]? = some ⟨⟨value, now⟩, key⟩
  others : ∀ i ≠ place, after.entries[i]? = before.entries[i]?
  makesRoom : ∀ old, before.entries[place]? = some old → old.key ≠ key →
    before.MakesRoom now key place old

theorem makesRoom_of_oldestIndex {r : Recent α} {now : Millis} {key : AnchorId} {old : Entry α}
    (habsent : ∀ e ∈ r.entries, e.key ≠ key) (hfull : r.entries.length = r.capacity)
    (hold : r.entries[Millis.oldestIndex now (r.entries.map (·.written))]? = some old) :
    r.MakesRoom now key (Millis.oldestIndex now (r.entries.map (·.written))) old := by
  obtain ⟨holdest, hfirst⟩ := Millis.oldestIndex_map_spec hold
  refine ⟨habsent, hfull, holdest, hfirst, ?_⟩
  intro window hfresh e he
  rw [Millis.isFresh, decide_eq_true_iff] at hfresh ⊢
  exact UInt32.lt_of_le_of_lt (holdest e he) hfresh

/-- What a write does to a list. -/
theorem exists_replaces {r : Recent α} (h : r.Sound) (now : Millis) (key : AnchorId) (value : α) :
    ∃ place, r.Replaces (r.write now key value) now key value place := by
  have hcapacity := write_capacity r now key value
  obtain ⟨i, own, hown, hkey, hw⟩ | ⟨-, -, hw⟩ | ⟨habsent, hfull, i, old, rfl, hold, hw⟩ :=
    write_cases h now key value
  · have hlt := (List.getElem?_eq_some_iff.1 hown).1
    refine ⟨i, hcapacity, by rw [hw, List.getElem?_set_self hlt], ?_, ?_⟩
    · intro j hj
      rw [hw, List.getElem?_set_ne (Ne.symm hj)]
    · intro old hold hne
      obtain rfl := Option.some.inj (hown.symm.trans hold)
      exact absurd hkey hne
  · refine ⟨r.entries.length, hcapacity, by rw [hw, List.getElem?_concat_length], ?_, ?_⟩
    · intro j hj
      rw [hw]
      rcases Nat.lt_or_gt_of_ne hj with hlt | hgt
      · exact List.getElem?_append_left hlt
      · rw [List.getElem?_eq_none (by rw [List.length_append]; exact hgt),
          List.getElem?_eq_none (Nat.le_of_lt hgt)]
    · intro old hold
      rw [List.getElem?_length] at hold
      cases hold
  · have hlt := (List.getElem?_eq_some_iff.1 hold).1
    refine ⟨_, hcapacity, by rw [hw, List.getElem?_set_self hlt], ?_, ?_⟩
    · intro j hj
      rw [hw, List.getElem?_set_ne (Ne.symm hj)]
    · intro _ hold' _
      exact makesRoom_of_oldestIndex habsent hfull hold'

/-- The neighbours that a list has an entry for. -/
def keys (r : Recent α) : Finset AnchorId :=
  (r.entries.map (·.key)).toFinset

theorem card_keys {r : Recent α} (h : r.Sound) : r.keys.card = r.entries.length := by
  rw [keys, List.toFinset_card_of_nodup h.keys_nodup, List.length_map]

theorem mem_keys_iff {r : Recent α} {key : AnchorId} :
    key ∈ r.keys ↔ (r.stored? key).isSome = true := by
  simp [keys, stored?]

/-- What a write does to the neighbours that a list has an entry for. -/
theorem keys_write {r : Recent α} (h : r.Sound) (now : Millis) (key : AnchorId) (value : α) :
    (key ∈ r.keys ∧ (r.write now key value).keys = r.keys) ∨
    (key ∉ r.keys ∧ r.keys.card < r.capacity ∧
      (r.write now key value).keys = insert key r.keys) ∨
    (key ∉ r.keys ∧ r.keys.card = r.capacity ∧ ∃ old ∈ r.entries,
      (∀ e ∈ r.entries, Millis.since e.written now ≤ Millis.since old.written now) ∧
      (r.write now key value).keys = insert key (r.keys.erase old.key)) := by
  have hself : key ∈ (r.write now key value).keys :=
    mem_keys_iff.2 (Option.isSome_iff_exists.2 ⟨_, stored?_write_self h now key value⟩)
  have hnew (habsent : ∀ e ∈ r.entries, e.key ≠ key) : key ∉ r.keys := by
    rw [keys, List.mem_toFinset, List.mem_map]
    rintro ⟨e, he, hkey⟩
    exact habsent e he hkey
  obtain ⟨i, old, hold, hkey, hw⟩ | ⟨habsent, hroom, hw⟩ | ⟨habsent, hfull, i, old, rfl, hold, hw⟩ :=
    write_cases h now key value
  · left
    have hsame : (r.write now key value).keys = r.keys := by
      rw [keys, hw, Keyed.map_set_of_key_eq hold hkey, keys]
    exact ⟨hsame ▸ hself, hsame⟩
  · right
    left
    refine ⟨hnew habsent, by rwa [card_keys h], ?_⟩
    ext other
    rw [keys, hw, Finset.mem_insert]
    simp [keys, eq_comm]
  · right
    right
    refine ⟨hnew habsent, by rwa [card_keys h], old, List.mem_of_getElem? hold,
      (Millis.oldestIndex_map_spec hold).1, ?_⟩
    ext other
    by_cases hother : other = key
    · simp [hother, hself]
    · rw [mem_keys_iff, stored?, hw, Keyed.find?_set_of_ne h.keys_nodup hold (Or.inr habsent) hother,
        Finset.mem_insert, Finset.mem_erase, mem_keys_iff, or_iff_right hother]
      by_cases hvictim : old.key = other
      · simp [hvictim]
      · rw [if_neg hvictim, and_iff_right (Ne.symm hvictim)]
        rfl

/-! ## Reports in order -/

variable {capacity : Nat} {reports : List (Timed (AnchorId × α))}

/-- What a list has for a neighbour is the entry of the last report on it. -/
theorem stored?_of_mem_keys (hpos : 0 < capacity) {key : AnchorId}
    (hkey : key ∈ (({ capacity } : Recent α).writeAll (reports.map Timed.entry)).keys) :
    ∃ last, Recency.last? Timed.neighbour reports key = some last ∧
      (({ capacity } : Recent α).writeAll (reports.map Timed.entry)).stored? key =
        some last.entry := by
  obtain ⟨e, he⟩ := Option.isSome_iff_exists.1 (mem_keys_iff.1 hkey)
  have hlast := eq_getLast?_of_stored?_writeAll hpos he
  rw [Timed.getLast?_filter_entries] at hlast
  obtain ⟨last, hreport, rfl⟩ := Option.map_eq_some_iff.1 hlast
  exact ⟨last, hreport, he⟩

/-- An entry that is as old as any is of a neighbour that was reported no later than any. -/
theorem time_le_of_oldest (hpos : 0 < capacity) {now : Nat}
    (hbefore : ∀ p ∈ reports, p.time < now ∧ now < p.time + 2 ^ 32) {old : Entry α}
    (hold : old ∈ (({ capacity } : Recent α).writeAll (reports.map Timed.entry)).entries)
    (holdest : ∀ e ∈ (({ capacity } : Recent α).writeAll (reports.map Timed.entry)).entries,
      Millis.since e.written (Millis.ofTime now) ≤ Millis.since old.written (Millis.ofTime now))
    {key : AnchorId}
    (hkey : key ∈ (({ capacity } : Recent α).writeAll (reports.map Timed.entry)).keys)
    {p q : Timed (AnchorId × α)} (hp : Recency.last? Timed.neighbour reports key = some p)
    (hq : Recency.last? Timed.neighbour reports old.key = some q) : q.time ≤ p.time := by
  have hsound := (Sound.empty (α := α) hpos).writeAll (reports.map Timed.entry)
  obtain ⟨p', hp', he⟩ := stored?_of_mem_keys hpos hkey
  obtain rfl := Option.some.inj (hp.symm.trans hp')
  have hstored := (stored?_eq_some_iff hsound).2 ⟨hold, rfl⟩
  obtain ⟨q', hq', he'⟩ :=
    stored?_of_mem_keys hpos (mem_keys_iff.2 (Option.isSome_iff_exists.2 ⟨_, hstored⟩))
  obtain rfl := Option.some.inj (hq.symm.trans hq')
  obtain rfl := Option.some.inj (hstored.symm.trans he')
  obtain ⟨hplt, hpspan⟩ := hbefore p (Recency.mem_of_last? hp).1
  obtain ⟨hqlt, hqspan⟩ := hbefore q (Recency.mem_of_last? hq).1
  have hage := holdest p.entry ((stored?_eq_some_iff hsound).1 he).1
  exact Millis.le_of_since_le hqlt.le hplt.le hqspan hpspan hage

/-- With reports in order, the neighbours that have an entry are those reported last. -/
theorem kept_writeAll (hpos : 0 < capacity) (hordered : Timed.InOrder reports) :
    Recency.Kept Timed.neighbour Timed.time capacity reports
      (({ capacity } : Recent α).writeAll (reports.map Timed.entry)).keys := by
  induction reports using List.reverseRecOn with
  | nil => exact Recency.Kept.nil
  | append_singleton past report ih =>
      obtain ⟨hpast, -, hlast⟩ := List.pairwise_append.1 hordered
      have hbefore : ∀ p ∈ past, p.time < report.time ∧ report.time < p.time + 2 ^ 32 :=
        fun p hp => hlast p hp report (List.mem_singleton_self report)
      have hle : ∀ p ∈ past, p.time ≤ report.time := fun p hp => (hbefore p hp).1.le
      have h := ih hpast
      have hsound := (Sound.empty (α := α) hpos).writeAll (past.map Timed.entry)
      have hcapacity := writeAll_capacity ({ capacity } : Recent α) (past.map Timed.entry)
      rw [List.map_append, writeAll_append]
      change Recency.Kept _ _ _ _ ((({ capacity } : Recent α).writeAll _).write
        (Millis.ofTime report.time) report.neighbour report.value.2).keys
      obtain ⟨hmem, hkeys⟩ | ⟨hnew, hroom, hkeys⟩ | ⟨hnew, hfull, old, hold, holdest, hkeys⟩ :=
        keys_write hsound (Millis.ofTime report.time) report.neighbour report.value.2
      · rw [hkeys]
        exact h.again hmem hle
      · rw [hkeys]
        exact h.grow hnew (hroom.trans_eq hcapacity) hle
      · rw [hkeys]
        have hvictim := (stored?_eq_some_iff hsound).2 ⟨hold, rfl⟩
        refine h.replace hnew (hfull.trans hcapacity) ?_ ?_ hle
        · exact mem_keys_iff.2 (Option.isSome_iff_exists.2 ⟨_, hvictim⟩)
        · intro key hkey p q hp hq
          exact time_le_of_oldest hpos hbefore hold holdest hkey hp hq

/-- The entries of a list are those of the last reports on the neighbours that were reported last, as
many as there is room for. -/
def HoldsLatest (r : Recent α) (capacity : Nat) (reports : List (Timed (AnchorId × α))) : Prop :=
  ∀ e, e ∈ r.entries ↔ e.key ∈ (Recency.latest Timed.neighbour reports).take capacity ∧
    (Recency.last? Timed.neighbour reports e.key).map Timed.entry = some e

/-- With reports in order, this is what they leave. -/
theorem holdsLatest_writeAll (hpos : 0 < capacity) (hordered : Timed.InOrder reports) :
    (({ capacity } : Recent α).writeAll (reports.map Timed.entry)).HoldsLatest capacity reports := by
  have hsound := (Sound.empty (α := α) hpos).writeAll (reports.map Timed.entry)
  have hkept := kept_writeAll hpos hordered
  have hstrict : reports.Pairwise (Timed.time · < Timed.time ·) := hordered.imp And.left
  intro e
  rw [← hkept.mem_iff hstrict]
  constructor
  · intro he
    have hstored := (stored?_eq_some_iff hsound).2 ⟨he, rfl⟩
    have hkey := mem_keys_iff.2 (Option.isSome_iff_exists.2 ⟨_, hstored⟩)
    obtain ⟨last, hlast, hentry⟩ := stored?_of_mem_keys hpos hkey
    rw [hlast]
    exact ⟨hkey, hentry.symm.trans hstored⟩
  · rintro ⟨hkey, hreport⟩
    obtain ⟨last, hlast, hentry⟩ := stored?_of_mem_keys hpos hkey
    rw [hlast] at hreport
    rw [Option.map_some] at hreport
    rw [hreport] at hentry
    exact ((stored?_eq_some_iff hsound).1 hentry).1

end Recent

namespace Table

variable {K : Type} [Scalar K] {capacity receptionCapacity flightCapacity : Nat} {windows : Windows}
  {t₀ t : Table K} {as : List (Timed (Action K))} {os : List (Timed (Outcome K))}

/-- The lists of a stored anchor are what the reports on its neighbours since it entered have left in
empty ones. -/
theorem lists_of_performAt
    (hcreate : create capacity receptionCapacity flightCapacity windows = .ok t₀)
    (hused : t₀.performAt as = (os, t)) {id : AnchorId} {r : Record K}
    (hfind : t.find? id = some r) :
    r.receptions = ({ capacity := receptionCapacity } : Recent _).writeAll
        ((Write.reports Write.reception? (writesAt id os)).map Timed.entry) ∧
      r.flights = ({ capacity := flightCapacity } : Recent _).writeAll
        ((Write.reports Write.flight? (writesAt id os)).map Timed.entry) := by
  obtain ⟨hreceptions, hflights⟩ := capacities_of_performAt hcreate hused
  rw [← Write.entries_map_stamped, ← Write.entries_map_stamped]
  rw [record_of_performAt hcreate hused hfind, blank, Record.writeAll_empty, hreceptions, hflights]
  exact ⟨rfl, rfl⟩

/-- A write into one of the lists of a stored anchor changes one place of this list and nothing else.
With reports in order, the lists have what was reported last. -/
theorem lists_replace
    (hcreate : create capacity receptionCapacity flightCapacity windows = .ok t₀)
    (hused : t₀.performAt as = (os, t)) {h : Handle} (hholds : t.Holds h) :
    ∃ r, t.read h = .ok r ∧
      (∀ neighbour value, ∃ list place,
        t.setReception h neighbour value = .ok (t.put h.slot { r with receptions := list }) ∧
        list.Sound ∧ r.receptions.Replaces list h.now neighbour value place) ∧
      (∀ neighbour value, ∃ list place,
        t.setFlight h neighbour value = .ok (t.put h.slot { r with flights := list }) ∧
        list.Sound ∧ r.flights.Replaces list h.now neighbour value place) ∧
      (Timed.InOrder (Write.reports Write.reception? (writesAt h.id os)) →
        r.receptions.HoldsLatest receptionCapacity
          (Write.reports Write.reception? (writesAt h.id os))) ∧
      (Timed.InOrder (Write.reports Write.flight? (writesAt h.id os)) →
        r.flights.HoldsLatest flightCapacity (Write.reports Write.flight? (writesAt h.id os))) := by
  obtain ⟨hsound, -⟩ := sound_of_performAt hcreate hused
  obtain ⟨-, hreceptionCapacity, hflightCapacity, -⟩ := create_eq_ok_iff.1 hcreate
  obtain ⟨r, hread⟩ := holds_iff.1 hholds
  obtain ⟨hreceptions, hflights⟩ :=
    lists_of_performAt hcreate hused (slot?_of_read hsound hread).2
  have hreceptionPos := Nat.pos_of_ne_zero hreceptionCapacity
  have hflightPos := Nat.pos_of_ne_zero hflightCapacity
  refine ⟨r, hread, ?_, ?_, ?_, ?_⟩
  · intro neighbour value
    have hlist : r.receptions.Sound := by
      rw [hreceptions]
      exact (Recent.Sound.empty hreceptionPos).writeAll _
    obtain ⟨place, hreplaces⟩ := Recent.exists_replaces hlist h.now neighbour value
    exact ⟨_, place, modify_eq_put hread _, hlist.write h.now neighbour value, hreplaces⟩
  · intro neighbour value
    have hlist : r.flights.Sound := by
      rw [hflights]
      exact (Recent.Sound.empty hflightPos).writeAll _
    obtain ⟨place, hreplaces⟩ := Recent.exists_replaces hlist h.now neighbour value
    exact ⟨_, place, modify_eq_put hread _, hlist.write h.now neighbour value, hreplaces⟩
  · intro hordered
    rw [hreceptions]
    exact Recent.holdsLatest_writeAll hreceptionPos hordered
  · intro hordered
    rw [hflights]
    exact Recent.holdsLatest_writeAll hflightPos hordered

/-- Anchor 1 enters a table with room for two neighbours in each list, and reports on neighbours 2, 3,
2 again, and 4, while the millisecond clock starts over. -/
def fourReports : List (Timed (Action Float)) :=
  [⟨.enter ⟨1⟩, 2 ^ 32 - 10⟩, ⟨.set 0 ⟨1⟩ (.flight ⟨2⟩ 52), 2 ^ 32 - 10⟩,
    ⟨.set 0 ⟨1⟩ (.flight ⟨3⟩ 53), 2 ^ 32 - 5⟩, ⟨.set 0 ⟨1⟩ (.flight ⟨2⟩ 62), 2 ^ 32 + 1⟩,
    ⟨.set 0 ⟨1⟩ (.flight ⟨4⟩ 54), 2 ^ 32 + 2⟩]

/-- The report on neighbour 3 was the oldest one when neighbour 4 came. -/
theorem lists_replace_fourReports : ∃ (t₀ t : Table Float) (os : List (Timed (Outcome Float)))
    (r : Record Float), create 16 2 2 {} = .ok t₀ ∧ t₀.performAt fourReports = (os, t) ∧
    t.read ⟨0, ⟨1⟩, 3⟩ = .ok r ∧
    ∀ e, e ∈ r.flights.entries ↔ e = ⟨⟨62, 1⟩, ⟨2⟩⟩ ∨ e = ⟨⟨54, 2⟩, ⟨4⟩⟩ := by
  have hcreate : create (K := Float) 16 2 2 {} = .ok ⟨16, 2, 2, {}, []⟩ := rfl
  obtain ⟨os, t, hused, hreports, hholds⟩ : ∃ os t,
      (⟨16, 2, 2, {}, []⟩ : Table Float).performAt fourReports = (os, t) ∧
        Write.reports Write.flight? (writesAt ⟨1⟩ os) =
          [⟨⟨⟨2⟩, 52⟩, 2 ^ 32 - 10⟩, ⟨⟨⟨3⟩, 53⟩, 2 ^ 32 - 5⟩, ⟨⟨⟨2⟩, 62⟩, 2 ^ 32 + 1⟩,
            ⟨⟨⟨4⟩, 54⟩, 2 ^ 32 + 2⟩] ∧ t.Holds ⟨0, ⟨1⟩, 3⟩ :=
    ⟨_, _, rfl, rfl, _, rfl, rfl⟩
  obtain ⟨r, hread, -, -, -, hflights⟩ := lists_replace hcreate hused hholds
  have hholdsLatest := hflights (by rw [hreports]; decide)
  rw [hreports] at hholdsLatest
  refine ⟨_, t, os, r, hcreate, hused, hread, fun e => ?_⟩
  rw [hholdsLatest]
  constructor
  · rintro ⟨hkey, hlast⟩
    have hcases : e.key ∈ [(⟨4⟩ : AnchorId), ⟨2⟩] := hkey
    rcases List.mem_pair.1 hcases with hfour | htwo
    · rw [hfour] at hlast
      exact Or.inr (Option.some.inj hlast).symm
    · rw [htwo] at hlast
      exact Or.inl (Option.some.inj hlast).symm
  · rintro (rfl | rfl)
    · exact ⟨by decide, rfl⟩
    · exact ⟨by decide, rfl⟩

end Table

end Ranging

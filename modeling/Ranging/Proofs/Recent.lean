import Mathlib.Data.List.Induction
import Ranging.Anchor.Recent
import Ranging.Proofs.Keyed
import Ranging.Proofs.Millis

/-!
# What a bounded list remembers

A list of dated values never holds two entries for one neighbour and never outgrows its capacity.
Under this invariant a look-up by neighbour after a write finds the written entry for the
neighbour that was written. For every other neighbour it finds what it found before, or nothing,
if the write took the place of that entry.

A sequence of writes therefore leaves, for each neighbour, its last write or nothing. This is all
that later results need to know about the order in which old entries make room.
-/

namespace Ranging.Recent

variable {α : Type}

/-- The entry kept for a neighbour, whatever its age. -/
def stored? (r : Recent α) (key : AnchorId) : Option (Entry α) :=
  r.entries.find? (·.key = key)

/-- One entry for each neighbour, and no more of them than there is room for. -/
structure Sound (r : Recent α) : Prop where
  capacity_pos : 0 < r.capacity
  keys_nodup : (r.entries.map (·.key)).Nodup
  length_le : r.entries.length ≤ r.capacity

theorem find?_eq_bind_stored? (r : Recent α) (window now : Millis) (key : AnchorId) :
    r.find? window now key = (r.stored? key).bind fun e => e.fresh? window now := rfl

theorem stored?_eq_some_iff {r : Recent α} (h : r.Sound) {key : AnchorId} {e : Entry α} :
    r.stored? key = some e ↔ e ∈ r.entries ∧ e.key = key :=
  Keyed.find?_eq_some_iff h.keys_nodup

/-- What is found for a neighbour is in the list of what is still valid, under the neighbour's name
and nowhere else. -/
theorem find?_eq_some_iff_mem_live {r : Recent α} (h : r.Sound) {window now : Millis}
    {key : AnchorId} {value : α} :
    r.find? window now key = some value ↔
      ∃ e ∈ r.live window now, e.key = key ∧ e.value = value := by
  rw [find?_eq_bind_stored?, Option.bind_eq_some_iff]
  constructor
  · rintro ⟨e, he, hvalue⟩
    obtain ⟨hmem, hkey⟩ := (stored?_eq_some_iff h).1 he
    obtain ⟨hfresh, hvalue⟩ := Stamped.fresh?_eq_some_iff.1 hvalue
    exact ⟨e, mem_live.2 ⟨hmem, hfresh⟩, hkey, hvalue⟩
  · rintro ⟨e, he, hkey, hvalue⟩
    obtain ⟨hmem, hfresh⟩ := mem_live.1 he
    exact ⟨e, (stored?_eq_some_iff h).2 ⟨hmem, hkey⟩, Stamped.fresh?_eq_some_iff.2 ⟨hfresh, hvalue⟩⟩

/-- The oldest entry of a full list is one of its entries. -/
theorem oldestIndex_lt_length {r : Recent α} (h : r.Sound)
    (hfull : ¬ r.entries.length < r.capacity) (now : Millis) :
    Millis.oldestIndex now (r.entries.map (·.written)) < r.entries.length := by
  have hne : r.entries.map (·.written) ≠ [] := by
    intro hnil
    have hzero : r.entries.length = 0 := by simpa using congrArg List.length hnil
    have hpos := h.capacity_pos
    omega
  simpa using @Millis.oldestIndex_lt now _ hne

/-- The three ways of a write: the neighbour's own entry is replaced, or the new entry uses free
space, or it takes the place of the oldest entry of a full list. -/
theorem write_cases {r : Recent α} (h : r.Sound) (now : Millis) (key : AnchorId) (value : α) :
    (∃ i old, r.entries[i]? = some old ∧ old.key = key ∧
      (r.write now key value).entries = r.entries.set i { value, written := now, key }) ∨
    ((∀ e ∈ r.entries, e.key ≠ key) ∧ r.entries.length < r.capacity ∧
      (r.write now key value).entries = r.entries ++ [{ value, written := now, key }]) ∨
    ((∀ e ∈ r.entries, e.key ≠ key) ∧ r.entries.length = r.capacity ∧ ∃ i old,
      i = Millis.oldestIndex now (r.entries.map (·.written)) ∧ r.entries[i]? = some old ∧
      (r.write now key value).entries = r.entries.set i { value, written := now, key }) := by
  rw [write]
  dsimp only
  cases hindex : r.index? key with
  | some i =>
      obtain ⟨hlt, hkey, -⟩ := List.findIdx?_eq_some_iff_getElem.1 hindex
      exact Or.inl ⟨i, r.entries[i], List.getElem?_eq_getElem hlt, by simpa using hkey, rfl⟩
  | none =>
      have habsent : ∀ e ∈ r.entries, e.key ≠ key := by
        simpa using List.findIdx?_eq_none_iff.1 hindex
      by_cases hroom : r.entries.length < r.capacity
      · exact Or.inr (Or.inl ⟨habsent, hroom, by simp only [if_pos hroom]⟩)
      · have hlt := oldestIndex_lt_length h hroom now
        exact Or.inr (Or.inr ⟨habsent, Nat.le_antisymm h.length_le (Nat.le_of_not_lt hroom), _, _,
          rfl, List.getElem?_eq_getElem hlt, by simp only [if_neg hroom]⟩)

theorem Sound.write {r : Recent α} (h : r.Sound) (now : Millis) (key : AnchorId) (value : α) :
    (r.write now key value).Sound := by
  refine ⟨by simpa using h.capacity_pos, ?_,
    by simpa using length_write_le now key value h.length_le⟩
  obtain ⟨i, old, hold, hkey, hw⟩ | ⟨habsent, -, hw⟩ | ⟨habsent, -, i, old, -, hold, hw⟩ :=
    write_cases h now key value
  · rw [hw]
    exact Keyed.nodup_set h.keys_nodup hold (Or.inl hkey)
  · rw [hw]
    exact Keyed.nodup_append h.keys_nodup habsent
  · rw [hw]
    exact Keyed.nodup_set h.keys_nodup hold (Or.inr habsent)

theorem stored?_write_self {r : Recent α} (h : r.Sound) (now : Millis) (key : AnchorId)
    (value : α) : (r.write now key value).stored? key = some { value, written := now, key } := by
  refine (stored?_eq_some_iff (h.write now key value)).2 ⟨?_, rfl⟩
  obtain ⟨i, old, hold, -, hw⟩ | ⟨-, -, hw⟩ | ⟨-, -, i, old, -, hold, hw⟩ :=
    write_cases h now key value
  · rw [hw]
    exact List.mem_set (List.getElem?_eq_some_iff.1 hold).1 _
  · rw [hw]
    simp
  · rw [hw]
    exact List.mem_set (List.getElem?_eq_some_iff.1 hold).1 _

/-- A write adds no entry but the written one. -/
theorem mem_or_eq_of_mem_write {r : Recent α} {now : Millis} {key : AnchorId} {value : α}
    {e : Entry α} (he : e ∈ (r.write now key value).entries) :
    e ∈ r.entries ∨ e = { value, written := now, key } := by
  rw [write] at he
  dsimp only at he
  split at he
  · exact List.mem_or_eq_of_mem_set he
  · split at he
    · simpa using he
    · exact List.mem_or_eq_of_mem_set he

/-- A write for `key` takes the place of the entry for `victim`: there is no entry for `key` and no
room for one, and that for `victim` is the oldest, the first of equally old ones. -/
def Displaces (r : Recent α) (now : Millis) (key victim : AnchorId) : Prop :=
  (∀ e ∈ r.entries, e.key ≠ key) ∧ r.entries.length = r.capacity ∧
    ∃ e, r.entries[Millis.oldestIndex now (r.entries.map (·.written))]? = some e ∧ e.key = victim

/-- An entry that makes room is as old as any. -/
theorem Displaces.oldest {r : Recent α} {now : Millis} {key victim : AnchorId}
    (h : r.Displaces now key victim) :
    ∃ old ∈ r.entries, old.key = victim ∧
      ∀ e ∈ r.entries, Millis.since e.written now ≤ Millis.since old.written now := by
  obtain ⟨-, -, old, hold, hkey⟩ := h
  exact ⟨old, List.mem_of_getElem? hold, hkey, (Millis.oldestIndex_map_spec hold).1⟩

/-- What a write leaves of another neighbour: nothing, if its entry makes room, and else the same as
before. -/
theorem stored?_write {r : Recent α} (h : r.Sound) (now : Millis) {key other : AnchorId} (value : α)
    (hne : other ≠ key) :
    (r.Displaces now key other ∧ (r.write now key value).stored? other = none) ∨
    (¬ r.Displaces now key other ∧ (r.write now key value).stored? other = r.stored? other) := by
  obtain ⟨i, old, hold, hkey, hw⟩ | ⟨habsent, hroom, hw⟩ |
    ⟨habsent, hfull, i, old, rfl, hold, hw⟩ := write_cases h now key value
  · right
    constructor
    · rintro ⟨habsent, -⟩
      exact habsent old (List.mem_of_getElem? hold) hkey
    · rw [stored?, hw, Keyed.find?_set_of_ne h.keys_nodup hold (Or.inl hkey) hne, if_neg]
      · rfl
      · rw [hkey]
        exact Ne.symm hne
  · right
    constructor
    · rintro ⟨-, hfull, -⟩
      omega
    · rw [stored?, hw]
      simp [stored?, Ne.symm hne]
  · rw [stored?, hw, Keyed.find?_set_of_ne h.keys_nodup hold (Or.inr habsent) hne]
    by_cases hvictim : old.key = other
    · left
      exact ⟨⟨habsent, hfull, old, hold, hvictim⟩, if_pos hvictim⟩
    · right
      constructor
      · rintro ⟨-, -, old', hold', hkey'⟩
        obtain rfl : old = old' := Option.some.inj (hold.symm.trans hold')
        exact hvictim hkey'
      · exact if_neg hvictim

/-- A write leaves other neighbours alone, except that one entry may make room. -/
theorem stored?_write_of_ne {r : Recent α} (h : r.Sound) (now : Millis) {key other : AnchorId}
    (value : α) (hne : other ≠ key) {e : Entry α}
    (he : (r.write now key value).stored? other = some e) : r.stored? other = some e := by
  obtain ⟨-, hnone⟩ | ⟨-, hsame⟩ := stored?_write h now value hne
  · rw [hnone] at he
    cases he
  · rwa [hsame] at he

/-! ## Several writes -/

/-- Write some entries one after the other. -/
def writeAll (r : Recent α) (es : List (Entry α)) : Recent α :=
  es.foldl (fun r e => r.write e.written e.key e.value) r

@[simp] theorem writeAll_cons (r : Recent α) (e : Entry α) (es : List (Entry α)) :
    r.writeAll (e :: es) = (r.write e.written e.key e.value).writeAll es := rfl

theorem writeAll_append (r : Recent α) (es fs : List (Entry α)) :
    r.writeAll (es ++ fs) = (r.writeAll es).writeAll fs := by
  simp [writeAll]

@[simp] theorem writeAll_capacity (r : Recent α) (es : List (Entry α)) :
    (r.writeAll es).capacity = r.capacity := by
  induction es generalizing r with
  | nil => rfl
  | cons e es ih => rw [writeAll_cons, ih, write_capacity]

theorem Sound.writeAll {r : Recent α} (h : r.Sound) (es : List (Entry α)) :
    (r.writeAll es).Sound := by
  induction es generalizing r with
  | nil => exact h
  | cons e es ih => exact ih (h.write e.written e.key e.value)

/-- Every entry was there before or is one of those written. -/
theorem mem_or_mem_of_mem_writeAll {r : Recent α} {es : List (Entry α)} {e : Entry α}
    (he : e ∈ (r.writeAll es).entries) : e ∈ r.entries ∨ e ∈ es := by
  induction es generalizing r with
  | nil => exact Or.inl he
  | cons e' es ih =>
      rcases ih he with hbefore | hmem
      · rcases mem_or_eq_of_mem_write hbefore with hold | rfl
        · exact Or.inl hold
        · exact Or.inr (List.mem_cons_self ..)
      · exact Or.inr (List.mem_cons_of_mem _ hmem)

/-- The empty list of some capacity is sound. -/
theorem Sound.empty {capacity : Nat} (h : 0 < capacity) : ({ capacity } : Recent α).Sound :=
  ⟨h, List.nodup_nil, Nat.zero_le _⟩

/-- After some writes into an empty list, what is kept for a neighbour is its last write. -/
theorem eq_getLast?_of_stored?_writeAll {capacity : Nat} (h : 0 < capacity) {es : List (Entry α)}
    {key : AnchorId} {e : Entry α}
    (he : (({ capacity } : Recent α).writeAll es).stored? key = some e) :
    (es.filter (·.key = key)).getLast? = some e := by
  induction es using List.reverseRecOn with
  | nil => cases he
  | append_singleton es last ih =>
      have hsound := (Sound.empty (α := α) h).writeAll es
      rw [writeAll_append] at he
      by_cases hkey : last.key = key
      · subst hkey
        have hself := stored?_write_self hsound last.written last.key last.value
        have hlast : e = last := Option.some.inj (he.symm.trans hself)
        simp [hlast]
      · have hbefore := stored?_write_of_ne hsound last.written last.value (Ne.symm hkey) he
        simpa [hkey] using ih hbefore

/-- Of some writes into an empty list, a later one took the place of the entry that the last one for
a neighbour had left. -/
def Displaced (capacity : Nat) (es : List (Entry α)) (victim : AnchorId) : Prop :=
  ∃ before e after, es = before ++ e :: after ∧
    (({ capacity } : Recent α).writeAll before).Displaces e.written e.key victim ∧
    ∀ e' ∈ e :: after, e'.key ≠ victim

theorem displaced_concat_iff {capacity : Nat} {es : List (Entry α)} {last : Entry α}
    {victim : AnchorId} :
    Displaced capacity (es ++ [last]) victim ↔ last.key ≠ victim ∧
      (Displaced capacity es victim ∨
        (({ capacity } : Recent α).writeAll es).Displaces last.written last.key victim) := by
  constructor
  · rintro ⟨before, e, after, hsplit, hdisplaces, hne⟩
    rcases List.eq_nil_or_concat after with rfl | ⟨init, last', rfl⟩
    · obtain ⟨rfl, hlast⟩ := List.append_inj' hsplit rfl
      obtain rfl := List.singleton_inj.1 hlast
      exact ⟨hne last (List.mem_singleton_self last), Or.inr hdisplaces⟩
    · rw [List.concat_eq_append, ← List.cons_append, ← List.append_assoc] at hsplit
      obtain ⟨rfl, hlast⟩ := List.append_inj' hsplit rfl
      obtain rfl := List.singleton_inj.1 hlast
      refine ⟨hne last (by simp), Or.inl ⟨before, e, init, rfl, hdisplaces, ?_⟩⟩
      intro e' he'
      apply hne
      rw [List.concat_eq_append, ← List.cons_append]
      exact List.mem_append_left _ he'
  · rintro ⟨hlast, ⟨before, e, after, rfl, hdisplaces, hne⟩ | hdisplaces⟩
    · refine ⟨before, e, after ++ [last], by simp, hdisplaces, ?_⟩
      intro e' he'
      rw [← List.cons_append] at he'
      rcases List.mem_append.1 he' with he' | he'
      · exact hne e' he'
      · rwa [List.mem_singleton.1 he']
    · refine ⟨es, last, [], rfl, hdisplaces, ?_⟩
      intro e' he'
      rwa [List.mem_singleton.1 he']

/-- After some writes into an empty list, what is kept for a neighbour is its last write, unless
that had to make room. -/
theorem stored?_writeAll_iff {capacity : Nat} (h : 0 < capacity) {es : List (Entry α)}
    {key : AnchorId} {e : Entry α} :
    (({ capacity } : Recent α).writeAll es).stored? key = some e ↔
      (es.filter (·.key = key)).getLast? = some e ∧ ¬ Displaced capacity es key := by
  induction es using List.reverseRecOn with
  | nil => simp [writeAll, stored?]
  | append_singleton es last ih =>
      have hsound := (Sound.empty (α := α) h).writeAll es
      rw [writeAll_append, displaced_concat_iff]
      change ((({ capacity } : Recent α).writeAll es).write last.written last.key
        last.value).stored? key = some e ↔ _
      by_cases hkey : last.key = key
      · subst hkey
        rw [stored?_write_self hsound]
        simp
      · obtain ⟨hdisplaces, hnone⟩ | ⟨hdisplaces, hsame⟩ :=
          stored?_write hsound last.written last.value (Ne.symm hkey)
        · rw [hnone]
          simp [hdisplaces, hkey]
        · rw [hsame, ih]
          simp [hdisplaces, hkey]

/-- What some writes into an empty list leave for a neighbour at a later time: the value of the last
one for it, if it is still within its window and its entry has not made room. -/
def Keeps (capacity : Nat) (es : List (Entry α)) (window now : Millis) (key : AnchorId)
    (value : α) : Prop :=
  ∃ e, (es.filter (·.key = key)).getLast? = some e ∧ e.value = value ∧
    Millis.since e.written now < window ∧ ¬ Displaced capacity es key

theorem find?_writeAll_iff {capacity : Nat} (h : 0 < capacity) {es : List (Entry α)}
    {window now : Millis} {key : AnchorId} {value : α} :
    (({ capacity } : Recent α).writeAll es).find? window now key = some value ↔
      Keeps capacity es window now key value := by
  rw [find?_eq_bind_stored?, Option.bind_eq_some_iff]
  constructor
  · rintro ⟨e, he, hfresh⟩
    obtain ⟨hlast, hdisplaced⟩ := (stored?_writeAll_iff h).1 he
    obtain ⟨hage, hvalue⟩ := Stamped.fresh?_eq_some_iff.1 hfresh
    exact ⟨e, hlast, hvalue, hage, hdisplaced⟩
  · rintro ⟨e, hlast, hvalue, hage, hdisplaced⟩
    exact ⟨e, (stored?_writeAll_iff h).2 ⟨hlast, hdisplaced⟩,
      Stamped.fresh?_eq_some_iff.2 ⟨hage, hvalue⟩⟩

end Ranging.Recent

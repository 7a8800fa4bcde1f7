import Mathlib.Data.List.Rotate
import Ranging.Proofs.Handling

/-!
# Who can be a partner

An anchor is eligible as the partner of a packet's sender if the sender's valid report on it is on
the very broadcast that the tag last received from it, and the distance between the two is known.
`Table.Eligible` says this through the accessors of the table, as a caller would find it out.

The strategies look at a list of candidates instead, and see one only if it is within their limit
and comes up in their order. The first is never in the way, since the sender's list is no longer
than the limit. The second can be for the random order, which turns a counter of 64 bits into
indices: at the one call in which the counter starts over, some candidates may come up twice and
others not at all. In every other call a partner is picked exactly if somebody is eligible
(`Pairing.exists_pick_iff`).
-/

namespace Ranging

variable {K : Type}

namespace Table

/-- The anchor `id` can pair with the one behind the handle. -/
def Eligible (t : Table K) (h : Handle) (id : AnchorId) : Prop :=
  ∃ reception flight other rxTime, t.reception? h id = .ok (some reception) ∧
    t.flight? h id = .ok (some flight) ∧ t.get? id h.now = some other ∧
    t.rxTime? other = .ok (some rxTime) ∧ t.sequence other = .ok reception.sequence

/-- Eligibility in terms of the two records. -/
theorem eligible_iff {t : Table K} {h : Handle} {sender : Record K} (hread : t.read h = .ok sender)
    {id : AnchorId} :
    t.Eligible h id ↔ ∃ reception other, sender.reception? t.windows h.now id = some reception ∧
      (sender.flight? t.windows h.now id).isSome = true ∧ t.find? id = some other ∧
      other.rxTime.isSome = true ∧ other.sequence = reception.sequence := by
  simp only [Eligible, reception?, flight?, rxTime?, sequence, hread, bind, Except.bind, pure,
    Except.pure, Except.ok.injEq]
  constructor
  · rintro ⟨reception, flight, handle, rxTime, hreception, hflight, hget, hrx, hsequence⟩
    obtain ⟨-, -, other, hother, hfind⟩ := get?_eq_some hget
    rw [hother] at hrx hsequence
    exact ⟨reception, other, hreception, by simp [hflight], hfind,
      by simp [Except.ok.inj hrx], Except.ok.inj hsequence⟩
  · rintro ⟨reception, other, hreception, hflight, hfind, hrx, hsequence⟩
    obtain ⟨flight, hflight⟩ := Option.isSome_iff_exists.1 hflight
    obtain ⟨rxTime, hrx⟩ := Option.isSome_iff_exists.1 hrx
    obtain ⟨handle, hget, -, hother⟩ := get?_of_find? hfind h.now
    exact ⟨reception, flight, handle, rxTime, hreception, hflight, hget,
      by rw [hother, ← hrx], by rw [hother, ← hsequence]⟩

end Table

namespace Record

/-- A sender's list of neighbours is no longer than its list of reports has room for. -/
theorem length_heard_le {r : Record K} (h : r.receptions.Sound) (windows : Windows) (now : Millis) :
    (r.heard windows now).length ≤ r.receptions.capacity :=
  Nat.le_trans (length_heard_le_entries r windows now) h.length_le

end Record

namespace Pairing

/-- A candidate makes a partner exactly if it is not excluded, its distance is known, and the tag
last heard it with the candidate's sequence number. -/
theorem isSome_partner?_iff {t : Table K} {now : Millis} {sender : Record K}
    {exclude : Option AnchorId} {candidate : AnchorId × UInt8} :
    (partner? t now sender exclude candidate).isSome = true ↔ exclude ≠ some candidate.1 ∧
      (sender.flight? t.windows now candidate.1).isSome = true ∧ ∃ other,
        t.find? candidate.1 = some other ∧ other.rxTime.isSome = true ∧
        other.sequence = candidate.2 := by
  rw [Option.isSome_iff_exists]
  constructor
  · rintro ⟨q, hq⟩
    obtain ⟨hexclude, hflight, slot, other, hslot, hget, hsequence, hrx, -⟩ :=
      partner?_eq_some_iff.1 hq
    obtain ⟨other', hother', -, hfind⟩ := Table.slot?_eq_some hslot
    obtain rfl : other = other' := Option.some.inj (hget.symm.trans hother')
    exact ⟨hexclude, hflight, other, hfind, hrx, hsequence⟩
  · rintro ⟨hexclude, hflight, other, hfind, hrx, hsequence⟩
    rw [Table.find?_eq_bind] at hfind
    obtain ⟨slot, hslot, hget⟩ := Option.bind_eq_some_iff.1 hfind
    exact ⟨_, partner?_eq_some_iff.2
      ⟨hexclude, hflight, slot, other, hslot, hget, hsequence, hrx, rfl⟩⟩

/-- For a neighbour in the sender's list, that is to be eligible and not excluded. -/
theorem isSome_partner?_heard_iff {t : Table K} {h : Handle} {sender : Record K}
    (hread : t.read h = .ok sender) (hsound : sender.receptions.Sound) {exclude : Option AnchorId}
    {candidate : AnchorId × UInt8} (hheard : candidate ∈ sender.heard t.windows h.now) :
    (partner? t h.now sender exclude candidate).isSome = true ↔
      exclude ≠ some candidate.1 ∧ t.Eligible h candidate.1 := by
  obtain ⟨reception, hreception, hsequence⟩ := (Record.mem_heard_iff hsound).1 hheard
  rw [isSome_partner?_iff, Table.eligible_iff hread]
  apply and_congr_right
  intro _
  constructor
  · rintro ⟨hflight, other, hfind, hrx, hother⟩
    exact ⟨reception, other, hreception, hflight, hfind, hrx, hother.trans hsequence.symm⟩
  · rintro ⟨reception', other, hreception', hflight, hfind, hrx, hother⟩
    obtain rfl : reception = reception' := Option.some.inj (hreception.symm.trans hreception')
    exact ⟨hflight, other, hfind, hrx, hother.trans hsequence⟩

/-- Whoever is eligible is in the sender's list. -/
theorem exists_heard_of_eligible {t : Table K} {h : Handle} {sender : Record K}
    (hread : t.read h = .ok sender) (hsound : sender.receptions.Sound) {id : AnchorId}
    (heligible : t.Eligible h id) : ∃ sequence, (id, sequence) ∈ sender.heard t.windows h.now := by
  obtain ⟨reception, _, hreception, -⟩ := (Table.eligible_iff hread).1 heligible
  exact ⟨reception.sequence, (Record.mem_heard_iff hsound).2 ⟨reception, hreception, rfl⟩⟩

/-- Some candidate makes a partner exactly if some anchor is eligible. -/
theorem exists_partner?_iff {t : Table K} {h : Handle} {sender : Record K}
    (hread : t.read h = .ok sender) (hsound : sender.receptions.Sound) :
    (∃ c ∈ sender.heard t.windows h.now, (partner? t h.now sender none c).isSome = true) ↔
      ∃ id, t.Eligible h id := by
  constructor
  · rintro ⟨c, hmem, hpartner⟩
    exact ⟨c.1, ((isSome_partner?_heard_iff hread hsound hmem).1 hpartner).2⟩
  · rintro ⟨id, heligible⟩
    obtain ⟨sequence, hmem⟩ := exists_heard_of_eligible hread hsound heligible
    exact ⟨_, hmem, (isSome_partner?_heard_iff hread hsound hmem).2 ⟨nofun, heligible⟩⟩

theorem youngest?_eq_none_iff {qs : List Partner} : youngest? qs = none ↔ qs = [] := by
  cases qs with
  | nil => simp [youngest?]
  | cons p rest =>
      rw [youngest?]
      cases youngest? rest with
      | none => simp
      | some q => by_cases hage : q.age < p.age <;> simp [hage]

/-- A list is read off place by place. -/
theorem filterMap_range_getElem? {α : Type} (xs : List α) :
    ((List.range xs.length).filterMap fun i => xs[i]?) = xs := by
  induction xs with
  | nil => rfl
  | cons x xs ih =>
      rw [List.length_cons, List.range_succ_eq_map, List.filterMap_cons, List.filterMap_map]
      simpa [Function.comp_def] using ih

/-- The rotation by a counter that does not start over on the way. -/
theorem rotated_eq_rotate {turn : UInt64} {candidates : List (AnchorId × UInt8)}
    (hturn : turn.toNat + candidates.length ≤ 2 ^ 64) :
    rotated turn candidates = candidates.rotate turn.toNat := by
  rw [rotated, ← filterMap_range_getElem? (candidates.rotate turn.toNat), List.length_rotate]
  apply List.filterMap_congr
  intro i hi
  have hlt := List.mem_range.1 hi
  have hindex : (turn + i.toUInt64).toNat = turn.toNat + i := by
    rw [UInt64.toNat_add, Nat.toUInt64_eq, UInt64.toNat_ofNat']
    omega
  rw [hindex, List.getElem?_rotate hlt, Nat.add_comm]

/-- Unless the counter starts over on the way, every candidate comes up. -/
theorem mem_rotated_iff {turn : UInt64} {candidates : List (AnchorId × UInt8)}
    (hturn : turn.toNat + candidates.length ≤ 2 ^ 64) {c : AnchorId × UInt8} :
    c ∈ rotated turn candidates ↔ c ∈ candidates := by
  rw [rotated_eq_rotate hturn, List.mem_rotate]

/-- The strategy misses nobody: the limit is no less than the number of candidates, and the counter
does not start over in this call. -/
structure Complete (p : Pairing) (candidates : List (AnchorId × UInt8)) : Prop where
  limit : candidates.length ≤ p.limit
  turn : p.strategy = .random → p.turn.toNat + candidates.length < 2 ^ 64

/-- A strategy that misses nobody chooses somebody if it can. -/
theorem isSome_choose_iff {p : Pairing} {t : Table K} {now : Millis} {sender : Record K}
    (h : p.Complete (sender.heard t.windows now)) :
    (p.choose t now sender none).1.isSome = true ↔ p.strategy ≠ .never ∧
      ∃ c ∈ sender.heard t.windows now, (partner? t now sender none c).isSome = true := by
  rw [choose, List.take_of_length_le h.limit]
  cases hstrategy : p.strategy with
  | never => simp
  | random =>
      -- The counter is advanced before it is used.
      have hlength : (sender.heard t.windows now) ≠ [] →
          (p.turn + 1).toNat + (sender.heard t.windows now).length ≤ 2 ^ 64 := by
        intro hne
        have hpos := List.length_pos_iff.2 hne
        have hturn := h.turn hstrategy
        rw [UInt64.toNat_add, UInt64.toNat_one]
        omega
      simp only [Option.isSome_map, List.findSome?_isSome_iff, ne_eq, reduceCtorEq,
        not_false_eq_true, true_and]
      by_cases hnil : sender.heard t.windows now = []
      · simp [hnil, rotated]
      · simp only [mem_rotated_iff (hlength hnil)]
  | youngest =>
      simp only [Option.isSome_map, ne_eq, reduceCtorEq, not_false_eq_true, true_and]
      rw [← Option.not_isNone, Bool.not_eq_true', Option.isNone_eq_false_iff,
        Option.isSome_iff_ne_none, ne_eq, youngest?_eq_none_iff, List.filterMap_eq_nil_iff]
      simp [Option.isSome_iff_ne_none]

/-- Whoever is picked is eligible, and the handle is the one that a look-up gives. -/
theorem eligible_of_pick {p next : Pairing} {t : Table K} {h other : Handle} {sender : Record K}
    (hread : t.read h = .ok sender) (hsound : sender.receptions.Sound)
    (hpick : p.pick t h none = .ok (some other, next)) :
    t.Eligible h other.id ∧ t.get? other.id h.now = some other := by
  rw [pick_eq p hread] at hpick
  have hchoose := congrArg Prod.fst (Except.ok.inj hpick)
  obtain ⟨candidate, hmem, q, hq, rfl⟩ := exists_of_choose hchoose
  have heligible := ((isSome_partner?_heard_iff hread hsound hmem).1
    (Option.isSome_iff_exists.2 ⟨q, hq⟩)).2
  obtain ⟨-, -, slot, -, hslot, -, -, -, rfl⟩ := partner?_eq_some_iff.1 hq
  refine ⟨heligible, ?_⟩
  rw [Table.get?, hslot]
  rfl

theorem strategy_ne_never_of_pick {p next : Pairing} {t : Table K} {h other : Handle}
    (hpick : p.pick t h none = .ok (some other, next)) : p.strategy ≠ .never := by
  intro hnever
  rw [pick, hnever] at hpick
  cases hpick

/-- A strategy that misses nobody picks a partner exactly if it is one that pairs at all and
somebody is eligible. -/
theorem exists_pick_iff {p : Pairing} {t : Table K} {h : Handle} {sender : Record K}
    (hread : t.read h = .ok sender) (hsound : sender.receptions.Sound)
    (hcomplete : p.Complete (sender.heard t.windows h.now)) :
    (∃ other next, p.pick t h none = .ok (some other, next)) ↔
      p.strategy ≠ .never ∧ ∃ id, t.Eligible h id := by
  rw [← exists_partner?_iff hread hsound, ← isSome_choose_iff hcomplete, pick_eq p hread,
    Option.isSome_iff_exists]
  constructor
  · rintro ⟨other, next, hpick⟩
    exact ⟨other, congrArg Prod.fst (Except.ok.inj hpick)⟩
  · rintro ⟨other, hother⟩
    exact ⟨other, (p.choose t h.now sender none).2, by rw [← hother]⟩

end Pairing

end Ranging

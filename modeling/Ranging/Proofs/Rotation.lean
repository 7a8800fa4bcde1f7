import Mathlib.Data.Nat.Periodic
import Ranging.Proofs.Youngest

/-!
# Fairness of the random order

The strategy `random` goes through a sender's list of neighbours from a place that moves on by one
with each call, and takes the first that is admitted. The list is cyclic: behind its end comes its
beginning. So in as many calls as the list has entries, each admitted neighbour has its turn, and it
also stands in for those before it that are not admitted (`Table.Follows`): it is picked as often as
it is steps away from the admitted one before it.

The first part is about lists (`count_findSome?_rotate`), the second about the strategy
(`Pairing.pick_random`).
-/

namespace Ranging

/-! ## Rotations of a list -/

section Cyclic

variable {α β : Type} {xs : List α} {f : α → Option β} {c : α} {b : β} {i gap : Nat}

/-- Going back from the index `i`, around a list of length `count`, the first good index is so many
steps away. -/
structure Gap (good : Nat → Prop) (count i gap : Nat) : Prop where
  pos : 0 < gap
  le : gap ≤ count
  met : good ((i + count - gap) % count)
  skipped : ∀ back, 0 < back → back < gap → ¬ good ((i + count - back) % count)

/-- From a good index one comes back to it at the latest. -/
theorem exists_gap {good : Nat → Prop} {count : Nat} (hi : i < count) (hgood : good i) :
    ∃ gap, Gap good count i gap := by
  classical
  have hround : good ((i + count - count) % count) := by
    rwa [Nat.add_sub_cancel, Nat.mod_eq_of_lt hi]
  have hback : ∃ back, 0 < back ∧ good ((i + count - back) % count) :=
    ⟨count, Nat.lt_of_le_of_lt (Nat.zero_le i) hi, hround⟩
  obtain ⟨hpos, hmet⟩ := Nat.find_spec hback
  refine ⟨Nat.find hback, hpos, ?_, hmet, ?_⟩
  · exact Nat.find_min' hback ⟨Nat.lt_of_le_of_lt (Nat.zero_le i) hi, hround⟩
  · intro back hpos' hlt hmeets
    exact Nat.find_min hback hlt ⟨hpos', hmeets⟩

theorem Gap.congr {good good' : Nat → Prop} {count : Nat} (h : Gap good count i gap)
    (hsame : ∀ j, good j ↔ good' j) : Gap good' count i gap := by
  obtain rfl : good = good' := funext fun j => propext (hsame j)
  exact h

/-- If no other index is good, the gap is the whole list. -/
theorem Gap.eq_of_only {good : Nat → Prop} {count : Nat} (h : Gap good count i gap) (hi : i < count)
    (honly : ∀ j, good j → j = i) : gap = count := by
  have hmet := honly _ h.met
  have hle := h.le
  have hpos := h.pos
  by_contra hne
  by_cases hwrap : gap ≤ i
  · have hsplit : i + count - gap = i - gap + count := by omega
    rw [hsplit, Nat.add_mod_right, Nat.mod_eq_of_lt (by omega)] at hmet
    omega
  · rw [Nat.mod_eq_of_lt (by omega)] at hmet
    omega

/-- Where one index alone gives `b`, this is what comes up first exactly if nothing before it gives
anything. -/
theorem findSome?_eq_some_iff_of_only {k : Nat} (hk : xs[k]? = some c) (hb : f c = some b)
    (honly : ∀ j x, xs[j]? = some x → f x = some b → j = k) :
    xs.findSome? f = some b ↔ ∀ j < k, ∀ x, xs[j]? = some x → f x = none := by
  rw [List.findSome?_eq_some_iff]
  constructor
  · rintro ⟨before, a, after, rfl, ha, hbefore⟩ j hj x hx
    obtain rfl : before.length = k := honly before.length a (by simp) ha
    rw [List.getElem?_append_left hj] at hx
    exact hbefore x (List.mem_of_getElem? hx)
  · intro hnone
    obtain ⟨hlt, rfl⟩ := List.getElem?_eq_some_iff.1 hk
    refine ⟨xs.take k, xs[k], xs.drop (k + 1), ?_, hb, ?_⟩
    · rw [List.cons_getElem_drop_succ, List.take_append_drop]
    · intro x hx
      obtain ⟨j, hj⟩ := List.mem_iff_getElem?.1 hx
      obtain ⟨hjk, -⟩ := List.getElem?_eq_some_iff.1 hj
      rw [List.length_take] at hjk
      rw [List.getElem?_take_of_lt (by omega)] at hj
      exact hnone j (by omega) x hj

/-- Where one index of a list alone gives `b`, one index of a rotation does. -/
theorem eq_of_getElem?_rotate (honly : ∀ j x, xs[j]? = some x → f x = some b → j = i)
    {start k : Nat} (hk : k < xs.length) (hki : (start + k) % xs.length = i) {j : Nat} {x : α}
    (hx : (xs.rotate start)[j]? = some x) (hxb : f x = some b) : j = k := by
  obtain ⟨hj, -⟩ := List.getElem?_eq_some_iff.1 hx
  rw [List.length_rotate] at hj
  rw [List.getElem?_rotate hj, Nat.add_comm j] at hx
  have hsame : (start + j) % xs.length = (start + k) % xs.length := by
    rw [hki]
    exact honly _ x hx hxb
  -- Both are less than a round away from where the rotation begins.
  have hindices : start + j = start + k := by
    apply Nat.mod_injOn_Ico start xs.length _ _ hsame
    · rw [Finset.coe_Ico]
      exact ⟨Nat.le_add_right .., Nat.add_lt_add_left hj start⟩
    · rw [Finset.coe_Ico]
      exact ⟨Nat.le_add_right .., Nat.add_lt_add_left hk start⟩
  exact Nat.add_left_cancel hindices

/-- Of the rotations that begin up to `count - 1` places before the index `i`, those find it that
begin behind the good index before it. -/
theorem findSome?_rotate_iff (hi : xs[i]? = some c) (hb : f c = some b)
    (honly : ∀ j x, xs[j]? = some x → f x = some b → j = i)
    (hgap : Gap (fun j => ∃ x, xs[j]? = some x ∧ (f x).isSome = true) xs.length i gap)
    {back : Nat} (hback : back < xs.length) :
    (xs.rotate (i + xs.length - back)).findSome? f = some b ↔ back < gap := by
  obtain ⟨hlt, -⟩ := List.getElem?_eq_some_iff.1 hi
  have hat : ∀ j < xs.length, (xs.rotate (i + xs.length - back))[j]? =
      xs[(i + xs.length - back + j) % xs.length]? := by
    intro j hj
    rw [List.getElem?_rotate hj, Nat.add_comm j]
  have hround : (i + xs.length - back + back) % xs.length = i := by
    rw [Nat.sub_add_cancel (by omega), Nat.add_mod_right, Nat.mod_eq_of_lt hlt]
  have hhere : (xs.rotate (i + xs.length - back))[back]? = some c := by
    rw [hat back hback, hround, hi]
  rw [findSome?_eq_some_iff_of_only hhere hb fun j x => eq_of_getElem?_rotate honly hback hround]
  constructor
  · intro hnone
    by_contra hge
    obtain ⟨x, hx, hsome⟩ := hgap.met
    have hpos := hgap.pos
    have hindex : i + xs.length - back + (back - gap) = i + xs.length - gap := by omega
    have hpassed := hnone (back - gap) (by omega) x (by rw [hat _ (by omega), hindex, hx])
    rw [hpassed] at hsome
    cases hsome
  · intro hbefore j hj x hx
    rw [hat j (by omega)] at hx
    have hindex : i + xs.length - back + j = i + xs.length - (back - j) := by omega
    rw [hindex] at hx
    have hskipped := hgap.skipped (back - j) (by omega) (by omega)
    rw [← Option.not_isSome_iff_eq_none]
    intro hsome
    exact hskipped ⟨x, hx, hsome⟩

/-- How often a list shows a value at the places of an interval. -/
theorem count_map_range'_eq_card [BEq β] [LawfulBEq β] [DecidableEq β] (g : Nat → β) (b : β)
    (first count : Nat) :
    ((List.range' first count).map g).count b =
      ((Finset.Ico first (first + count)).filter fun s => g s = b).card := by
  rw [Nat.Ico_eq_range', Nat.add_sub_cancel_left, Finset.card_def, Finset.filter_val,
    Multiset.filter_coe, Multiset.coe_card, List.count, List.countP_map,
    List.countP_eq_length_filter]
  simp only [Function.comp_def, beq_eq_decide]

/-- Among as many rotations in a row as there are places, so many find the element at the index `i`
as it is steps away from the good index before it. -/
theorem count_findSome?_rotate [DecidableEq β] (hi : xs[i]? = some c) (hb : f c = some b)
    (honly : ∀ j x, xs[j]? = some x → f x = some b → j = i)
    (hgap : Gap (fun j => ∃ x, xs[j]? = some x ∧ (f x).isSome = true) xs.length i gap)
    (start : Nat) :
    ((List.range' start xs.length).map fun s => (xs.rotate s).findSome? f).count (some b) =
      gap := by
  obtain ⟨hlt, -⟩ := List.getElem?_eq_some_iff.1 hi
  have hperiodic : Function.Periodic (fun s => (xs.rotate s).findSome? f = some b) xs.length := by
    intro s
    show ((xs.rotate (s + xs.length)).findSome? f = some b) = ((xs.rotate s).findSome? f = some b)
    rw [← List.rotate_mod xs (s + xs.length), Nat.add_mod_right, List.rotate_mod]
  -- A count over a whole period does not depend on where it begins.
  have hwindow := (Nat.filter_Ico_card_eq_of_periodic start xs.length _ hperiodic).trans
    (Nat.filter_Ico_card_eq_of_periodic (i + 1) xs.length _ hperiodic).symm
  rw [count_map_range'_eq_card, hwindow]
  have hfound : (Finset.Ico (i + 1) (i + 1 + xs.length)).filter
      (fun s => (xs.rotate s).findSome? f = some b) =
        Finset.Ico (i + xs.length - gap + 1) (i + xs.length + 1) := by
    have hle := hgap.le
    ext s
    rw [Finset.mem_filter, Finset.mem_Ico, Finset.mem_Ico]
    constructor
    · rintro ⟨⟨hlow, hhigh⟩, hfinds⟩
      have hs : s = i + xs.length - (i + xs.length - s) := by omega
      rw [hs, findSome?_rotate_iff hi hb honly hgap (by omega)] at hfinds
      omega
    · rintro ⟨hlow, hhigh⟩
      have hs : s = i + xs.length - (i + xs.length - s) := by omega
      refine ⟨⟨by omega, by omega⟩, ?_⟩
      rw [hs, findSome?_rotate_iff hi hb honly hgap (by omega)]
      omega
  have hle := hgap.le
  rw [hfound, Nat.card_Ico]
  omega

end Cyclic

/-! ## Calls of the strategy -/

variable {K : Type}

namespace Table

/-- Going through the neighbours of the anchor behind the handle `h` from index `start` on and then
from the beginning, the one behind `other` is the first that is admitted. -/
structure FirstFrom (t : Table K) (h : Handle) (exclude : Option AnchorId)
    (neighbours : List (AnchorId × UInt8)) (start : Nat) (other : Handle) : Prop where
  admitted : t.Admits h exclude other.id
  found : t.get? other.id h.now = some other
  first : ∃ before sequence after,
    neighbours.rotate (start % neighbours.length) = before ++ (other.id, sequence) :: after ∧
    ∀ c ∈ before, ¬ t.Admits h exclude c.1

/-- The neighbour at the index `i` is so many steps away from the admitted one before it. -/
def Follows (t : Table K) (h : Handle) (exclude : Option AnchorId)
    (neighbours : List (AnchorId × UInt8)) (i gap : Nat) : Prop :=
  Gap (fun j => ∃ c, neighbours[j]? = some c ∧ t.Admits h exclude c.1) neighbours.length i gap

end Table

namespace Pairing

/-- What a strategy is asked in one call. -/
structure Query (K : Type) where
  table : Table K
  handle : Handle
  exclude : Option AnchorId

/-- Several calls, one after the other. -/
def pickAll (p : Pairing) :
    List (Query K) → Except StaleHandle (List (Option Handle) × Pairing)
  | [] => return ([], p)
  | q :: qs => do
    let (chosen, p) ← p.pick q.table q.handle q.exclude
    let (rest, p) ← p.pickAll qs
    return (chosen :: rest, p)

variable {t : Table K} {h : Handle} {exclude : Option AnchorId} {limit : Nat} {turn : UInt64}
  {next : Pairing}

/-- The random strategy counts its calls. -/
theorem next_of_pick_random {chosen : Option Handle}
    (hpick : (⟨.random, limit, turn⟩ : Pairing).pick t h exclude = .ok (chosen, next)) :
    next = ⟨.random, limit, turn + 1⟩ := by
  cases hread : t.read h with
  | error e =>
      simp only [pick, hread] at hpick
      cases hpick
  | ok sender =>
      rw [pick_eq _ hread] at hpick
      exact (congrArg Prod.snd (Except.ok.inj hpick)).symm

theorem next_of_pickAll_random {qs : List (Query K)} {found : List (Option Handle)}
    (hpicks : (⟨.random, limit, turn⟩ : Pairing).pickAll qs = .ok (found, next)) :
    next = ⟨.random, limit, turn + UInt64.ofNat qs.length⟩ := by
  induction qs generalizing turn found with
  | nil =>
      obtain rfl := congrArg Prod.snd (Except.ok.inj hpicks)
      simp
  | cons q qs ih =>
      simp only [pickAll, bind, Except.bind] at hpicks
      split at hpicks
      · cases hpicks
      · rename_i answer hpick
        have hnext : answer.2 = ⟨.random, limit, turn + 1⟩ := next_of_pick_random hpick
        rw [hnext] at hpicks
        split at hpicks
        · cases hpicks
        · rename_i answers hrest
          obtain rfl := congrArg Prod.snd (Except.ok.inj hpicks)
          have hlast : answers.2 = ⟨.random, limit, turn + 1 + UInt64.ofNat qs.length⟩ := ih hrest
          rw [hlast, List.length_cons, UInt64.ofNat_add, UInt64.add_assoc, UInt64.add_comm 1]
          rfl

section Sender

variable {sender : Record K}

/-- The handle of the partner that a candidate makes. -/
def partnerHandle? (t : Table K) (h : Handle) (sender : Record K) (exclude : Option AnchorId)
    (c : AnchorId × UInt8) : Option Handle :=
  (partner? t h.now sender exclude c).map (·.handle)

/-- A call of the random strategy, if the counter does not start over on the way. -/
theorem pick_random_eq (hread : t.read h = .ok sender)
    (hlimit : (sender.heard t.windows h.now).length ≤ limit)
    (hturn : turn.toNat + 1 + (sender.heard t.windows h.now).length < 2 ^ 64) :
    (⟨.random, limit, turn⟩ : Pairing).pick t h exclude =
      .ok (((sender.heard t.windows h.now).rotate (turn.toNat + 1)).findSome?
        (partnerHandle? t h sender exclude), ⟨.random, limit, turn + 1⟩) := by
  have hnext : (turn + 1).toNat = turn.toNat + 1 := by
    rw [UInt64.toNat_add, UInt64.toNat_one]
    omega
  rw [pick_eq _ hread, choose]
  simp only [List.take_of_length_le hlimit]
  rw [rotated_eq_rotate (by omega), hnext, List.map_findSome?]
  rfl

/-- Several calls with nothing changed in between. -/
theorem pickAll_replicate (hread : t.read h = .ok sender)
    (hlimit : (sender.heard t.windows h.now).length ≤ limit) (calls : Nat)
    (hturn : turn.toNat + calls + (sender.heard t.windows h.now).length < 2 ^ 64) :
    (⟨.random, limit, turn⟩ : Pairing).pickAll (List.replicate calls ⟨t, h, exclude⟩) =
      .ok ((List.range' (turn.toNat + 1) calls).map fun start =>
        ((sender.heard t.windows h.now).rotate start).findSome? (partnerHandle? t h sender exclude),
        ⟨.random, limit, turn + UInt64.ofNat calls⟩) := by
  induction calls generalizing turn with
  | zero =>
      rw [List.replicate_zero, pickAll]
      simp [pure, Except.pure]
  | succ calls ih =>
      have hnext : (turn + 1).toNat = turn.toNat + 1 := by
        rw [UInt64.toNat_add, UInt64.toNat_one]
        omega
      have hrest := @ih (turn + 1) (by omega)
      rw [List.replicate_succ, pickAll, pick_random_eq hread hlimit (by omega)]
      simp only [hrest, bind, Except.bind, pure, Except.pure]
      rw [hnext, List.range'_succ, List.map_cons, UInt64.ofNat_add, UInt64.add_assoc,
        UInt64.add_comm 1]
      rfl

variable (hread : t.read h = .ok sender) (hsound : sender.receptions.Sound)

include hread hsound

theorem partnerHandle?_eq_some_iff {c : AnchorId × UInt8}
    (hc : c ∈ sender.heard t.windows h.now) {other : Handle} :
    partnerHandle? t h sender exclude c = some other ↔
      other.id = c.1 ∧ t.Admits h exclude c.1 ∧ t.get? c.1 h.now = some other := by
  rw [partnerHandle?, Option.map_eq_some_iff]
  constructor
  · rintro ⟨q, hpartner, rfl⟩
    obtain ⟨hid, hget, -⟩ := aged_of_partner? hpartner
    have hadmits := (isSome_partner?_heard_iff hread hsound hc).1
      (Option.isSome_iff_exists.2 ⟨q, hpartner⟩)
    exact ⟨hid, hadmits, hget⟩
  · rintro ⟨-, hadmits, hget⟩
    obtain ⟨q, hpartner⟩ := exists_partner?_of_admits hread hsound hc hadmits
    obtain ⟨-, hget', -⟩ := aged_of_partner? hpartner
    exact ⟨q, hpartner, Option.some.inj (hget'.symm.trans hget)⟩

theorem isSome_partnerHandle?_iff {c : AnchorId × UInt8}
    (hc : c ∈ sender.heard t.windows h.now) :
    (partnerHandle? t h sender exclude c).isSome = true ↔ t.Admits h exclude c.1 := by
  rw [partnerHandle?, Option.isSome_map]
  exact isSome_partner?_heard_iff hread hsound hc

/-- A rotation finds nobody exactly if nobody is admitted. -/
theorem findSome?_rotate_eq_none_iff (start : Nat) :
    ((sender.heard t.windows h.now).rotate start).findSome? (partnerHandle? t h sender exclude) =
      none ↔ ∀ c ∈ sender.heard t.windows h.now, ¬ t.Admits h exclude c.1 := by
  rw [List.findSome?_eq_none_iff]
  constructor
  · intro hnone c hc
    rw [← isSome_partnerHandle?_iff hread hsound hc, hnone c (List.mem_rotate.2 hc)]
    simp
  · intro hnobody c hc
    have hmem := List.mem_rotate.1 hc
    rw [← Option.not_isSome_iff_eq_none, isSome_partnerHandle?_iff hread hsound hmem]
    exact hnobody c hmem

/-- A rotation finds the first that is admitted. -/
theorem firstFrom_of_findSome?_rotate {start : Nat} {other : Handle}
    (hfound : ((sender.heard t.windows h.now).rotate start).findSome?
      (partnerHandle? t h sender exclude) = some other) :
    t.FirstFrom h exclude (sender.heard t.windows h.now) start other := by
  obtain ⟨before, c, after, hsplit, hc, hbefore⟩ := List.findSome?_eq_some_iff.1 hfound
  have hmem : ∀ x ∈ before ++ c :: after, x ∈ sender.heard t.windows h.now := by
    intro x hx
    rw [← hsplit] at hx
    exact List.mem_rotate.1 hx
  obtain ⟨hid, hadmits, hget⟩ :=
    (partnerHandle?_eq_some_iff hread hsound (hmem c (by simp))).1 hc
  rw [← hid] at hadmits hget
  refine ⟨hadmits, hget, before, c.2, after, ?_, ?_⟩
  · rw [List.rotate_mod, hsplit, hid]
  · intro x hx
    rw [← isSome_partnerHandle?_iff hread hsound (hmem x (List.mem_append_left _ hx)),
      hbefore x hx]
    simp

/-- In a round of calls each admitted neighbour comes up as often as it is steps away from the
admitted one before it. -/
theorem count_round {i : Nat} {c : AnchorId × UInt8}
    (hi : (sender.heard t.windows h.now)[i]? = some c) (hadmits : t.Admits h exclude c.1)
    (start : Nat) : ∃ other gap, other.id = c.1 ∧ t.get? c.1 h.now = some other ∧
      t.Follows h exclude (sender.heard t.windows h.now) i gap ∧
      ((List.range' start (sender.heard t.windows h.now).length).map fun s =>
        ((sender.heard t.windows h.now).rotate s).findSome?
          (partnerHandle? t h sender exclude)).count (some other) = gap := by
  obtain ⟨hlt, -⟩ := List.getElem?_eq_some_iff.1 hi
  have hgap : ∃ gap, t.Follows h exclude (sender.heard t.windows h.now) i gap :=
    exists_gap hlt ⟨c, hi, hadmits⟩
  obtain ⟨gap, hgap⟩ := hgap
  obtain ⟨other, hother⟩ := Option.isSome_iff_exists.1
    ((isSome_partnerHandle?_iff hread hsound (List.mem_of_getElem? hi)).2 hadmits)
  obtain ⟨hid, -, hget⟩ :=
    (partnerHandle?_eq_some_iff hread hsound (List.mem_of_getElem? hi)).1 hother
  refine ⟨other, gap, hid, hget, hgap, ?_⟩
  apply count_findSome?_rotate hi hother
  · -- The list names each neighbour once.
    intro j x hx hxother
    obtain ⟨hxid, -⟩ :=
      (partnerHandle?_eq_some_iff hread hsound (List.mem_of_getElem? hx)).1 hxother
    obtain ⟨hj, -⟩ := List.getElem?_eq_some_iff.1 hx
    refine (List.getElem?_inj (by simpa using hj) (Table.nodup_heard hsound t.windows h.now)).1 ?_
    rw [List.getElem?_map, List.getElem?_map, hx, hi, Option.map_some, Option.map_some, ← hxid, hid]
  · apply hgap.congr
    intro j
    apply exists_congr
    intro x
    apply and_congr_right
    intro hx
    exact (isSome_partnerHandle?_iff hread hsound (List.mem_of_getElem? hx)).symm

end Sender

variable [Scalar K] {capacity receptionCapacity flightCapacity : Nat} {windows : Windows}
  {t₀ : Table K} {cs : List (Table.Command K)} {earlier : List (Query K)}
  {found : List (Option Handle)} {p : Pairing}

/-- However a table was used, a random strategy that is made for it goes through every valid report
of the anchor behind a good handle, starting at the number of calls so far, this one included. It
picks the first anchor that is admitted, or nobody if there is none. In as many calls as there are
reports, with nothing changed in between, each admitted anchor is picked as often as it is steps
away from the admitted one before it. -/
theorem pick_random
    (hcreate : Table.create capacity receptionCapacity flightCapacity windows = .ok t₀)
    (hused : (t₀.performAll cs).2 = t) (hholds : t.Holds h) (exclude : Option AnchorId)
    (hearlier : (⟨.random, receptionCapacity, 0⟩ : Pairing).pickAll earlier = .ok (found, p))
    (hcalls : earlier.length < 2 ^ 64 - 2 * receptionCapacity - 2) :
    ∃ neighbours, t.heard h = .ok neighbours ∧ (neighbours.map (·.1)).Nodup ∧
      (∀ id sequence, (id, sequence) ∈ neighbours ↔
        ∃ reception, t.reception? h id = .ok (some reception) ∧ reception.sequence = sequence) ∧
      (∃ chosen next, p.pick t h exclude = .ok (chosen, next) ∧
        (chosen = none ↔ ∀ c ∈ neighbours, ¬ t.Admits h exclude c.1) ∧
        ∀ other, chosen = some other →
          t.FirstFrom h exclude neighbours (earlier.length + 1) other) ∧
      ∃ round next, p.pickAll (List.replicate neighbours.length ⟨t, h, exclude⟩) =
          .ok (round, next) ∧
        ∀ i c, neighbours[i]? = some c → t.Admits h exclude c.1 →
          ∃ other gap, other.id = c.1 ∧ t.get? c.1 h.now = some other ∧
            t.Follows h exclude neighbours i gap ∧ round.count (some other) = gap ∧
            ((∀ c' ∈ neighbours, t.Admits h exclude c'.1 → c' = c) → gap = neighbours.length) := by
  obtain ⟨sender, hread⟩ := Table.holds_iff.1 hholds
  obtain ⟨hsound, hcapacity⟩ := receptions_of_performAll hcreate hused hread
  have hlimit : (sender.heard t.windows h.now).length ≤ receptionCapacity := by
    rw [← hcapacity]
    exact Record.length_heard_le hsound t.windows h.now
  obtain rfl := next_of_pickAll_random hearlier
  have hturn : (0 + UInt64.ofNat earlier.length).toNat = earlier.length := by
    rw [UInt64.zero_add, UInt64.toNat_ofNat']
    omega
  generalize 0 + UInt64.ofNat earlier.length = turn at hturn ⊢
  rw [← hturn] at hcalls ⊢
  refine ⟨sender.heard t.windows h.now, ?_, Table.nodup_heard hsound _ _, ?_, ?_, ?_⟩
  · rw [Table.heard, hread]
    rfl
  · intro id sequence
    rw [Record.mem_heard_iff hsound, Table.reception?, hread]
    simp only [bind, Except.bind, pure, Except.pure, Except.ok.injEq]
  · refine ⟨_, _, pick_random_eq hread hlimit (by omega), ?_, ?_⟩
    · exact findSome?_rotate_eq_none_iff hread hsound _
    · intro other hother
      exact firstFrom_of_findSome?_rotate hread hsound hother
  · refine ⟨_, _, pickAll_replicate hread hlimit _ (by omega), ?_⟩
    intro i c hi hadmits
    obtain ⟨other, gap, hid, hget, hfollows, hcount⟩ :=
      count_round hread hsound hi hadmits (turn.toNat + 1)
    refine ⟨other, gap, hid, hget, hfollows, hcount, ?_⟩
    intro honly
    apply hfollows.eq_of_only (List.getElem?_eq_some_iff.1 hi).1
    rintro j ⟨c', hj, hadmits'⟩
    obtain rfl := honly c' (List.mem_of_getElem? hj) hadmits'
    have hnodup : (sender.heard t.windows h.now).Nodup :=
      List.Nodup.of_map _ (Table.nodup_heard hsound t.windows h.now)
    exact (List.getElem?_inj (List.getElem?_eq_some_iff.1 hj).1 hnodup).1 (hj.trans hi.symm)

/-- Anchor 1 reports on the anchors 4, 3 and 2. With anchor 3 excluded, anchor 2 is two steps behind
anchor 4. The second call starts there, and two calls in three pick it. -/
theorem pick_random_threeReports : ∃ (t₀ t : Table Float) (h : Handle) (p : Pairing)
    (neighbours : List (AnchorId × UInt8)),
    Table.create 4 3 3 {} = .ok t₀ ∧ (t₀.performAll threeReports).2 = t ∧ h = ⟨0, ⟨1⟩, 10⟩ ∧
    (⟨.random, 3, 0⟩ : Pairing).pickAll [⟨t, h, none⟩] = .ok ([some ⟨2, ⟨3⟩, 10⟩], p) ∧
    neighbours = [(⟨4⟩, 7), (⟨3⟩, 9), (⟨2⟩, 8)] ∧
    t.FirstFrom h (some ⟨3⟩) neighbours 2 ⟨1, ⟨2⟩, 10⟩ ∧
    t.Follows h (some ⟨3⟩) neighbours 2 2 ∧
    ∃ round next, p.pickAll (List.replicate 3 ⟨t, h, some ⟨3⟩⟩) = .ok (round, next) ∧
      round.count (some ⟨1, ⟨2⟩, 10⟩) = 2 := by
  have hcreate : Table.create (K := Float) 4 3 3 {} = .ok ⟨4, 3, 3, {}, []⟩ := rfl
  have hused : (Table.performAll ⟨4, 3, 3, {}, []⟩ threeReports).2 = _ := rfl
  have hholds : (Table.performAll ⟨4, 3, 3, {}, []⟩ threeReports).2.Holds ⟨0, ⟨1⟩, 10⟩ :=
    ⟨_, rfl, rfl⟩
  have hearlier : (⟨.random, 3, 0⟩ : Pairing).pickAll
      [⟨(Table.performAll ⟨4, 3, 3, {}, []⟩ threeReports).2, ⟨0, ⟨1⟩, 10⟩, none⟩] =
        .ok ([some ⟨2, ⟨3⟩, 10⟩], ⟨.random, 3, 1⟩) := rfl
  obtain ⟨neighbours, hheard, -, -, ⟨chosen, next, hpick, -, hfirst⟩, round, last, hround,
    hcounts⟩ := pick_random hcreate hused hholds (some ⟨3⟩) hearlier (by decide)
  obtain rfl : [(⟨4⟩, 7), (⟨3⟩, 9), (⟨2⟩, 8)] = neighbours := Except.ok.inj hheard
  obtain rfl : some ⟨1, ⟨2⟩, 10⟩ = chosen := congrArg Prod.fst (Except.ok.inj hpick)
  have hadmits : (Table.performAll ⟨4, 3, 3, {}, []⟩ threeReports).2.Admits ⟨0, ⟨1⟩, 10⟩
      (some ⟨3⟩) ⟨2⟩ := ⟨by decide, ⟨51, 8⟩, 1, ⟨1, ⟨2⟩, 10⟩, 500, rfl, rfl, rfl, rfl, rfl⟩
  obtain ⟨other, gap, -, hget, hfollows, hcount, -⟩ := hcounts 2 _ rfl hadmits
  obtain rfl : ⟨1, ⟨2⟩, 10⟩ = other := Option.some.inj hget
  obtain rfl : [some ⟨1, ⟨2⟩, 10⟩, some ⟨3, ⟨4⟩, 10⟩, some ⟨1, ⟨2⟩, 10⟩] = round :=
    congrArg Prod.fst (Except.ok.inj hround)
  have hgap : 2 = gap := hcount
  rw [← hgap] at hfollows
  exact ⟨_, _, _, _, _, hcreate, hused, rfl, hearlier, rfl, hfirst _ rfl, hfollows, _, _, hround,
    rfl⟩

end Pairing

end Ranging

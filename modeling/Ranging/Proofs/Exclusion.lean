import Ranging.Proofs.Emission
import Ranging.Proofs.Youngest

/-!
# Packets that must not pair with one anchor

A packet can be processed with one anchor excluded as a partner. This takes the anchor out of the
search and changes nothing else: the clock filter runs before, and the counter of the strategy
`random` moves on whoever is found. If the search without the exclusion ends at another anchor, or
at nobody, the one with the exclusion ends there as well.

A packet is processed in two steps (`Receiver.process_eq`): `Receiver.search` runs the clock filter
and looks for a partner, and `Receiver.conclude` computes and sends the measurement. The exclusion
is a matter of the first step alone (`Receiver.search_excluding`).
-/

namespace Ranging

variable {K : Type}

namespace Pairing

/-- A partner that is younger than those before it, and no older than those behind it. -/
theorem youngest?_eq_some {before after : List Partner} {q : Partner}
    (hbefore : ∀ p ∈ before, q.age < p.age) (hafter : ∀ p ∈ after, q.age ≤ p.age) :
    youngest? (before ++ q :: after) = some q := by
  induction before with
  | nil =>
      rw [List.nil_append, youngest?]
      cases hbest : youngest? after with
      | none => rfl
      | some best =>
          have hle := hafter best (mem_of_youngest? hbest)
          exact if_neg (UInt32.not_lt.2 hle)
  | cons p before ih =>
      obtain ⟨hp, hbefore⟩ := List.forall_mem_cons.1 hbefore
      rw [List.cons_append, youngest?, ih hbefore]
      exact if_pos hp

/-- The winner stays the winner when others leave. -/
theorem youngest?_filter {qs : List Partner} {q : Partner} {keep : Partner → Bool}
    (h : youngest? qs = some q) (hkeep : keep q = true) :
    youngest? (qs.filter keep) = some q := by
  obtain ⟨before, after, rfl, hbefore, hafter⟩ := youngest?_spec h
  rw [List.filter_append, List.filter_cons_of_pos hkeep]
  apply youngest?_eq_some
  · intro p hp
    exact hbefore p (List.mem_of_mem_filter hp)
  · intro p hp
    exact hafter p (List.mem_of_mem_filter hp)

/-- The first that is found stays the first when others are passed over. -/
theorem findSome?_filter {α β : Type} {xs : List α} {f : α → Option β} {b : β} {keep : β → Bool}
    (h : xs.findSome? f = some b) (hkeep : keep b = true) :
    (xs.findSome? fun x => (f x).filter keep) = some b := by
  obtain ⟨before, x, after, hsplit, hx, hbefore⟩ := List.findSome?_eq_some_iff.1 h
  apply List.findSome?_eq_some_iff.2
  refine ⟨before, x, after, hsplit, ?_, ?_⟩
  · rw [hx, Option.filter_some, if_pos hkeep]
  · intro y hy
    rw [hbefore y hy]
    rfl

/-- Excluding an anchor takes it out of the candidates. -/
theorem partner?_excluding (t : Table K) (now : Millis) (sender : Record K) (x : AnchorId) :
    partner? t now sender (some x) = fun c =>
      (partner? t now sender none c).filter fun q => q.handle.id ≠ x := by
  funext c
  apply Option.ext
  intro q
  rw [Option.filter_eq_some_iff, decide_eq_true_iff, partner?_eq_some_iff, partner?_eq_some_iff]
  constructor
  · rintro ⟨hexclude, hflight, slot, record, hslot, hget, hsequence, hrx, rfl⟩
    exact ⟨⟨nofun, hflight, slot, record, hslot, hget, hsequence, hrx, rfl⟩,
      fun hid => hexclude (congrArg some hid.symm)⟩
  · rintro ⟨⟨-, hflight, slot, record, hslot, hget, hsequence, hrx, rfl⟩, hid⟩
    exact ⟨fun hexclude => hid (Option.some.inj hexclude).symm, hflight, slot, record, hslot, hget,
      hsequence, hrx, rfl⟩

/-- What becomes of a choice when an anchor is excluded. -/
structure Without (x : AnchorId) (chosen chosen' : Option Handle) : Prop where
  ne : ∀ other, chosen' = some other → other.id ≠ x
  same : ∀ other, chosen = some other → other.id ≠ x → chosen' = some other
  nobody : chosen = none → chosen' = none

variable (p : Pairing) (t : Table K) (now : Millis) (sender : Record K) (x : AnchorId)

/-- Whoever is chosen without the exclusion, and is not the one excluded, is chosen with it. -/
theorem choose_excluding_of_ne {other : Handle}
    (hother : (p.choose t now sender none).1 = some other) (hne : other.id ≠ x) :
    (p.choose t now sender (some x)).1 = some other := by
  rw [choose] at hother ⊢
  rw [partner?_excluding]
  cases hstrategy : p.strategy with
  | never =>
      rw [hstrategy] at hother
      cases hother
  | random =>
      simp only [hstrategy, Option.map_eq_some_iff] at hother ⊢
      obtain ⟨q, hq, rfl⟩ := hother
      exact ⟨q, findSome?_filter hq (decide_eq_true hne), rfl⟩
  | youngest =>
      simp only [hstrategy, Option.map_eq_some_iff, ← List.filter_filterMap] at hother ⊢
      obtain ⟨q, hq, rfl⟩ := hother
      exact ⟨q, youngest?_filter hq (decide_eq_true hne), rfl⟩

/-- Where nobody is chosen without the exclusion, nobody is chosen with it. -/
theorem choose_excluding_of_none (hnone : (p.choose t now sender none).1 = none) :
    (p.choose t now sender (some x)).1 = none := by
  rw [choose] at hnone ⊢
  rw [partner?_excluding]
  cases hstrategy : p.strategy with
  | never => rfl
  | random =>
      simp only [hstrategy, Option.map_eq_none_iff, List.findSome?_eq_none_iff] at hnone ⊢
      intro c hc
      rw [hnone c hc]
      rfl
  | youngest =>
      simp only [hstrategy, Option.map_eq_none_iff, ← List.filter_filterMap,
        youngest?_eq_none_iff] at hnone ⊢
      rw [hnone]
      rfl

/-- The exclusion shows in whom a strategy chooses, and not in its counter. -/
theorem choose_excluding :
    Without x (p.choose t now sender none).1 (p.choose t now sender (some x)).1 ∧
      (p.choose t now sender (some x)).2 = (p.choose t now sender none).2 := by
  refine ⟨⟨?_, ?_, ?_⟩, ?_⟩
  · intro other hother hid
    obtain ⟨-, -, -, -, hexclude, -⟩ := read_of_choose hother
    exact hexclude (congrArg some hid.symm)
  · intro other hother hne
    exact choose_excluding_of_ne p t now sender x hother hne
  · exact choose_excluding_of_none p t now sender x
  · rw [choose, choose]
    cases p.strategy <;> rfl

end Pairing

namespace Receiver

variable [Scalar K] {r : Receiver K} {h : Handle} {txTime rxTime : Ticks}

/-- The first step: run the clock filter and look for a partner if the timing is reliable. -/
def search (r : Receiver K) (h : Handle) (txTime rxTime : Ticks) (exclude : Option AnchorId) :
    Except StaleHandle (Bool × Option Handle × Receiver K) := do
  let (reliable, r) ← r.updateClock h txTime rxTime
  if !reliable then return (false, none, r)
  let (partner, r) ← (r.count .reliable).findPartner h exclude
  return (true, partner, r)

/-- The second step: compute and send the measurement with a partner. -/
def conclude (r : Receiver K) (h : Handle) (txTime rxTime : Ticks) :
    Option Handle → Except StaleHandle (Receiver K)
  | none => return r
  | some other => do
    let r := r.count .paired
    let some distanceDiff ← r.distanceDiff? other h txTime rxTime | return r
    r.send other h distanceDiff

theorem process_eq (r : Receiver K) (h : Handle) (txTime rxTime : Ticks)
    (exclude : Option AnchorId) :
    r.process h txTime rxTime exclude = (do
      let (reliable, partner, r) ← r.search h txTime rxTime exclude
      let r ← r.conclude h txTime rxTime partner
      return (reliable, r)) := by
  rw [process, search]
  cases r.updateClock h txTime rxTime with
  | error e => rfl
  | ok timed =>
      obtain ⟨reliable, r⟩ := timed
      cases reliable with
      | false => rfl
      | true =>
          simp only [bind, Except.bind, pure, Except.pure, Bool.not_true, Bool.false_eq_true,
            if_false]
          cases (r.count .reliable).findPartner h exclude with
          | error e => rfl
          | ok found =>
              obtain ⟨partner, r⟩ := found
              cases partner with
              | none => rfl
              | some other =>
                  simp only [conclude, bind, Except.bind, pure, Except.pure]
                  cases (r.count .paired).distanceDiff? other h txTime rxTime with
                  | error e => rfl
                  | ok difference =>
                      cases difference <;> rfl

/-- After the first step nothing has been sent, and the two anchors can be read. -/
structure Ready (r ready : Receiver K) (h : Handle) (partner : Option Handle) : Prop where
  outbox : ready.outbox = r.outbox
  sound : r.table.Sound → ready.table.Sound
  sender : ∃ ρ, ready.table.read h = .ok ρ
  other : ∀ other, partner = some other → other.now = h.now ∧ ∃ ο, ready.table.read other = .ok ο

/-- The clock filter sends nothing, and its anchor stays where it is. -/
theorem exists_updateClock {ρ : Record K} (hread : r.table.read h = .ok ρ) (txTime rxTime : Ticks) :
    ∃ reliable timed σ, r.updateClock h txTime rxTime = .ok (reliable, timed) ∧
      timed.outbox = r.outbox ∧ timed.table.read h = .ok σ ∧
      (r.table.Sound → timed.table.Sound) := by
  have hclock := updateClock_eq (a := ⟨⟨h.id, txTime, 0, [], none⟩, rxTime, h.now⟩) hread
  refine ⟨_, _, _, hclock, rfl, Table.read_put_self hread rfl, ?_⟩
  intro hsound
  exact hsound.put (Table.read_eq_ok_iff.1 hread).1 rfl

/-- The first step with and without an exclusion. -/
theorem search_excluding {ρ : Record K} (hread : r.table.read h = .ok ρ) (txTime rxTime : Ticks)
    (x : AnchorId) : ∃ reliable partner partner' ready,
      r.search h txTime rxTime none = .ok (reliable, partner, ready) ∧
      r.search h txTime rxTime (some x) = .ok (reliable, partner', ready) ∧
      Pairing.Without x partner partner' ∧ r.Ready ready h partner ∧ r.Ready ready h partner' := by
  obtain ⟨reliable, timed, σ, hclock, houtbox, hsender, hsound⟩ :=
    exists_updateClock hread txTime rxTime
  have hfind := findPartner_eq (r := timed.count .reliable) hsender
  by_cases hlooked : reliable = true ∧ ¬ σ.clock.ratio ≤ 0.0
  · obtain ⟨rfl, hratio⟩ := hlooked
    obtain ⟨hwithout, hpairing⟩ :=
      Pairing.choose_excluding timed.pairing timed.table h.now σ x
    -- Whoever is chosen can be read.
    have hready : ∀ exclude, r.Ready
        { timed.count .reliable with
          pairing := (timed.pairing.choose timed.table h.now σ none).2 } h
        (timed.pairing.choose timed.table h.now σ exclude).1 := by
      intro exclude
      refine ⟨houtbox, hsound, ⟨σ, hsender⟩, ?_⟩
      intro other hother
      obtain ⟨ο, hread', -, hnow, -⟩ := Pairing.read_of_choose hother
      exact ⟨hnow, ο, hread'⟩
    refine ⟨true, _, _, _, ?_, ?_, hwithout, hready none, hready (some x)⟩
    · simp only [search, hclock, hfind none, if_neg hratio, bind, Except.bind]
      rfl
    · simp only [search, hclock, hfind (some x), if_neg hratio, bind, Except.bind]
      simp only [count_pairing, count_table, hpairing]
      rfl
  · -- Nobody is looked for.
    have hnone : ∃ ready, r.Ready ready h none ∧ ∀ exclude,
        r.search h txTime rxTime exclude = .ok (reliable, none, ready) := by
      cases reliable with
      | false =>
          refine ⟨timed, ⟨houtbox, hsound, ⟨σ, hsender⟩, nofun⟩, ?_⟩
          intro exclude
          rw [search, hclock]
          rfl
      | true =>
          refine ⟨timed.count .reliable, ⟨houtbox, hsound, ⟨σ, hsender⟩, nofun⟩, ?_⟩
          intro exclude
          have hratio : σ.clock.ratio ≤ 0.0 := by simpa using hlooked
          simp only [search, hclock, hfind exclude, if_pos hratio, bind, Except.bind]
          rfl
    obtain ⟨ready, hready, hsearch⟩ := hnone
    have hwithout : Pairing.Without x none none := ⟨nofun, nofun, fun _ => rfl⟩
    exact ⟨reliable, none, none, ready, hsearch none, hsearch (some x), hwithout, hready, hready⟩

/-- The second step adds at most one measurement, which is with the partner. -/
theorem exists_conclude {ready : Receiver K} {partner : Option Handle}
    (hready : r.Ready ready h partner) (txTime rxTime : Ticks) :
    ∃ next sent, ready.conclude h txTime rxTime partner = .ok next ∧ next.table = ready.table ∧
      next.pairing = ready.pairing ∧ next.outbox = r.outbox ++ sent.toList ∧
      ∀ m, sent = some m → ∃ other, partner = some other ∧ m.first = other.id := by
  obtain ⟨houtbox, -, ⟨ρ, hread⟩, hpartner⟩ := hready
  rw [← houtbox]
  cases hother : partner with
  | none => exact ⟨ready, none, rfl, rfl, rfl, (List.append_nil _).symm, nofun⟩
  | some other =>
      obtain ⟨hnow, ο, hread'⟩ := hpartner other hother
      have hdifference := distanceDiff?_eq (r := ready.count .paired)
        (a := ⟨⟨h.id, txTime, 0, [], none⟩, rxTime, h.now⟩) hread hread' rfl
      dsimp only at hdifference
      simp only [conclude, hdifference, bind, Except.bind, pure, Except.pure]
      generalize (ρ.arrivalDifference? ο (ready.count .paired).table.windows
        ⟨⟨h.id, txTime, 0, [], none⟩, rxTime, h.now⟩).map _ = difference
      cases difference with
      | none => exact ⟨_, none, rfl, rfl, rfl, (List.append_nil _).symm, nofun⟩
      | some difference =>
          have hsend := send_eq (r := ready.count .paired) hread hread' rfl hnow difference
          dsimp only
          rw [hsend]
          split
          · refine ⟨_, some _, rfl, rfl, rfl, rfl, ?_⟩
            intro m hm
            refine ⟨other, rfl, ?_⟩
            rw [← Option.some.inj hm]
          · exact ⟨_, none, rfl, rfl, rfl, (List.append_nil _).symm, nofun⟩

/-- Excluding an anchor only removes it. The clock filter, the table and the counter of the strategy
do not notice, the anchor is never paired with, and if it would not have been anyway, both runs end
in the same state. -/
theorem process_excluding (hholds : r.table.Holds h) (txTime rxTime : Ticks) (x : AnchorId) :
    ∃ reliable partner partner' ready,
      r.search h txTime rxTime none = .ok (reliable, partner, ready) ∧
      r.search h txTime rxTime (some x) = .ok (reliable, partner', ready) ∧
      Pairing.Without x partner partner' ∧
      ∃ next next' sent sent', r.process h txTime rxTime = .ok (reliable, next) ∧
        r.process h txTime rxTime (some x) = .ok (reliable, next') ∧
        next'.table = next.table ∧ next'.pairing = next.pairing ∧
        next.outbox = r.outbox ++ sent.toList ∧ next'.outbox = r.outbox ++ sent'.toList ∧
        (∀ m, sent' = some m → m.first ≠ x) ∧
        ((∀ other, partner = some other → other.id ≠ x) → next' = next ∧ sent' = sent) := by
  obtain ⟨ρ, hread⟩ := Table.holds_iff.1 hholds
  obtain ⟨reliable, partner, partner', ready, hsearch, hsearch', hwithout, hready, hready'⟩ :=
    search_excluding hread txTime rxTime x
  obtain ⟨next, sent, hconclude, htable, hpairing, houtbox, -⟩ :=
    exists_conclude hready txTime rxTime
  obtain ⟨next', sent', hconclude', htable', hpairing', houtbox', hsent'⟩ :=
    exists_conclude hready' txTime rxTime
  refine ⟨reliable, partner, partner', ready, hsearch, hsearch', hwithout, next, next', sent, sent',
    ?_, ?_, htable'.trans htable.symm, hpairing'.trans hpairing.symm, houtbox, houtbox', ?_, ?_⟩
  · rw [process_eq, hsearch]
    simp only [bind, Except.bind, hconclude]
    rfl
  · rw [process_eq, hsearch']
    simp only [bind, Except.bind, hconclude']
    rfl
  · intro m hm
    obtain ⟨other, hother, hfirst⟩ := hsent' m hm
    rw [hfirst]
    exact hwithout.ne other hother
  · intro hne
    have hsame : partner' = partner := by
      cases hpartner : partner with
      | none => exact hwithout.nobody hpartner
      | some other => exact hwithout.same other hpartner (hne other hpartner)
    rw [hsame] at hconclude'
    obtain rfl := Except.ok.inj (hconclude'.symm.trans hconclude)
    refine ⟨rfl, ?_⟩
    have hlists := List.append_cancel_left (houtbox'.symm.trans houtbox)
    simpa using congrArg List.head? hlists

/-- After the packets of `pairRun` and one of anchor 3, anchor 1 reports that it received both
others. -/
def twoReports : Receiver Float :=
  ((fresh .standard 0).afterAll
      (pairRun ++ [⟨⟨⟨3⟩, 0, 0, [], some ⟨0.0, 3.0, 0.0⟩⟩, 1000000000, 16⟩])).heard
    { pairReport with broadcast := { pairReport.broadcast with
        reports := [⟨⟨2⟩, 962000000, 0, 50⟩, ⟨⟨3⟩, 998000000, 0, 50⟩] } }

/-- Anchor 3 is the younger partner. If it is excluded, anchor 2 takes its place. -/
theorem process_excluding_twoReports : ∃ next next' m m',
    twoReports.process ⟨0, ⟨1⟩, 20⟩ 1281000000 1285000000 = .ok (true, next) ∧
    twoReports.process ⟨0, ⟨1⟩, 20⟩ 1281000000 1285000000 (some ⟨3⟩) = .ok (true, next') ∧
    next'.table = next.table ∧ next'.pairing = next.pairing ∧
    next.outbox = twoReports.outbox ++ [m] ∧ next'.outbox = twoReports.outbox ++ [m'] ∧
    m.first = ⟨3⟩ ∧ m'.first ≠ ⟨3⟩ := by
  have hslot : twoReports.table.records[0]?.map (·.id) = some ⟨1⟩ := by decide +kernel
  obtain ⟨ρ, hget, hid⟩ := Option.map_eq_some_iff.1 hslot
  have hholds : twoReports.table.Holds ⟨0, ⟨1⟩, 20⟩ := ⟨ρ, hget, hid⟩
  obtain ⟨reliable, -, -, -, -, -, -, next, next', sent, sent', hprocess, hprocess', htable,
    hpairing, houtbox, houtbox', hne, -⟩ := process_excluding hholds 1281000000 1285000000 ⟨3⟩
  have hempty : twoReports.outbox = [] := List.length_eq_zero_iff.1 (by decide +kernel)
  have hfirst : (twoReports.process ⟨0, ⟨1⟩, 20⟩ 1281000000 1285000000).map
      (fun (flag, q) => (flag, q.outbox.map (·.first))) = .ok (true, [⟨3⟩]) := by decide +kernel
  have hother : (twoReports.process ⟨0, ⟨1⟩, 20⟩ 1281000000 1285000000 (some ⟨3⟩)).map
      (fun (flag, q) => (flag, q.outbox.length)) = .ok (true, 1) := by decide +kernel
  rw [hprocess] at hfirst
  rw [hprocess'] at hother
  obtain ⟨rfl, hids⟩ := Prod.mk.inj (Except.ok.inj hfirst)
  obtain ⟨-, hlength⟩ := Prod.mk.inj (Except.ok.inj hother)
  rw [houtbox, hempty, List.nil_append] at hids
  rw [houtbox', hempty, List.nil_append] at hlength
  cases sent with
  | none => cases hids
  | some m =>
      cases sent' with
      | none => cases hlength
      | some m' =>
          exact ⟨next, next', m, m', hprocess, hprocess', htable, hpairing, houtbox, houtbox',
            List.cons.inj hids |>.1, hne m' rfl⟩

end Receiver

end Ranging

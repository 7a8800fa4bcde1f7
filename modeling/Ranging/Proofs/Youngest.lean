import Ranging.Proofs.Pairing
import Ranging.Proofs.TableHistory

/-!
# The youngest partner

The strategy `youngest` goes through a sender's list of neighbours once and keeps the best candidate
so far. What it ends up with does not depend on this order, except between candidates that the tag
heard in the same millisecond: it is the one that the tag heard last, and of several such ones the
first in the list (`Table.Youngest`).

The list never has more candidates than the strategy looks at, so nobody is cut off
(`Pairing.pick_youngest`).
-/

namespace Ranging

variable {K : Type}

namespace Table

/-- The anchor `id` can pair with the one behind the handle, and is not excluded. -/
def Admits (t : Table K) (h : Handle) (exclude : Option AnchorId) (id : AnchorId) : Prop :=
  exclude ≠ some id ∧ t.Eligible h id

/-- At the time of the handle, the tag last heard the anchor `id` so many milliseconds ago. -/
def Aged (t : Table K) (h : Handle) (id : AnchorId) (age : UInt32) : Prop :=
  ∃ other stamp, t.get? id h.now = some other ∧ t.lastUpdate other = .ok stamp ∧
    Millis.since stamp h.now = age

/-- Of the anchors that can pair with the one behind the handle `h`, the one behind `other` is the
one that the tag heard last, and of several such ones the first in the list of neighbours. -/
structure Youngest (t : Table K) (h : Handle) (exclude : Option AnchorId) (other : Handle) :
    Prop where
  admitted : t.Admits h exclude other.id
  found : t.get? other.id h.now = some other
  least : ∃ age, t.Aged h other.id age ∧ ∀ id, t.Admits h exclude id →
    ∃ age', t.Aged h id age' ∧ age ≤ age'
  first : ∃ age before sequence after, t.Aged h other.id age ∧
    t.heard h = .ok (before ++ (other.id, sequence) :: after) ∧
    ∀ c ∈ before, t.Admits h exclude c.1 → ∃ age', t.Aged h c.1 age' ∧ age < age'

end Table

namespace Pairing

/-- The partner of least age, the first of equally old ones. -/
theorem youngest?_spec {qs : List Partner} {q : Partner} (h : youngest? qs = some q) :
    ∃ before after, qs = before ++ q :: after ∧ (∀ p ∈ before, q.age < p.age) ∧
      ∀ p ∈ after, q.age ≤ p.age := by
  induction qs generalizing q with
  | nil => cases h
  | cons p rest ih =>
      rw [youngest?] at h
      cases hrest : youngest? rest with
      | none =>
          rw [hrest] at h
          obtain rfl := Option.some.inj h
          exact ⟨[], rest, rfl, List.forall_mem_nil _, by simp [youngest?_eq_none_iff.1 hrest]⟩
      | some best =>
          rw [hrest] at h
          obtain ⟨before, after, hsplit, hbefore, hafter⟩ := ih hrest
          by_cases hage : best.age < p.age
          · obtain rfl : best = q := Option.some.inj (by simpa [hage] using h)
            refine ⟨p :: before, after, by rw [hsplit, List.cons_append], ?_, hafter⟩
            exact List.forall_mem_cons.2 ⟨hage, hbefore⟩
          · obtain rfl : p = q := Option.some.inj (by simpa [hage] using h)
            refine ⟨[], rest, rfl, List.forall_mem_nil _, ?_⟩
            -- The later ones are no younger than the best of them, which is no younger than `p`.
            have hle : p.age ≤ best.age := UInt32.not_lt.1 hage
            intro other hother
            rw [hsplit] at hother
            rcases List.mem_append.1 hother with hmem | hmem
            · exact UInt32.le_trans hle (UInt32.le_of_lt (hbefore other hmem))
            · rcases List.mem_cons.1 hmem with rfl | hmem
              · exact hle
              · exact UInt32.le_trans hle (hafter other hmem)

section Sender

variable {t : Table K} {h : Handle} {sender : Record K} {exclude : Option AnchorId}
  {c : AnchorId × UInt8} {q : Partner}

/-- A partner has the handle and the age of its candidate. -/
theorem aged_of_partner? (hpartner : partner? t h.now sender exclude c = some q) :
    q.handle.id = c.1 ∧ t.get? c.1 h.now = some q.handle ∧ t.Aged h c.1 q.age := by
  obtain ⟨-, -, slot, record, hslot, hget, -, -, rfl⟩ := partner?_eq_some_iff.1 hpartner
  obtain ⟨other, hother, hid, -⟩ := Table.slot?_eq_some hslot
  obtain rfl : record = other := Option.some.inj (hget.symm.trans hother)
  have hhandle : t.get? c.1 h.now = some ⟨slot, c.1, h.now⟩ := by
    rw [Table.get?, hslot]
    rfl
  refine ⟨rfl, hhandle, _, record.lastUpdate, hhandle, ?_, rfl⟩
  have hread : t.read ⟨slot, c.1, h.now⟩ = .ok record := Table.read_eq_ok hget hid
  rw [Table.lastUpdate, hread]
  rfl

variable (hread : t.read h = .ok sender) (hsound : sender.receptions.Sound)

include hread hsound

/-- A neighbour that is admitted makes a partner. -/
theorem exists_partner?_of_admits (hc : c ∈ sender.heard t.windows h.now)
    (hadmits : t.Admits h exclude c.1) : ∃ q, partner? t h.now sender exclude c = some q :=
  Option.isSome_iff_exists.1 ((isSome_partner?_heard_iff hread hsound hc).2 hadmits)

/-- The list of partners is empty exactly if nobody is admitted. -/
theorem partners_eq_nil_iff :
    (sender.heard t.windows h.now).filterMap (partner? t h.now sender exclude) = [] ↔
      ∀ id, ¬ t.Admits h exclude id := by
  rw [List.filterMap_eq_nil_iff]
  constructor
  · intro hnone id hadmits
    obtain ⟨sequence, hmem⟩ := exists_heard_of_eligible hread hsound hadmits.2
    obtain ⟨q, hq⟩ := exists_partner?_of_admits hread hsound hmem hadmits
    rw [hnone _ hmem] at hq
    cases hq
  · intro hnobody c hc
    cases hpartner : partner? t h.now sender exclude c with
    | none => rfl
    | some q =>
        have hadmits := (isSome_partner?_heard_iff hread hsound hc).1
          (Option.isSome_iff_exists.2 ⟨q, hpartner⟩)
        exact absurd hadmits (hnobody c.1)

/-- The first of the youngest partners is the first of the youngest admitted neighbours. -/
theorem youngest_of_youngest?
    (hyoungest : youngest? ((sender.heard t.windows h.now).filterMap
      (partner? t h.now sender exclude)) = some q) : t.Youngest h exclude q.handle := by
  have hheard : t.heard h = .ok (sender.heard t.windows h.now) := by
    rw [Table.heard, hread]
    rfl
  obtain ⟨before, after, hsplit, hbefore, hafter⟩ := youngest?_spec hyoungest
  obtain ⟨cs, cs', hcandidates, rfl, hrest⟩ := List.filterMap_eq_append_iff.1 hsplit
  obtain ⟨skipped, c, cs'', rfl, hskipped, hpartner, rfl⟩ := List.filterMap_eq_cons_iff.1 hrest
  obtain ⟨hid, hget, haged⟩ := aged_of_partner? hpartner
  rw [← hid] at hget haged
  have hmem : c ∈ sender.heard t.windows h.now := by simp [hcandidates]
  -- What an admitted neighbour contributes to the list of partners.
  have hadmitted : ∀ c' ∈ sender.heard t.windows h.now, t.Admits h exclude c'.1 →
      ∃ p, partner? t h.now sender exclude c' = some p ∧ t.Aged h c'.1 p.age := by
    intro c' hc' hadmits
    obtain ⟨p, hp⟩ := exists_partner?_of_admits hread hsound hc' hadmits
    exact ⟨p, hp, (aged_of_partner? hp).2.2⟩
  constructor
  case admitted =>
    rw [hid]
    exact (isSome_partner?_heard_iff hread hsound hmem).1 (Option.isSome_iff_exists.2 ⟨q, hpartner⟩)
  case found => exact hget
  case least =>
    refine ⟨q.age, haged, ?_⟩
    intro id hadmits
    obtain ⟨sequence, hc'⟩ := exists_heard_of_eligible hread hsound hadmits.2
    obtain ⟨p, hp, hpaged⟩ := hadmitted _ hc' hadmits
    refine ⟨p.age, hpaged, ?_⟩
    have hin : p ∈ (sender.heard t.windows h.now).filterMap (partner? t h.now sender exclude) :=
      List.mem_filterMap.2 ⟨_, hc', hp⟩
    rw [hsplit] at hin
    rcases List.mem_append.1 hin with hin | hin
    · exact UInt32.le_of_lt (hbefore p hin)
    · rcases List.mem_cons.1 hin with rfl | hin
      · exact UInt32.le_refl _
      · exact hafter p hin
  case first =>
    refine ⟨q.age, cs ++ skipped, c.2, cs'', haged, ?_, ?_⟩
    · rw [hheard, hcandidates, hid, List.append_assoc]
    · intro c' hc' hadmits
      have hlist : c' ∈ sender.heard t.windows h.now := by
        rw [hcandidates, ← List.append_assoc]
        exact List.mem_append_left _ hc'
      obtain ⟨p, hp, hpaged⟩ := hadmitted c' hlist hadmits
      refine ⟨p.age, hpaged, ?_⟩
      rcases List.mem_append.1 hc' with hc' | hc'
      · exact hbefore p (List.mem_filterMap.2 ⟨c', hc', hp⟩)
      · rw [hskipped c' hc'] at hp
        cases hp

end Sender

variable [Scalar K] {capacity receptionCapacity flightCapacity : Nat} {windows : Windows}
  {t₀ t : Table K} {cs : List (Table.Command K)} {h : Handle} {ρ : Record K}

/-- However a table was used, the list of reports in a record has the capacity that it was created
with. -/
theorem receptions_of_performAll
    (hcreate : Table.create capacity receptionCapacity flightCapacity windows = .ok t₀)
    (hused : (t₀.performAll cs).2 = t) (hread : t.read h = .ok ρ) :
    ρ.receptions.Sound ∧ ρ.receptions.capacity = receptionCapacity :=
  (Table.lists_of_performAll hcreate hused hread).1

/-- However a table was used, a strategy `youngest` that is made for it looks at every valid report
of the anchor behind a good handle. It picks nobody exactly if no anchor is admitted, and else the
youngest one. -/
theorem pick_youngest
    (hcreate : Table.create capacity receptionCapacity flightCapacity windows = .ok t₀)
    (hused : (t₀.performAll cs).2 = t) (hholds : t.Holds h) (exclude : Option AnchorId)
    {p : Pairing} (hstrategy : p.strategy = .youngest) (hlimit : p.limit = receptionCapacity) :
    (∃ neighbours, t.heard h = .ok neighbours ∧ (neighbours.map (·.1)).Nodup ∧
      ∀ id sequence, (id, sequence) ∈ neighbours.take p.limit ↔
        ∃ reception, t.reception? h id = .ok (some reception) ∧ reception.sequence = sequence) ∧
    (p.pick t h exclude = .ok (none, p) ↔ ∀ id, ¬ t.Admits h exclude id) ∧
    ((∃ id, t.Admits h exclude id) →
      ∃ other, p.pick t h exclude = .ok (some other, p) ∧ t.Youngest h exclude other) := by
  obtain ⟨sender, hread⟩ := Table.holds_iff.1 hholds
  obtain ⟨hsound, hcapacity⟩ := receptions_of_performAll hcreate hused hread
  have htake : (sender.heard t.windows h.now).take p.limit = sender.heard t.windows h.now := by
    apply List.take_of_length_le
    rw [hlimit, ← hcapacity]
    exact Record.length_heard_le hsound t.windows h.now
  have hpick : p.pick t h exclude = .ok ((youngest? ((sender.heard t.windows h.now).filterMap
      (partner? t h.now sender exclude))).map (·.handle), p) := by
    rw [pick_eq p hread, choose, hstrategy]
    simp only [htake]
  refine ⟨⟨sender.heard t.windows h.now, ?_, Table.nodup_heard hsound _ _, ?_⟩, ?_, ?_⟩
  · rw [Table.heard, hread]
    rfl
  · intro id sequence
    rw [htake, Record.mem_heard_iff hsound, Table.reception?, hread]
    simp only [bind, Except.bind, pure, Except.pure, Except.ok.injEq]
  · rw [hpick, ← partners_eq_nil_iff hread hsound, ← youngest?_eq_none_iff]
    simp
  · rintro ⟨id, hadmits⟩
    cases hyoungest : youngest? ((sender.heard t.windows h.now).filterMap
        (partner? t h.now sender exclude)) with
    | none =>
        have hnobody := (partners_eq_nil_iff hread hsound).1 (youngest?_eq_none_iff.1 hyoungest)
        exact absurd hadmits (hnobody id)
    | some q =>
        refine ⟨q.handle, ?_, youngest_of_youngest? hread hsound hyoungest⟩
        rw [hpick, hyoungest]
        rfl

/-- Anchor 1 reports on the anchors 4, 3 and 2, in this order. The tag heard the last two of them in
the same millisecond, and anchor 4 earlier. -/
def threeReports : List (Table.Command Float) :=
  [.enter ⟨1⟩ 0, .enter ⟨2⟩ 0, .enter ⟨3⟩ 0, .enter ⟨4⟩ 0,
    .set ⟨3, ⟨4⟩, 3⟩ (.broadcast 300 30 7), .set ⟨1, ⟨2⟩, 5⟩ (.broadcast 500 50 8),
    .set ⟨2, ⟨3⟩, 5⟩ (.broadcast 510 51 9),
    .set ⟨0, ⟨1⟩, 6⟩ (.reception ⟨4⟩ ⟨31, 7⟩), .set ⟨0, ⟨1⟩, 6⟩ (.reception ⟨3⟩ ⟨52, 9⟩),
    .set ⟨0, ⟨1⟩, 6⟩ (.reception ⟨2⟩ ⟨51, 8⟩), .set ⟨0, ⟨1⟩, 6⟩ (.flight ⟨4⟩ 1),
    .set ⟨0, ⟨1⟩, 6⟩ (.flight ⟨3⟩ 1), .set ⟨0, ⟨1⟩, 6⟩ (.flight ⟨2⟩ 1)]

/-- Of the two youngest, anchor 3 comes first. If it is excluded, anchor 2 is picked. -/
theorem pick_youngest_threeReports : ∃ (t₀ t : Table Float) (h : Handle) (p : Pairing),
    Table.create 4 3 3 {} = .ok t₀ ∧ (t₀.performAll threeReports).2 = t ∧ h = ⟨0, ⟨1⟩, 10⟩ ∧
    p = ⟨.youngest, 3, 0⟩ ∧
    p.pick t h none = .ok (some ⟨2, ⟨3⟩, 10⟩, p) ∧ t.Youngest h none ⟨2, ⟨3⟩, 10⟩ ∧
    p.pick t h (some ⟨3⟩) = .ok (some ⟨1, ⟨2⟩, 10⟩, p) ∧
      t.Youngest h (some ⟨3⟩) ⟨1, ⟨2⟩, 10⟩ := by
  have hcreate : Table.create (K := Float) 4 3 3 {} = .ok ⟨4, 3, 3, {}, []⟩ := rfl
  refine ⟨_, _, ⟨0, ⟨1⟩, 10⟩, ⟨.youngest, 3, 0⟩, hcreate, rfl, rfl, rfl, ?_⟩
  have hused : (Table.performAll ⟨4, 3, 3, {}, []⟩ threeReports).2 = _ := rfl
  have hyoungest := fun exclude => (pick_youngest hcreate hused (h := ⟨0, ⟨1⟩, 10⟩)
    ⟨_, rfl, rfl⟩ exclude (p := ⟨.youngest, 3, 0⟩) rfl rfl).2.2
  obtain ⟨first, hfirst, hspec⟩ := hyoungest none
    ⟨⟨3⟩, nofun, ⟨52, 9⟩, 1, ⟨2, ⟨3⟩, 10⟩, 510, rfl, rfl, rfl, rfl, rfl⟩
  obtain ⟨second, hsecond, hspec'⟩ := hyoungest (some ⟨3⟩)
    ⟨⟨2⟩, by decide, ⟨51, 8⟩, 1, ⟨1, ⟨2⟩, 10⟩, 500, rfl, rfl, rfl, rfl, rfl⟩
  obtain rfl : ⟨2, ⟨3⟩, 10⟩ = first :=
    Option.some.inj (congrArg Prod.fst (Except.ok.inj hfirst))
  obtain rfl : ⟨1, ⟨2⟩, 10⟩ = second :=
    Option.some.inj (congrArg Prod.fst (Except.ok.inj hsecond))
  exact ⟨hfirst, hspec, hsecond, hspec'⟩

end Pairing

end Ranging

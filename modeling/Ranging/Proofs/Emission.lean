import Ranging.Proofs.Pairing
import Ranging.Proofs.Run

/-!
# When a measurement is sent

A packet leads to a measurement if its timing is reliable, its sender's clock has a ratio, a partner
is picked, and the positions of both are valid. This is all that it takes: what the distance
difference is computed from was looked at when the partner was picked, and is read again without
fail. Picking goes through the list of a sender's valid reports, while the computation looks each
report up by its neighbour; both see the same reports, since an anchor has one for each neighbour
and none for itself.

`Receiver.measurement_sent_iff` states this for the receiver in any state that packets can bring it
to.
-/

namespace Ranging

variable {K : Type} [Scalar K]

namespace Receiver

/-! ## What a run keeps -/

@[simp] theorem after_stdDev (r : Receiver K) (a : Arrival K) : (r.after a).stdDev = r.stdDev := rfl

/-- A packet may advance the turn of the strategy, and leaves the rest of it as it is. -/
theorem after_pairing (r : Receiver K) (a : Arrival K) :
    (r.after a).pairing = r.pairing ∨
      (r.after a).pairing = { r.pairing with turn := r.pairing.turn + 1 } := by
  change (r.choice a).2 = _ ∨ (r.choice a).2 = _
  rw [choice]
  split
  · rw [Pairing.choose]
    dsimp only
    split
    · exact Or.inl rfl
    · exact Or.inr rfl
    · exact Or.inl rfl
  · exact Or.inl rfl

@[simp] theorem afterAll_strategy (r : Receiver K) (as : List (Arrival K)) :
    (r.afterAll as).pairing.strategy = r.pairing.strategy := by
  induction as generalizing r with
  | nil => rfl
  | cons a as ih =>
      rw [afterAll_cons, ih]
      rcases after_pairing r a with h | h <;> rw [h]

@[simp] theorem afterAll_limit (r : Receiver K) (as : List (Arrival K)) :
    (r.afterAll as).pairing.limit = r.pairing.limit := by
  induction as generalizing r with
  | nil => rfl
  | cons a as ih =>
      rw [afterAll_cons, ih]
      rcases after_pairing r a with h | h <;> rw [h]

/-- The turn advances at most once for each packet. -/
theorem toNat_turn_le (r : Receiver K) (as : List (Arrival K)) :
    (r.afterAll as).pairing.turn.toNat ≤ r.pairing.turn.toNat + as.length := by
  induction as generalizing r with
  | nil => exact Nat.le_refl _
  | cons a as ih =>
      have hrest := ih (r.after a)
      have hfirst : (r.after a).pairing.turn.toNat ≤ r.pairing.turn.toNat + 1 := by
        rcases after_pairing r a with h | h
        · rw [h]
          omega
        · rw [h, UInt64.toNat_add, UInt64.toNat_one]
          exact Nat.mod_le ..
      rw [afterAll_cons, List.length_cons]
      omega

/-! ## The sender's reports -/

section Sender

variable {r : Receiver K} {as : List (Arrival K)}

/-- The sender's lists are not touched between picking a partner and the end of the packet. -/
theorem receptions_prepared (r : Receiver K) (a : Arrival K) :
    ((r.table.sender a.source).receive r.filter a).receptions = (r.prepared a).receptions := by
  rw [prepared, Record.receive_eq, Record.prepare_eq]

theorem find?_afterAll_concat (hsound : r.table.Sound) (as : List (Arrival K)) (a : Arrival K) :
    (r.afterAll (as ++ [a])).table.find? a.source =
      some (((r.afterAll as).table.sender a.source).receive (r.afterAll as).filter a) := by
  rw [afterAll_append]
  exact find?_after_self (sound_afterAll hsound as).hasSlot a

theorem sound_receptions_prepared (hsound : r.table.Sound)
    (hstart : ∀ id, r.table.find? id = none) (as : List (Arrival K)) (a : Arrival K) :
    ((r.afterAll as).prepared a).receptions.Sound := by
  rw [← receptions_prepared]
  exact sound_receptions_of_find? hsound (hstart a.source) (find?_afterAll_concat hsound as a)

/-- A list of reports keeps the capacity that it was created with. -/
theorem capacity_receptions_prepared (hsound : r.table.Sound)
    (hstart : ∀ id, r.table.find? id = none) (as : List (Arrival K)) (a : Arrival K) :
    ((r.afterAll as).prepared a).receptions.capacity = r.table.receptionCapacity := by
  obtain ⟨before, during, -, -, -, hrecord⟩ :=
    exists_record_eq hsound (hstart a.source) (find?_afterAll_concat hsound as a)
  rw [← receptions_prepared, hrecord, Record.receiveAll_receptions, Recent.writeAll_capacity]
  rfl

/-- No anchor reports on itself. -/
theorem ne_of_reception? (hsound : r.table.Sound) (hstart : ∀ id, r.table.find? id = none)
    {a : Arrival K} {windows : Windows} {now : Millis} {id : AnchorId} {reception : Reception}
    (hreception : ((r.afterAll as).prepared a).reception? windows now id = some reception) :
    id ≠ a.source := by
  rw [Record.reception?, ← receptions_prepared, Recent.find?_eq_bind_stored?] at hreception
  obtain ⟨e, he, -⟩ := Option.bind_eq_some_iff.1 hreception
  have hlast := last_report_of_stored? hsound (hstart a.source)
    (find?_afterAll_concat hsound as a) he
  obtain ⟨hmem, hkey⟩ := List.mem_filter.1 (List.mem_of_getLast? hlast)
  obtain ⟨b, hb, hentry⟩ := List.mem_flatMap.1 hmem
  have hsource : b.source = a.source := by simpa using (List.mem_filter.1 hb).2
  rw [← of_decide_eq_true hkey, ← hsource]
  exact (Arrival.mem_receptions_iff.1 hentry).1

end Sender

/-! ## From the packet to the measurement -/

/-- The sender's slot holds the times of an earlier packet, and the clock filter accepts the
candidate that they and the new times give. -/
def Accepts (r : Receiver K) (a : Arrival K) : Prop :=
  ∃ ρ lastRx lastTx, r.table.find? a.source = some ρ ∧ ρ.rxTime = some lastRx ∧
    ρ.txTime = some lastTx ∧
    (r.filter.update ρ.clock (RatioFilter.candidate a.rxTime.toUInt64 lastRx.toUInt64
      a.broadcast.txTime.toUInt64 lastTx.toUInt64 Ticks.counterMask)).1 = true

/-- Handling a packet gets to the point where a partner is looked for: the sender has entered and
has the handle `h`, its reports are stored, and the clock filter has given its verdict. -/
def Reaches (r : Receiver K) (a : Arrival K) (h : Handle) (reliable : Bool) (ready : Receiver K) :
    Prop :=
  ∃ entered learned, (r.count .packetReceived).enter a.source a.now = (h, entered) ∧
    entered.learn h a.broadcast.reports = .ok learned ∧
    learned.updateClock h a.broadcast.txTime a.rxTime = .ok (reliable, ready)

/-- What a measurement of the sender of a reliable packet with `other` takes, and the positions that
go into it. -/
structure Pairs (ready : Receiver K) (h other : Handle) (first second : Stamped (Point K)) :
    Prop where
  ratio : ∃ clock, ready.table.clock h = .ok clock ∧ ¬ clock.ratio ≤ 0.0
  strategy : ready.pairing.strategy ≠ .never
  eligible : ∃ id, ready.table.Eligible h id
  picked : ∃ next, ready.pairing.pick ready.table h none = .ok (some other, next)
  firstPosition : ready.table.position? other = .ok (some first)
  secondPosition : ready.table.position? h = .ok (some second)

theorem reliable_iff_accepts {r : Receiver K} {a : Arrival K} :
    r.reliable a = true ↔ r.Accepts a := by
  constructor
  · intro hreliable
    have hfind := find?_of_reliable hreliable
    obtain ⟨candidate, hcandidate, haccepts⟩ := reliable_eq_true_iff.1 hreliable
    obtain ⟨lastRx, hrx, hcandidate⟩ := Option.bind_eq_some_iff.1 hcandidate
    obtain ⟨lastTx, htx, hcandidate⟩ := Option.bind_eq_some_iff.1 hcandidate
    obtain rfl := Option.some.inj hcandidate
    exact ⟨_, lastRx, lastTx, hfind, hrx, htx, (RatioFilter.update_fst ..).trans haccepts⟩
  · rintro ⟨ρ, lastRx, lastTx, hfind, hrx, htx, haccepts⟩
    rw [RatioFilter.update_fst] at haccepts
    rw [reliable_eq_true_iff, Table.sender_of_find? hfind]
    refine ⟨_, ?_, haccepts⟩
    rw [ratioCandidate?, hrx, htx]
    rfl

theorem reaches {r : Receiver K} (h : r.table.HasSlot) (a : Arrival K) :
    r.Reaches a (r.senderHandle a) (r.reliable a) (r.timed a) :=
  ⟨r.entered a, r.heard a, enter_eq r a, learn_entered h a, updateClock_heard h a⟩

section Ready

variable {r : Receiver K} {a : Arrival K}

/-- The partner of a packet is the one that the strategy picks. -/
theorem pick_timed (h : r.table.HasSlot) (hreliable : r.reliable a = true)
    (hratio : ¬ (r.prepared a).clock.ratio ≤ 0.0) :
    (r.timed a).pairing.pick (r.timed a).table (r.senderHandle a) none = .ok (r.choice a) := by
  have hread : (r.timed a).table.read (r.senderHandle a) = .ok (r.prepared a) :=
    read_preparedTable h a
  rw [Pairing.pick_eq _ hread, choice, if_pos ⟨hreliable, hratio⟩]
  rfl

/-- The distance difference with a partner that was picked can always be computed. -/
theorem exists_distanceDiff? (h : r.table.HasSlot) (hsound : (r.prepared a).receptions.Sound)
    {other : Handle} {next : Pairing}
    (hpick : (r.timed a).pairing.pick (r.timed a).table (r.senderHandle a) none =
      .ok (some other, next)) :
    ∃ partner difference, (r.timed a).table.read other = .ok partner ∧ other.now = a.now ∧
      (r.prepared a).arrivalDifference? partner r.table.windows a = some difference ∧
      (r.timed a).distanceDiff? other (r.senderHandle a) a.broadcast.txTime a.rxTime =
        .ok (some (speedOfLight * difference / r.tickFrequency)) := by
  have hread : (r.timed a).table.read (r.senderHandle a) = .ok (r.prepared a) :=
    read_preparedTable h a
  obtain ⟨heligible, hget⟩ := Pairing.eligible_of_pick hread hsound hpick
  obtain ⟨-, hnow, partner, hpartner, hfind⟩ := Table.get?_eq_some hget
  obtain ⟨reception, partner', hreception, hflight, hfind', hrx, -⟩ :=
    (Table.eligible_iff hread).1 heligible
  obtain rfl : partner = partner' := Option.some.inj (hfind.symm.trans hfind')
  have hwindows : (r.timed a).table.windows = r.table.windows := preparedTable_windows r a
  have hid : partner.id = other.id := Table.id_of_find? hfind
  obtain ⟨flight, hflight⟩ := Option.isSome_iff_exists.1 hflight
  obtain ⟨otherRx, hrx⟩ := Option.isSome_iff_exists.1 hrx
  rw [hwindows, senderHandle_now, ← hid] at hreception hflight
  have hdifference := Record.arrivalDifference?_eq_some_iff.2
    ⟨flight, reception, otherRx, hflight, hreception, hrx, rfl⟩
  refine ⟨partner, _, hpartner, hnow, hdifference, ?_⟩
  rw [distanceDiff?_eq hread hpartner (a := a) rfl, hwindows, hdifference]
  rfl

/-- A partner is what the strategy picks, on reliable timing and with a ratio. -/
theorem partner?_eq_some_iff_pick (h : r.table.HasSlot) {partner : Record K} :
    r.partner? a = some partner ↔ r.reliable a = true ∧ ¬ (r.prepared a).clock.ratio ≤ 0.0 ∧
      ∃ other next, (r.timed a).pairing.pick (r.timed a).table (r.senderHandle a) none =
        .ok (some other, next) ∧ (r.timed a).table.read other = .ok partner ∧
        other.now = a.now := by
  constructor
  · intro hpartner
    obtain ⟨hreliable, hratio, -⟩ := partner?_spec hpartner
    obtain ⟨other, hother, -⟩ := Option.bind_eq_some_iff.1 hpartner
    obtain ⟨partner', hread, hsame, hnow⟩ := read_of_choice hother
    obtain rfl : partner' = partner := Option.some.inj (hsame.symm.trans hpartner)
    refine ⟨hreliable, hratio, other, (r.choice a).2, ?_, hread, hnow⟩
    rw [pick_timed h hreliable hratio, ← hother]
  · rintro ⟨hreliable, hratio, other, next, hpick, hread, -⟩
    rw [pick_timed h hreliable hratio] at hpick
    obtain ⟨partner', hread', hpartner, -⟩ :=
      read_of_choice (congrArg Prod.fst (Except.ok.inj hpick))
    rw [hpartner, ← Except.ok.inj (hread.symm.trans hread')]

/-- A measurement has a partner that was picked, and two valid positions. -/
theorem pairs_of_measurement? (h : r.table.HasSlot) (hsound : (r.prepared a).receptions.Sound)
    {m : Measurement K} (hm : r.measurement? a = some m) :
    r.reliable a = true ∧ ∃ other first second difference,
      (r.timed a).Pairs (r.senderHandle a) other first second ∧
      (r.timed a).distanceDiff? other (r.senderHandle a) a.broadcast.txTime a.rxTime =
        .ok (some difference) ∧
      m = ⟨other.id, a.source, first.value, second.value, difference, r.stdDev⟩ := by
  have hread : (r.timed a).table.read (r.senderHandle a) = .ok (r.prepared a) :=
    read_preparedTable h a
  have hwindows : (r.timed a).table.windows = r.table.windows := preparedTable_windows r a
  obtain ⟨partner, difference, first, second, hpartner, hdifference, hfirst, hsecond, rfl⟩ :=
    measurement?_eq_some_iff.1 hm
  obtain ⟨hreliable, hratio, other, next, hpick, hother, hnow⟩ :=
    (partner?_eq_some_iff_pick h).1 hpartner
  obtain ⟨partner', difference', hother', -, hdifference', hdistance⟩ :=
    exists_distanceDiff? h hsound hpick
  obtain rfl : partner = partner' := Except.ok.inj (hother.symm.trans hother')
  obtain rfl : difference = difference' := Option.some.inj (hdifference.symm.trans hdifference')
  refine ⟨hreliable, other, first, second, _, ?_, hdistance, ?_⟩
  · exact {
      ratio := ⟨(r.prepared a).clock, by rw [Table.clock, hread]; rfl, hratio⟩
      strategy := Pairing.strategy_ne_never_of_pick hpick
      eligible := ⟨other.id, (Pairing.eligible_of_pick hread hsound hpick).1⟩
      picked := ⟨next, hpick⟩
      firstPosition := by rw [Table.position?_of_read hother, hwindows, hnow, hfirst]
      secondPosition := by
        rw [Table.position?_of_read hread, hwindows, senderHandle_now, hsecond] }
  · rw [(Table.read_eq_ok_iff.1 hother).2]

/-- A partner that was picked and two valid positions make a measurement. -/
theorem measurement?_of_pairs (h : r.table.HasSlot) (hsound : (r.prepared a).receptions.Sound)
    (hreliable : r.reliable a = true) {other : Handle} {first second : Stamped (Point K)}
    {difference : K} (hpairs : (r.timed a).Pairs (r.senderHandle a) other first second)
    (hdistance : (r.timed a).distanceDiff? other (r.senderHandle a) a.broadcast.txTime a.rxTime =
      .ok (some difference)) :
    r.measurement? a =
      some ⟨other.id, a.source, first.value, second.value, difference, r.stdDev⟩ := by
  have hread : (r.timed a).table.read (r.senderHandle a) = .ok (r.prepared a) :=
    read_preparedTable h a
  have hwindows : (r.timed a).table.windows = r.table.windows := preparedTable_windows r a
  obtain ⟨clock, hclock, hratio⟩ := hpairs.ratio
  rw [Table.clock, hread] at hclock
  obtain rfl : (r.prepared a).clock = clock := Except.ok.inj hclock
  obtain ⟨next, hpick⟩ := hpairs.picked
  obtain ⟨partner, difference', hother, hnow, hdifference, hdistance'⟩ :=
    exists_distanceDiff? h hsound hpick
  obtain rfl := Option.some.inj (Except.ok.inj (hdistance.symm.trans hdistance'))
  have hfirst := hpairs.firstPosition
  rw [Table.position?_of_read hother, hwindows, hnow] at hfirst
  have hsecond := hpairs.secondPosition
  rw [Table.position?_of_read hread, hwindows, senderHandle_now] at hsecond
  refine measurement?_eq_some_iff.2 ⟨partner, difference', first, second, ?_, hdifference,
    Except.ok.inj hfirst, Except.ok.inj hsecond, ?_⟩
  · exact (partner?_eq_some_iff_pick h).2 ⟨hreliable, hratio, other, next, hpick, hother, hnow⟩
  · rw [(Table.read_eq_ok_iff.1 hother).2]

end Ready

/-- The sender's list of neighbours is no longer than the settings allow. -/
theorem length_heard_prepared_le {s : Settings K} {start : Millis} {r : Receiver K}
    (hcreate : create s start = .ok r) (as : List (Arrival K)) (a : Arrival K) :
    (((r.afterAll as).prepared a).heard (r.afterAll as).table.windows a.now).length ≤
      s.receptionCapacity := by
  have hsound := sound_of_create hcreate
  have hstart := find?_of_create hcreate
  have hlength := Record.length_heard_le (sound_receptions_prepared hsound hstart as a)
    (r.afterAll as).table.windows a.now
  rw [capacity_receptions_prepared hsound hstart as a] at hlength
  obtain ⟨-, rfl⟩ := create_eq_ok_iff.1 hcreate
  exact hlength

/-- The strategy misses no partner while packets and the neighbours on the sender's list are together
fewer than the turns in a period. -/
theorem complete_of_length_lt {s : Settings K} {start : Millis} {r : Receiver K}
    (hcreate : create s start = .ok r) {as : List (Arrival K)} {a : Arrival K}
    (hturn : s.strategy = .random → as.length +
      (((r.afterAll as).prepared a).heard (r.afterAll as).table.windows a.now).length < 2 ^ 64) :
    (r.afterAll as).pairing.Complete
      (((r.afterAll as).prepared a).heard (r.afterAll as).table.windows a.now) := by
  have hlength := length_heard_prepared_le hcreate as a
  have hturns := toNat_turn_le r as
  obtain ⟨-, rfl⟩ := create_eq_ok_iff.1 hcreate
  refine ⟨by rwa [afterAll_limit], ?_⟩
  intro hrandom
  rw [afterAll_strategy] at hrandom
  have hlt := hturn hrandom
  change _ ≤ 0 + as.length at hturns
  omega

/-- The strategy misses no partner before its turn starts over. -/
theorem complete_afterAll {s : Settings K} {start : Millis} {r : Receiver K}
    (hcreate : create s start = .ok r) {as : List (Arrival K)}
    (hturn : s.strategy = .random → as.length + s.receptionCapacity < 2 ^ 64) (a : Arrival K) :
    (r.afterAll as).pairing.Complete
      (((r.afterAll as).prepared a).heard (r.afterAll as).table.windows a.now) := by
  have hlength := length_heard_prepared_le hcreate as a
  apply complete_of_length_lt hcreate
  intro hrandom
  exact Nat.lt_of_le_of_lt (Nat.add_le_add_left hlength _) (hturn hrandom)

/-- A packet that comes after any others sends a measurement exactly if its timing is reliable, its
sender's clock has a ratio, the strategy is one that pairs, somebody is eligible, and the one who is
picked and the sender both have valid positions. At most one is sent. Its distance difference can
always be computed, and it is of two different anchors. -/
theorem measurement_sent_iff {s : Settings K} {start : Millis} {r : Receiver K}
    (hcreate : create s start = .ok r) (as : List (Arrival K)) (a : Arrival K) :
    ∃ flags r₁ reliable r₂ sent h ready, r.run as = .ok (flags, r₁) ∧
      r₁.handle a.broadcast a.rxTime a.now = .ok (reliable, r₂) ∧
      r₂.outbox = r₁.outbox ++ Option.toList sent ∧
      r₁.Reaches a h reliable ready ∧
      (reliable = true ↔ r₁.Accepts a) ∧
      (sent.isSome = true ↔
        reliable = true ∧ ∃ other first second, ready.Pairs h other first second) ∧
      (∀ m, sent = some m → ∃ other first second difference, ready.Pairs h other first second ∧
        ready.distanceDiff? other h a.broadcast.txTime a.rxTime = .ok (some difference) ∧
        m.first ≠ m.second ∧
        m = ⟨other.id, a.source, first.value, second.value, difference, r₁.stdDev⟩) ∧
      (∀ other next, ready.pairing.pick ready.table h none = .ok (some other, next) →
        ready.table.Eligible h other.id ∧
        ∃ difference, ready.distanceDiff? other h a.broadcast.txTime a.rxTime =
          .ok (some difference)) ∧
      ((s.strategy = .random → as.length + s.receptionCapacity < 2 ^ 64) →
        ((∃ other next, ready.pairing.pick ready.table h none = .ok (some other, next)) ↔
          s.strategy ≠ .never ∧ ∃ id, ready.table.Eligible h id)) := by
  have hsound := sound_of_create hcreate
  have hstart := find?_of_create hcreate
  have hslot := (sound_afterAll hsound as).hasSlot
  have hlists := sound_receptions_prepared hsound hstart as a
  have hread : ((r.afterAll as).timed a).table.read ((r.afterAll as).senderHandle a) =
      .ok ((r.afterAll as).prepared a) := read_preparedTable hslot a
  refine ⟨_, r.afterAll as, (r.afterAll as).reliable a, (r.afterAll as).after a,
    (r.afterAll as).measurement? a, (r.afterAll as).senderHandle a, (r.afterAll as).timed a,
    run_eq hsound as, handle_eq hslot a, after_outbox _ a, reaches hslot a, reliable_iff_accepts,
    ?_, ?_, ?_, ?_⟩
  · rw [Option.isSome_iff_exists]
    constructor
    · rintro ⟨m, hm⟩
      obtain ⟨hreliable, other, first, second, -, hpair, -⟩ := pairs_of_measurement? hslot hlists hm
      exact ⟨hreliable, other, first, second, hpair⟩
    · rintro ⟨hreliable, other, first, second, hpair⟩
      obtain ⟨next, hpick⟩ := hpair.picked
      obtain ⟨-, _, -, -, -, hdistance⟩ := exists_distanceDiff? hslot hlists hpick
      exact ⟨_, measurement?_of_pairs hslot hlists hreliable hpair hdistance⟩
  · intro m hm
    obtain ⟨-, other, first, second, difference, hpair, hdistance, rfl⟩ :=
      pairs_of_measurement? hslot hlists hm
    obtain ⟨next, hpick⟩ := hpair.picked
    obtain ⟨heligible, -⟩ := Pairing.eligible_of_pick hread hlists hpick
    obtain ⟨reception, _, hreception, -⟩ := (Table.eligible_iff hread).1 heligible
    exact ⟨other, first, second, difference, hpair, hdistance,
      ne_of_reception? hsound hstart hreception, rfl⟩
  · intro other next hpick
    obtain ⟨-, _, -, -, -, hdistance⟩ := exists_distanceDiff? hslot hlists hpick
    exact ⟨(Pairing.eligible_of_pick hread hlists hpick).1, _, hdistance⟩
  · intro hturn
    have hcomplete := complete_afterAll hcreate hturn a
    rw [← preparedTable_windows] at hcomplete
    have hstrategy : (r.afterAll as).pairing.strategy = s.strategy := by
      rw [afterAll_strategy, (create_eq_ok_iff.1 hcreate).2]
      rfl
    rw [← hstrategy]
    exact Pairing.exists_pick_iff hread hlists hcomplete

/-- Anchor 1 sends twice, then anchor 2 once. -/
def pairRun : List (Arrival Float) :=
  [⟨⟨⟨1⟩, 1000000, 0, [], some ⟨3.0, 0.0, 0.0⟩⟩, 5000000, 0⟩,
    ⟨⟨⟨1⟩, 641000000, 1, [], some ⟨3.0, 0.0, 0.0⟩⟩, 645000000, 10⟩,
    ⟨⟨⟨2⟩, 0, 0, [], some ⟨0.0, 0.0, 0.0⟩⟩, 964500000, 15⟩]

/-- Anchor 1 reports that it received the packet of anchor 2. -/
def pairReport : Arrival Float :=
  ⟨⟨⟨1⟩, 1281000000, 2, [⟨⟨2⟩, 962000000, 0, 50⟩], some ⟨3.0, 0.0, 0.0⟩⟩, 1285000000, 20⟩

/-- With this report the two anchors are paired. -/
theorem measurement_sent_pairReport : ∃ (r r₁ r₂ : Receiver Float) (m : Measurement Float)
    (flags : List Bool), create Settings.standard 0 = .ok r ∧ r.run pairRun = .ok (flags, r₁) ∧
    r₁.handle pairReport.broadcast pairReport.rxTime pairReport.now = .ok (true, r₂) ∧
    r₂.outbox = r₁.outbox ++ [m] ∧ m.first ≠ m.second ∧ m.second = ⟨1⟩ ∧
    m.stdDev = r₁.stdDev := by
  obtain ⟨flags, r₁, reliable, r₂, sent, h, ready, hrun, hhandle, houtbox, -, -, hsent, hm, -⟩ :=
    measurement_sent_iff (create_standard 0) pairRun pairReport
  obtain ⟨-, hr₁⟩ := eq_of_run (sound_of_create (create_standard 0)) hrun
  obtain ⟨-, hflag, hr₂⟩ := eq_after_of_handle hhandle
  have hlength : r₂.outbox.length = r₁.outbox.length + 1 := by
    rw [hr₂, hr₁]
    decide +kernel
  rw [houtbox, List.length_append] at hlength
  have hsome : sent.isSome = true := by
    cases sent with
    | none => simp at hlength
    | some m => rfl
  obtain ⟨m, rfl⟩ := Option.isSome_iff_exists.1 hsome
  obtain ⟨rfl, -⟩ := hsent.1 hsome
  obtain ⟨other, first, second, difference, -, -, hne, rfl⟩ := hm m rfl
  exact ⟨_, r₁, r₂, _, flags, create_standard 0, hrun, hhandle, houtbox, hne, rfl, rfl⟩

end Receiver

end Ranging

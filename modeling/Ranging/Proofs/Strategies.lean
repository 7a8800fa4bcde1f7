import Ranging.Proofs.Emission

/-!
# What the choice of a strategy changes

A strategy picks the partner of a packet's sender, and nothing that it picks is written into the
table. So whatever the strategy, the same packets have reliable timing, and the table is the same
after each of them.

The strategies that pair at all find a partner on the same packets, although they search in
different ways: each of them finds somebody exactly if somebody can be found, as long as the turn of
the random one has not started over. A list of neighbours has at most 256 entries, so it takes
almost `2 ^ 64` packets to get there. The counter of packets with a partner is the same as well. Who
the partner is, and hence what is measured, may differ.
-/

namespace Ranging

variable {K : Type}

namespace Record

theorem length_heard_le_anchors {r : Record K} (h : r.receptions.Sound) (windows : Windows)
    (now : Millis) : (r.heard windows now).length ≤ 256 :=
  Nat.le_trans (length_heard_le_entries r windows now) (Keyed.length_le h.keys_nodup)

end Record

variable [Scalar K]

/-! ## The counter of packets with a partner -/

namespace Diagnostics

/-- The counter of packets with a partner, and what its refreshing depends on. -/
def pairings (d : Diagnostics K) : RateCounter × Millis × Millis :=
  (d.counters.paired, d.deadline, d.interval)

omit [Scalar K] in
theorem pending_paired (d : Diagnostics K) : d.pending.paired = d.pairings.1.count := rfl

omit [Scalar K] in
theorem pairings_count_of_ne (d : Diagnostics K) {e : Event} (h : e ≠ .paired) :
    (d.count e).pairings = d.pairings := by
  have hpaired := Tally.get_modify_of_ne d.counters RateCounter.event h.symm
  exact congrArg (·, d.deadline, d.interval) hpaired

omit [Scalar K] in
theorem pairings_count_paired (d : Diagnostics K) :
    (d.count .paired).pairings = (d.pairings.1.event, d.pairings.2) := rfl

theorem pairings_update (d : Diagnostics K) (now : Millis) :
    (d.update now).pairings = if Millis.isPast d.pairings.2.1 now then
      ((d.pairings.1.update now).2, now + d.pairings.2.2, d.pairings.2.2) else d.pairings := by
  rw [update]
  split <;> rename_i hpast
  · exact (if_pos hpast).symm
  · exact (if_neg hpast).symm

omit [Scalar K] in
@[simp] theorem pairings_recordReport (d : Diagnostics K) (anchor : AnchorId) (report : Report) :
    (d.recordReport anchor report).pairings = d.pairings := by
  rw [recordReport, recordFlight]
  split
  · rfl
  · split <;> rfl

omit [Scalar K] in
@[simp] theorem pairings_recordClockRatio (d : Diagnostics K) (anchor : AnchorId) (ratio : K) :
    (d.recordClockRatio anchor ratio).pairings = d.pairings := by
  rw [recordClockRatio]
  split <;> rfl

@[simp] theorem pairings_recordDistanceDiff (d : Diagnostics K) (first second : AnchorId)
    (distanceDiff : K) :
    (d.recordDistanceDiff first second distanceDiff).pairings = d.pairings := by
  rw [recordDistanceDiff]
  split
  · rfl
  · split <;> rfl

end Diagnostics

namespace Receiver

theorem pairings_heard (r : Receiver K) (a : Arrival K) :
    (r.heard a).diagnostics.pairings =
      ((r.diagnostics.count .packetReceived).update a.now).pairings := by
  have hreports : ∀ (reports : List Report) (d : Diagnostics K),
      (reports.foldl (·.recordReport a.source ·) d).pairings = d.pairings := by
    intro reports
    induction reports with
    | nil => intro d; rfl
    | cons report rest ih =>
        intro d
        rw [List.foldl_cons, ih, Diagnostics.pairings_recordReport]
  rw [heard, hreports, entered]
  split
  · exact Diagnostics.pairings_count_of_ne (e := .known) _ (by decide)
  · exact Diagnostics.pairings_count_of_ne (e := .entered) _ (by decide)

/-- A packet counts exactly if it has a partner. -/
theorem pairings_after (r : Receiver K) (a : Arrival K) :
    (r.after a).diagnostics.pairings =
      if (r.partner? a).isSome then
        (((r.heard a).diagnostics.pairings.1).event, (r.heard a).diagnostics.pairings.2)
      else (r.heard a).diagnostics.pairings := by
  have htimed : (r.timed a).diagnostics.pairings = (r.heard a).diagnostics.pairings := by
    rw [timed]
    split
    · exact Diagnostics.pairings_recordClockRatio ..
    · rfl
  have hchosen : (r.chosen a).diagnostics.pairings = (r.heard a).diagnostics.pairings := by
    exact (Diagnostics.pairings_count_of_ne (e := .reliable) _ (by decide)).trans htimed
  change (r.nextDiagnostics a).pairings = _
  rw [nextDiagnostics]
  cases r.measurement? a <;> cases (r.partner? a).isSome <;> cases r.reliable a <;>
    simp [Diagnostics.pairings_count_of_ne, Diagnostics.pairings_count_paired, htimed, hchosen]

/-- Equal counters stay equal if both packets have a partner or neither has. -/
theorem pairings_after_congr {r r' : Receiver K} {a : Arrival K}
    (h : r'.diagnostics.pairings = r.diagnostics.pairings)
    (hpartner : (r'.partner? a).isSome = (r.partner? a).isSome) :
    (r'.after a).diagnostics.pairings = (r.after a).diagnostics.pairings := by
  have hheard : (r'.heard a).diagnostics.pairings = (r.heard a).diagnostics.pairings := by
    rw [pairings_heard, pairings_heard, Diagnostics.pairings_update, Diagnostics.pairings_update,
      Diagnostics.pairings_count_of_ne (e := .packetReceived) _ (by decide),
      Diagnostics.pairings_count_of_ne (e := .packetReceived) _ (by decide), h]
  rw [pairings_after, pairings_after, hpartner, hheard]

/-- A counter at zero stays there without a partner. -/
theorem pending_paired_after_of_none {r : Receiver K} {a : Arrival K}
    (hzero : r.diagnostics.pending.paired = 0) (hnone : r.partner? a = none) :
    (r.after a).diagnostics.pending.paired = 0 := by
  rw [Diagnostics.pending_paired] at hzero ⊢
  rw [pairings_after, hnone, pairings_heard, Diagnostics.pairings_update,
    Diagnostics.pairings_count_of_ne (e := .packetReceived) _ (by decide)]
  simp only [Option.isSome_none, Bool.false_eq_true, if_false]
  split
  · rw [RateCounter.update]
    split
    · rfl
    · exact hzero
  · exact hzero

/-! ## Finding a partner -/

/-- A packet's timing is reliable, and a partner is found for its sender. -/
def FindsPartner (r : Receiver K) (a : Arrival K) : Prop :=
  ∃ h ready other next, r.Reaches a h true ready ∧
    (ready.count .reliable).findPartner h none = .ok (some other, next)

theorem findsPartner_iff {r : Receiver K} (h : r.table.HasSlot) {a : Arrival K} :
    r.FindsPartner a ↔ (r.partner? a).isSome = true := by
  constructor
  · rintro ⟨handle, ready, other, next, ⟨entered, learned, henter, hlearn, hclock⟩, hfind⟩
    rw [enter_eq] at henter
    cases henter
    rw [learn_entered h] at hlearn
    cases hlearn
    rw [updateClock_heard h] at hclock
    obtain ⟨hreliable, rfl⟩ := Prod.mk.inj (Except.ok.inj hclock)
    rw [findPartner_timed h hreliable] at hfind
    obtain ⟨_, -, hpartner, -⟩ := read_of_choice (congrArg Prod.fst (Except.ok.inj hfind))
    rw [hpartner]
    rfl
  · intro hsome
    obtain ⟨partner, hpartner⟩ := Option.isSome_iff_exists.1 hsome
    obtain ⟨hreliable, -⟩ := partner?_spec hpartner
    obtain ⟨other, hother, -⟩ := Option.bind_eq_some_iff.1 hpartner
    refine ⟨r.senderHandle a, r.timed a, other, r.chosen a, ?_, ?_⟩
    · rw [← hreliable]
      exact reaches h a
    · rw [findPartner_timed h hreliable, hother]

/-- A strategy that misses nobody finds a partner exactly if it pairs at all, the timing is
reliable, there is a ratio, and some candidate makes a partner. -/
theorem isSome_partner?_iff {r : Receiver K} {a : Arrival K}
    (hcomplete : r.pairing.Complete ((r.prepared a).heard r.table.windows a.now)) :
    (r.partner? a).isSome = true ↔ r.pairing.strategy ≠ .never ∧ r.reliable a = true ∧
      ¬ (r.prepared a).clock.ratio ≤ 0.0 ∧ ∃ c ∈ (r.prepared a).heard r.table.windows a.now,
        (Pairing.partner? (r.preparedTable a) a.now (r.prepared a) none c).isSome = true := by
  have hchoice : (r.partner? a).isSome = true ↔ (r.choice a).1.isSome = true := by
    cases hchosen : (r.choice a).1 with
    | none => simp [partner?_of_choice_none hchosen]
    | some h =>
        obtain ⟨_, -, hpartner, -⟩ := read_of_choice hchosen
        simp [hpartner]
  rw [hchoice, choice]
  split
  · rename_i hgood
    rw [← preparedTable_windows r a] at hcomplete ⊢
    rw [Pairing.isSome_choose_iff hcomplete]
    simp [hgood.1, hgood.2]
  · rename_i hnot
    simp only [Option.isSome_none, Bool.false_eq_true, false_iff]
    rintro ⟨-, hreliable, hratio, -⟩
    exact hnot ⟨hreliable, hratio⟩

theorem partner?_of_never {r : Receiver K} (h : r.pairing.strategy = .never) (a : Arrival K) :
    r.partner? a = none := by
  apply partner?_of_choice_none
  rw [choice, Pairing.choose]
  split
  · simp [h]
  · rfl

/-! ## Runs with different strategies -/

section Congruence

variable {r r' : Receiver K} (htable : r'.table = r.table) (hfilter : r'.filter = r.filter)

include htable hfilter

/-- The verdict on a packet depends on the table and the clock filter only. -/
theorem reliable_congr (a : Arrival K) : r'.reliable a = r.reliable a := by
  rw [reliable, reliable, htable, hfilter]

theorem prepared_congr (a : Arrival K) : r'.prepared a = r.prepared a := by
  rw [prepared, prepared, htable, hfilter]

theorem preparedTable_congr (a : Arrival K) : r'.preparedTable a = r.preparedTable a := by
  rw [preparedTable, preparedTable, prepared_congr htable hfilter, htable]

/-- So does the table after it. -/
theorem after_table_congr (a : Arrival K) : (r'.after a).table = (r.after a).table := by
  rw [after_table, after_table, htable, hfilter]

theorem afterAll_table_congr (as : List (Arrival K)) :
    (r'.afterAll as).table = (r.afterAll as).table := by
  induction as generalizing r r' with
  | nil => exact htable
  | cons a as ih => exact ih (after_table_congr htable hfilter a) hfilter

theorem flags_congr (as : List (Arrival K)) : r'.flags as = r.flags as := by
  induction as generalizing r r' with
  | nil => rfl
  | cons a as ih =>
      rw [flags, flags, reliable_congr htable hfilter,
        ih (after_table_congr htable hfilter a) hfilter]

/-- Two strategies that pair and miss nobody find partners on the same packets. -/
theorem isSome_partner?_congr {a : Arrival K} (hpairs : r.pairing.strategy ≠ .never)
    (hpairs' : r'.pairing.strategy ≠ .never)
    (hcomplete : r.pairing.Complete ((r.prepared a).heard r.table.windows a.now))
    (hcomplete' : r'.pairing.Complete ((r'.prepared a).heard r'.table.windows a.now)) :
    (r'.partner? a).isSome = (r.partner? a).isSome := by
  rw [Bool.eq_iff_iff, isSome_partner?_iff hcomplete, isSome_partner?_iff hcomplete',
    reliable_congr htable hfilter, prepared_congr htable hfilter,
    preparedTable_congr htable hfilter, htable]
  simp [hpairs, hpairs']

end Congruence

/-- A run of fewer than `2 ^ 63` packets is too short for a strategy to miss anybody. -/
theorem complete_of_short {s : Settings K} {start : Millis} {r : Receiver K}
    (hcreate : create s start = .ok r) {as : List (Arrival K)} (hlength : as.length < 2 ^ 63)
    (a : Arrival K) :
    (r.afterAll as).pairing.Complete
      (((r.afterAll as).prepared a).heard (r.afterAll as).table.windows a.now) := by
  have hlists := sound_receptions_prepared (sound_of_create hcreate) (find?_of_create hcreate) as a
  have hheard := Record.length_heard_le_anchors hlists (r.afterAll as).table.windows a.now
  apply complete_of_length_lt hcreate
  intro _
  omega

section Strategies

variable {s : Settings K} {σ τ : Strategy} {start : Millis} {r r' : Receiver K}

theorem strategy_afterAll (hcreate : create { s with strategy := σ } start = .ok r)
    (as : List (Arrival K)) : (r.afterAll as).pairing.strategy = σ := by
  rw [afterAll_strategy, (create_eq_ok_iff.1 hcreate).2]
  rfl

theorem isSome_partner?_afterAll (hcreate : create { s with strategy := σ } start = .ok r)
    (hcreate' : create { s with strategy := τ } start = .ok r') (hσ : σ ≠ .never) (hτ : τ ≠ .never)
    {as : List (Arrival K)} (hlength : as.length < 2 ^ 63) (a : Arrival K) :
    ((r'.afterAll as).partner? a).isSome = ((r.afterAll as).partner? a).isSome := by
  have hcomplete := complete_of_short hcreate hlength a
  have hcomplete' := complete_of_short hcreate' hlength a
  have hpairs := strategy_afterAll hcreate as
  have hpairs' := strategy_afterAll hcreate' as
  obtain ⟨-, rfl⟩ := create_eq_ok_iff.1 hcreate
  obtain ⟨-, rfl⟩ := create_eq_ok_iff.1 hcreate'
  have htable : ((fresh { s with strategy := τ } start).afterAll as).table =
      ((fresh { s with strategy := σ } start).afterAll as).table := by
    apply afterAll_table_congr
    · rfl
    · rfl
  exact isSome_partner?_congr htable (by simp [fresh]) (by rwa [hpairs]) (by rwa [hpairs'])
    hcomplete hcomplete'

/-- What a run preserves: strategies that pair count the same packets. -/
theorem pairings_afterAll (hcreate : create { s with strategy := σ } start = .ok r)
    (hcreate' : create { s with strategy := τ } start = .ok r') (hσ : σ ≠ .never) (hτ : τ ≠ .never)
    {as : List (Arrival K)} (hlength : as.length < 2 ^ 63) :
    (r'.afterAll as).diagnostics.pairings = (r.afterAll as).diagnostics.pairings := by
  induction as using List.reverseRecOn with
  | nil =>
      obtain ⟨-, rfl⟩ := create_eq_ok_iff.1 hcreate
      obtain ⟨-, rfl⟩ := create_eq_ok_iff.1 hcreate'
      rfl
  | append_singleton as a ih =>
      rw [List.length_append, List.length_singleton] at hlength
      have hshort : as.length < 2 ^ 63 := by omega
      rw [afterAll_append, afterAll_append]
      exact pairings_after_congr (ih hshort)
        (isSome_partner?_afterAll hcreate hcreate' hσ hτ hshort a)

/-- What a run preserves: without a strategy that pairs, nothing is counted and nothing is sent. -/
theorem idle_of_never (hcreate : create { s with strategy := .never } start = .ok r)
    (as : List (Arrival K)) :
    (r.afterAll as).outbox = [] ∧ (r.afterAll as).diagnostics.pending.paired = 0 := by
  induction as using List.reverseRecOn with
  | nil =>
      obtain ⟨-, rfl⟩ := create_eq_ok_iff.1 hcreate
      exact ⟨rfl, rfl⟩
  | append_singleton as a ih =>
      have hnone := partner?_of_never (strategy_afterAll hcreate as) a
      rw [afterAll_append]
      refine ⟨?_, pending_paired_after_of_none ih.2 hnone⟩
      change ((r.afterAll as).after a).outbox = []
      rw [after_outbox, ih.1, measurement?_of_partner_none hnone]
      rfl

/-- Two receivers whose settings differ in the strategy only have the same flags and the same table
after every packet. Strategies that pair find a partner on the same packets and count the same
number of them; the one that does not finds none and sends nothing. -/
theorem run_of_strategies (hcreate : create { s with strategy := σ } start = .ok r)
    (hcreate' : create { s with strategy := τ } start = .ok r') {as : List (Arrival K)}
    (hlength : as.length < 2 ^ 63) : ∀ before, before <+: as →
    ∃ flags q q', r.run before = .ok (flags, q) ∧ r'.run before = .ok (flags, q') ∧
      q'.table = q.table ∧
      (σ ≠ .never → τ ≠ .never →
        q'.diagnostics.pending.paired = q.diagnostics.pending.paired ∧
        ∀ a, q'.FindsPartner a ↔ q.FindsPartner a) ∧
      (σ = .never → q.outbox = [] ∧ q.diagnostics.pending.paired = 0 ∧
        ∀ a, ¬ q.FindsPartner a) := by
  intro before hbefore
  have hshort : before.length < 2 ^ 63 := Nat.lt_of_le_of_lt hbefore.length_le hlength
  have hsound := sound_of_create hcreate
  have hsound' := sound_of_create hcreate'
  have hslot := (sound_afterAll hsound before).hasSlot
  have hslot' := (sound_afterAll hsound' before).hasSlot
  have hinitial : r'.table = r.table ∧ r'.filter = r.filter := by
    rw [(create_eq_ok_iff.1 hcreate).2, (create_eq_ok_iff.1 hcreate').2]
    exact ⟨rfl, rfl⟩
  have hflags := flags_congr hinitial.1 hinitial.2 before
  refine ⟨r.flags before, r.afterAll before, r'.afterAll before, run_eq hsound before, ?_,
    afterAll_table_congr hinitial.1 hinitial.2 before, ?_, ?_⟩
  · rw [run_eq hsound', hflags]
  · intro hσ hτ
    refine ⟨?_, ?_⟩
    · rw [Diagnostics.pending_paired, Diagnostics.pending_paired,
        pairings_afterAll hcreate hcreate' hσ hτ hshort]
    · intro a
      rw [findsPartner_iff hslot, findsPartner_iff hslot',
        isSome_partner?_afterAll hcreate hcreate' hσ hτ hshort a]
  · rintro rfl
    obtain ⟨houtbox, hpending⟩ := idle_of_never hcreate before
    refine ⟨houtbox, hpending, ?_⟩
    intro a hfinds
    rw [findsPartner_iff hslot, partner?_of_never (strategy_afterAll hcreate before)] at hfinds
    cases hfinds

end Strategies

/-- Standard settings with another strategy. -/
def pairingBy (σ : Strategy) : Settings Float :=
  { Settings.standard with strategy := σ }

/-- In the run with a pair, the random strategy and the youngest one find a partner on the packet
that reports the other anchor, with equal tables before it. -/
theorem run_of_strategies_pairReport : ∃ flags q q',
    (fresh (pairingBy .random) 0).run pairRun = .ok (flags, q) ∧
    (fresh (pairingBy .youngest) 0).run pairRun = .ok (flags, q') ∧ q'.table = q.table ∧
    q'.diagnostics.pending.paired = q.diagnostics.pending.paired ∧
    q.FindsPartner pairReport ∧ q'.FindsPartner pairReport := by
  have hcreate (σ : Strategy) : create (pairingBy σ) 0 = .ok (fresh (pairingBy σ) 0) :=
    create_eq_ok_iff.2 ⟨(create_eq_ok_iff.1 (create_standard 0)).1, rfl⟩
  have hshort : (pairRun ++ [pairReport]).length < 2 ^ 63 := by decide
  obtain ⟨flags, q, q', hrun, hrun', htable, hpairs, -⟩ :=
    run_of_strategies (hcreate .random) (hcreate .youngest) hshort pairRun (List.prefix_append ..)
  obtain ⟨hpending, hfinds⟩ := hpairs (by decide) (by decide)
  have hsound := sound_of_create (hcreate .random)
  have hfound : q.FindsPartner pairReport := by
    obtain ⟨-, rfl⟩ := eq_of_run hsound hrun
    rw [findsPartner_iff (sound_afterAll hsound pairRun).hasSlot]
    decide +kernel
  exact ⟨flags, q, q', hrun, hrun', htable, hpending, hfound, (hfinds pairReport).2 hfound⟩

end Receiver

end Ranging

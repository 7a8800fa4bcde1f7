import Mathlib.Data.Finset.Card
import Mathlib.Data.Sym.Sym2
import Ranging.Proofs.RunUntil
import Ranging.Simulation.Trial

/-!
# What the verdict on a trial says

A trial ends with at most one reason for its failure, which is looked for in a fixed order: first in
the metrics, where the mean of the squared errors, the largest error and the share of useful packets
have been computed, then in what the scenario alone asks for. `World.Accurate` and `Trial.OwnDemand`
say without any order what is demanded of a run, in terms of the observations themselves and of the
anchors that are stored.

Each check is turned into the demand that it stands for. The square root of the mean square is
compared with a bound, so one has to know of this one root that it is exact; the share of useful
packets is taken as zero if there are no packets, which makes no difference because a run has no
more observations than packets received.
-/

namespace Ranging

/-- A check that finds nothing hands over to the next one. -/
theorem ite_some_eq_none_iff {α : Type} {p : Prop} [Decidable p] {a : α} {x : Option α} :
    (if p then some a else x) = none ↔ ¬ p ∧ x = none := by
  by_cases h : p <;> simp [h]

/-! ## Different elements -/

section Different

variable {α : Type} [BEq α] [LawfulBEq α]

theorem nodup_eraseDups (xs : List α) : xs.eraseDups.Nodup := by
  induction hlength : xs.length using Nat.strong_induction_on generalizing xs with
  | _ n ih =>
      cases xs with
      | nil => exact List.nodup_nil
      | cons x xs =>
          have hfilter := List.length_filter_le (fun y => !y == x) xs
          rw [List.length_cons] at hlength
          rw [List.eraseDups_cons, List.nodup_cons, List.mem_eraseDups, List.mem_filter]
          exact ⟨by simp, ih _ (by omega) _ rfl⟩

/-- What is left without repetitions are the different elements. -/
theorem length_eraseDups [DecidableEq α] (xs : List α) :
    xs.eraseDups.length = xs.toFinset.card := by
  rw [← List.toFinset_card_of_nodup (nodup_eraseDups xs)]
  congr 1
  ext x
  simp

end Different

namespace Metrics

/-! ## Metrics -/

/-- Without its order, an ordered pair is the pair that it was made of. -/
theorem unordered_orderedPair (a b : AnchorId) :
    s((orderedPair a b).1, (orderedPair a b).2) = s(a, b) := by
  rw [orderedPair]
  split
  · exact Sym2.eq_swap
  · rfl

/-- The order of an ordered pair does not depend on how it was made. -/
theorem orderedPair_comm (a b : AnchorId) : orderedPair a b = orderedPair b a := by
  rw [orderedPair, orderedPair]
  by_cases hgt : b.val < a.val
  · rw [if_pos hgt, if_neg (UInt8.lt_asymm hgt)]
  · rw [if_neg hgt]
    split
    · rfl
    · rename_i hlt
      have hval : a.val = b.val := UInt8.le_antisymm (UInt8.not_lt.1 hgt) (UInt8.not_lt.1 hlt)
      cases a
      cases b
      cases hval
      rfl

theorem orderedPair_congr {a b c d : AnchorId} (h : s(a, b) = s(c, d)) :
    orderedPair a b = orderedPair c d := by
  rcases Sym2.eq_iff.1 h with ⟨rfl, rfl⟩ | ⟨rfl, rfl⟩
  · rfl
  · exact orderedPair_comm a b

/-- The pairs of anchors that were measured are counted in either order. -/
theorem length_pairsOf {K : Type} (observations : List (Observation K)) :
    (pairsOf observations).length =
      (observations.map fun o => s(o.first, o.second)).toFinset.card := by
  have hinjective : Set.InjOn (fun p : AnchorId × AnchorId => s(p.1, p.2))
      (observations.map fun o => orderedPair o.first o.second).toFinset := by
    intro p hp q hq heq
    simp only [List.coe_toFinset, List.mem_map, Set.mem_ofPred_eq] at hp hq
    obtain ⟨o, -, rfl⟩ := hp
    obtain ⟨o', -, rfl⟩ := hq
    dsimp only at heq
    rw [unordered_orderedPair, unordered_orderedPair] at heq
    exact orderedPair_congr heq
  rw [pairsOf, length_eraseDups, ← Finset.card_image_of_injOn hinjective]
  congr 1
  ext pair
  simp [unordered_orderedPair]

section Exact

variable {K : Type} [Field K] [LinearOrder K] [FloorRing K]

/-- The sum is that of the squares, whatever the order of the observations. -/
theorem sumOfSquares_eq (observations : List (Observation K)) :
    sumOfSquares observations = (observations.map (·.error ^ 2)).sum := by
  have hzero : (0.0 : K) = 0 := by norm_num
  rw [sumOfSquares, List.sum_eq_foldl, List.foldl_map, hzero]
  simp only [pow_two]

/-- The largest error is below a bound if all are. -/
theorem largestError_lt_iff {observations : List (Observation K)} {bound : K} (h : 0 < bound) :
    largestError observations < bound ↔ ∀ o ∈ observations, |o.error| < bound := by
  have hscan : ∀ start : K, observations.foldl (fun greatest o => max greatest |o.error|) start
      < bound ↔ start < bound ∧ ∀ o ∈ observations, |o.error| < bound := by
    induction observations with
    | nil => simp
    | cons o rest ih =>
        intro start
        rw [List.foldl_cons, ih, max_lt_iff, List.forall_mem_cons, and_assoc]
  have hstart : (0.0 : K) < bound := by
    rwa [(by norm_num : (0.0 : K) = 0)]
  exact (hscan 0.0).trans (and_iff_right hstart)

end Exact

end Metrics

/-! ## Accuracy -/

section Accuracy

variable {σ K : Type} [Field K] [LinearOrder K] [FloorRing K]

/-- The mean of the squared errors. -/
def World.meanSquare (w : World σ K) : K :=
  (w.observations.toList.map (·.error ^ 2)).sum / (w.observations.size : K)

/-- What has been observed is accurate, and enough of the packets received have led to it. -/
structure World.Accurate (w : World σ K) (leastYield : K) : Prop where
  observed : w.observations ≠ #[]
  mean : w.meanSquare < (0.1 : K) ^ 2
  all : ∀ o ∈ w.observations, |o.error| < 0.5
  yield : leastYield * (w.received : K) ≤ (w.observations.size : K)

variable [IsStrictOrderedRing K]

variable (sqrt sin cos exp ln : K → K)

namespace Trial

/-- The root of the mean square is compared with its bound. -/
theorem maxRmsError_le_iff {w : World σ K} (hroot : 0 ≤ sqrt w.meanSquare)
    (hsquare : sqrt w.meanSquare ^ 2 = w.meanSquare) (hne : w.observations ≠ #[]) :
    letI := Analytic.ofField sqrt sin cos exp ln
    (maxRmsError : K) ≤ (Metrics.ofWorld w).rmsError ↔ ¬ w.meanSquare < (0.1 : K) ^ 2 := by
  let _ := Analytic.ofField sqrt sin cos exp ln
  have hlist : w.observations.toList.isEmpty = false := by simpa using hne
  have hrms : (Metrics.ofWorld w).rmsError = sqrt w.meanSquare := by
    rw [World.meanSquare, ← Metrics.sumOfSquares_eq, Metrics.ofWorld]
    simp only [hlist, Bool.false_eq_true, if_false]
    rfl
  have hbound : (0 : K) ≤ maxRmsError := by
    rw [maxRmsError]
    norm_num
  rw [hrms, ← pow_le_pow_iff_left₀ hbound hroot two_ne_zero, hsquare, not_lt]
  rfl

/-- So is the largest error. -/
theorem maxSingleError_le_iff (w : World σ K) :
    letI := Analytic.ofField sqrt sin cos exp ln
    (maxSingleError : K) ≤ (Metrics.ofWorld w).maxError ↔
      ¬ ∀ o ∈ w.observations, |o.error| < 0.5 := by
  let _ := Analytic.ofField sqrt sin cos exp ln
  have hbound : (0 : K) < maxSingleError := by
    rw [maxSingleError]
    norm_num
  have hlargest : (Metrics.ofWorld w).maxError < maxSingleError ↔
      ∀ o ∈ w.observations.toList, |o.error| < maxSingleError := Metrics.largestError_lt_iff hbound
  simp only [Array.mem_toList_iff] at hlargest
  rw [← not_lt]
  exact not_congr hlargest

/-- And the share of useful packets, if there are packets. -/
theorem yieldRatio_lt_iff {w : World σ K} (hreceived : w.received ≠ 0) (least : K) :
    letI := Analytic.ofField sqrt sin cos exp ln
    (Metrics.ofWorld w).yieldRatio < least ↔
      ¬ least * (w.received : K) ≤ (w.observations.size : K) := by
  let _ := Analytic.ofField sqrt sin cos exp ln
  have hratio : (Metrics.ofWorld w).yieldRatio = (w.observations.size : K) / (w.received : K) :=
    if_neg hreceived
  have hpos : (0 : K) < w.received := by exact_mod_cast Nat.pos_of_ne_zero hreceived
  rw [hratio, not_le, div_lt_iff₀ hpos]

/-- The metrics find nothing wrong with a run exactly if it is accurate. -/
theorem judgeAccuracy_eq_none_iff {w : World σ K} (hroot : 0 ≤ sqrt w.meanSquare)
    (hsquare : sqrt w.meanSquare ^ 2 = w.meanSquare) (hle : w.observations.size ≤ w.received)
    (scenario : Scenario) :
    letI := Analytic.ofField sqrt sin cos exp ln
    judgeAccuracy scenario (Metrics.ofWorld w) = none ↔ w.Accurate (leastYield scenario) := by
  let _ := Analytic.ofField sqrt sin cos exp ln
  have hcount : (Metrics.ofWorld w).measurements = w.observations.size := rfl
  by_cases hempty : w.observations = #[]
  · rw [judgeAccuracy, if_pos (by rw [hcount, hempty]; rfl)]
    exact iff_of_false (Option.some_ne_none _) fun h => h.observed hempty
  · have hsize : w.observations.size ≠ 0 := by rwa [ne_eq, Array.size_eq_zero_iff]
    have hreceived : w.received ≠ 0 := by omega
    have hmean := maxRmsError_le_iff sqrt sin cos exp ln hroot hsquare hempty
    have hall := maxSingleError_le_iff sqrt sin cos exp ln w
    have hyield := yieldRatio_lt_iff sqrt sin cos exp ln hreceived (leastYield scenario)
    rw [judgeAccuracy]
    simp only [ite_some_eq_none_iff, hcount, hmean, hall, hyield, not_not]
    constructor
    · rintro ⟨-, hmean, hall, hyield, -⟩
      exact ⟨hempty, hmean, hall, hyield⟩
    · intro h
      exact ⟨hsize, h.mean, h.all, h.yield, trivial⟩

end Trial

end Accuracy

/-! ## What a scenario asks for -/

namespace Trial

section Demands

variable {σ K : Type} [Analytic K] [NoiseSource σ K]

/-- What a scenario asks of a run from `start` to `w`, besides accuracy: measurements after all counters
have started over, or after the anchors were replaced by others that are all stored in the end, or of
many different pairs. -/
def OwnDemand (t : Trial K) (start w : World σ K) : Scenario → Prop
  | .timerWrap => ∃ o ∈ w.observations, 2.0 < o.time
  | .anchorChurn =>
    (∃ o ∈ w.observations, (start.runUntil (t.runTime .anchorChurn / 2.0)).time < o.time) ∧
      ∀ id ∈ w.ids, id ∈ w.receiver.table.ids
  | .randomMatching =>
    min (2 * t.anchorCount) (t.anchorCount * (t.anchorCount - 1) / 2) ≤
      (w.observations.toList.map fun o => s(o.first, o.second)).toFinset.card
  | _ => True

omit [NoiseSource σ K] in
theorem judgeAfter_eq_none_iff {w : World σ K} {event : String} {time : K} :
    judgeAfter w event time = none ↔ ∃ o ∈ w.observations, time < o.time := by
  have hany : w.observations.any (time < ·.time) = true ↔ ∃ o ∈ w.observations, time < o.time := by
    rw [← Array.any_toList, List.any_eq_true]
    simp only [Array.mem_toList_iff, decide_eq_true_eq]
  rw [judgeAfter, ← hany]
  cases w.observations.any (time < ·.time) <;> simp

omit [NoiseSource σ K] in
/-- As many anchors are stored as there are only if all are stored. -/
theorem judgeChurn_eq_none_iff {w : World σ K} (h : w.receiver.table.Sound) {time : K} :
    judgeChurn w time = none ↔
      (∃ o ∈ w.observations, time < o.time) ∧ ∀ id ∈ w.ids, id ∈ w.receiver.table.ids := by
  have hexpected : (distinct w.ids).length = w.ids.toFinset.card := length_eraseDups w.ids
  have hnodup : w.receiver.table.ids.Nodup := h.ids_nodup
  have hstored : (w.receiver.table.ids.filter (w.ids.contains ·)).length =
      (w.receiver.table.ids.toFinset.filter (· ∈ w.ids.toFinset)).card := by
    rw [← List.toFinset_card_of_nodup (hnodup.filter _), List.toFinset_filter]
    congr 1
    ext id
    simp
  have hall : ¬ (w.receiver.table.ids.filter (w.ids.contains ·)).length < (distinct w.ids).length ↔
      ∀ id ∈ w.ids, id ∈ w.receiver.table.ids := by
    have hsubset : w.receiver.table.ids.toFinset.filter (· ∈ w.ids.toFinset) ⊆ w.ids.toFinset :=
      fun id hid => (Finset.mem_filter.1 hid).2
    rw [hexpected, hstored, Nat.not_lt]
    constructor
    · intro hle id hid
      have hfiltered := Finset.eq_of_subset_of_card_le hsubset hle
      rw [← List.mem_toFinset, ← hfiltered, Finset.mem_filter, List.mem_toFinset] at hid
      exact hid.1
    · intro hall
      refine Finset.card_le_card ?_
      intro id hid
      rw [Finset.mem_filter, List.mem_toFinset]
      exact ⟨hall id (List.mem_toFinset.1 hid), hid⟩
  rw [judgeChurn]
  simp only [ite_some_eq_none_iff, judgeAfter_eq_none_iff, hall]
  exact and_comm

omit [NoiseSource σ K] in
theorem judgePairs_eq_none_iff (t : Trial K) (w : World σ K) :
    t.judgePairs w = none ↔ requiredPairs t.anchorCount ≤
      (w.observations.toList.map fun o => s(o.first, o.second)).toFinset.card := by
  have hpairs : (Metrics.ofWorld w).pairs =
      (w.observations.toList.map fun o => s(o.first, o.second)).toFinset.card :=
    Metrics.length_pairsOf w.observations.toList
  rw [judgePairs, hpairs]
  simp only [ite_some_eq_none_iff, Nat.not_lt, and_true]

/-- The calls that a scenario consists of. -/
def calls (t : Trial K) : Scenario → List (World.Command K)
  | .anchorChurn =>
    [.runUntil (t.runTime .anchorChurn / 2.0), .replaceAnchors, .runUntil (t.runTime .anchorChurn)]
  | scenario => [.runUntil (t.runTime scenario)]

theorem perform_fst (t : Trial K) (scenario : Scenario) (w : World σ K) :
    (t.perform scenario w).1 = w.callAll (t.calls scenario) := by
  cases scenario <;> rfl

/-- A scenario finds nothing wrong exactly if it gets what it asks for. -/
theorem perform_snd_eq_none_iff (t : Trial K) (scenario : Scenario) {w : World σ K}
    (h : (t.perform scenario w).1.receiver.table.Sound) :
    (t.perform scenario w).2 = none ↔ t.OwnDemand w (t.perform scenario w).1 scenario := by
  cases scenario with
  | nominal => exact iff_of_true rfl trivial
  | clockDrift => exact iff_of_true rfl trivial
  | packetLoss => exact iff_of_true rfl trivial
  | timerWrap => exact judgeAfter_eq_none_iff
  | anchorChurn => exact judgeChurn_eq_none_iff h
  | randomMatching => exact judgePairs_eq_none_iff t _

/-- A trial that ends has run the scenario on a world set up for it, and has been judged twice. -/
theorem run_eq_ok {t : Trial K} {scenario : Scenario} {w : World σ K} {o : Outcome K}
    (h : t.run scenario = .ok (w, o)) :
    ∃ start : World σ K, World.create (t.setup scenario) = .ok start ∧
      w = (t.perform scenario start).1 ∧
      o.shortfall = (judgeAccuracy scenario (Metrics.ofWorld w)).or (t.perform scenario start).2 := by
  rw [run] at h
  cases hstart : (World.create (t.setup scenario) : Except _ (World σ K)) with
  | error e =>
      rw [hstart] at h
      cases h
  | ok start =>
      rw [hstart] at h
      cases h
      exact ⟨start, rfl, rfl, rfl⟩

/-- A run never observes more than it has received packets. -/
theorem size_observations_le {s : Setup K} {w : World σ K} (h : World.create s = .ok w)
    (commands : List (World.Command K)) :
    (w.callAll commands).observations.size ≤ (w.callAll commands).received := by
  have hempty : w.receiver.outbox = [] ∧ w.observations = #[] ∧ w.received = 0 := by
    obtain ⟨-, -, -, rfl⟩ := World.create_eq_ok_iff.1 h
    exact ⟨rfl, rfl, rfl⟩
  obtain ⟨houtbox, hobservations, hreceived⟩ := hempty
  have hbooked := (World.Running.of_create h).booked houtbox (w.actions commands)
  rw [World.performAll_actions] at hbooked
  obtain ⟨hle, -⟩ := World.length_observed_le (w.starts (w.actions commands))
  have hlength := congrArg List.length hbooked.observations
  rw [hobservations, List.nil_append, Array.length_toList] at hlength
  rw [hlength, hbooked.received, hreceived, Nat.zero_add]
  exact hle

end Demands

/-- With exact arithmetic and an exact root of the mean square, a trial that could be set up has
passed if no reason for a failure is given, and this is so exactly if there are observations, the
mean of their squared errors is below that of an error of 0.1 m, every error is below 0.5 m, there
are as many observations as the scenario demands for the packets received, and the scenario has got
what it alone asks for. -/
theorem passed_iff {σ K : Type} [Field K] [LinearOrder K] [IsStrictOrderedRing K] [FloorRing K]
    [NoiseSource σ K] (sqrt sin cos exp ln : K → K) (t : Trial K) (scenario : Scenario) :
    let _ := Analytic.ofField sqrt sin cos exp ln
    ∀ {w : World σ K} {o : Outcome K}, t.run scenario = .ok (w, o) →
      0 ≤ sqrt w.meanSquare → sqrt w.meanSquare ^ 2 = w.meanSquare →
      (o.passed = true ↔ o.shortfall = none) ∧
      ∃ start : World σ K, World.create (t.setup scenario) = .ok start ∧
        w = start.callAll (t.calls scenario) ∧
        (o.passed = true ↔
          w.Accurate (leastYield scenario) ∧ t.OwnDemand start w scenario) := by
  intro _ w o hrun hroot hsquare
  have hpassed : o.passed = true ↔ o.shortfall = none := Option.isNone_iff_eq_none
  obtain ⟨start, hstart, hw, hshortfall⟩ := run_eq_ok hrun
  have hfinal : w = start.callAll (t.calls scenario) := hw.trans (t.perform_fst scenario start)
  have hle : w.observations.size ≤ w.received := by
    rw [hfinal]
    exact size_observations_le hstart _
  have hsound : (t.perform scenario start).1.receiver.table.Sound := by
    rw [← hw, hfinal]
    exact ((World.Running.of_create hstart).callAll _).sound
  have haccuracy := judgeAccuracy_eq_none_iff sqrt sin cos exp ln hroot hsquare hle scenario
  have hown := t.perform_snd_eq_none_iff scenario hsound
  rw [← hw] at hown
  refine ⟨hpassed, start, hstart, hfinal, ?_⟩
  rw [hpassed, hshortfall, Option.or_eq_none_iff, haccuracy, hown]

end Trial

/-! ## A trial with rational numbers -/

/-- A source without surprises. What is drawn from a range is its middle, every second packet is
lost, and of the noises the last of every 14 is one deviation, and all others are none. -/
structure EvenDraws where
  units : ℕ
  normals : ℕ

instance : NoiseSource EvenDraws ℚ where
  seeded _ := ⟨0, 0⟩
  unit g := (if g.units % 2 = 0 then 0 else 1 / 2, { g with units := g.units + 1 })
  between low high g := ((low + high) / 2, g)
  counter g := (0, g)
  normal deviation g :=
    (if g.normals % 14 = 13 then deviation else 0, { g with normals := g.normals + 1 })

namespace Trial

/-- Four anchors, of which the tag hears the second and the fourth only. It moves so that it is
equally far from both. -/
def symmetricTrial : Trial ℚ where
  seed := 42
  anchorCount := 4
  duration := 0.024
  strategy := none
  settings := .standard

/-- The cosine of angles near a quarter turn or a multiple of it. -/
def quarterCos (x : ℚ) : ℚ :=
  if x < 1 then 1 else if x < 2 then 0 else if x < 4 then -1 else 0

/-- The sine of such angles. -/
def quarterSin (x : ℚ) : ℚ :=
  if x < 1 then 0 else if x < 2 then 1 else if x < 4 then 0 else -1

/-- The distance that light travels within two ticks. -/
def twoTicks : ℚ :=
  2 * speedOfLight / Settings.radioTickFrequency

/-- The square root of a number: an exact one if it is `twoTicks`, and one of 53 bits otherwise. -/
def nearbyRoot (x : ℚ) : ℚ :=
  if x = twoTicks ^ 2 then twoTicks else throughFloat .sqrt x

/-- The trial can be set up. -/
theorem create_symmetricTrial :
    letI := Analytic.ofField nearbyRoot quarterSin quarterCos (throughFloat .exp)
      (throughFloat .log)
    World.create (symmetricTrial.setup .packetLoss) =
      .ok (World.fresh (symmetricTrial.setup .packetLoss) : World EvenDraws ℚ) := by
  have hvalid : (symmetricTrial.setup .packetLoss).Valid :=
    ⟨by decide, by decide, by decide +kernel, by decide +kernel, by decide +kernel⟩
  have hsettings : (symmetricTrial.setup .packetLoss).settings.Valid :=
    Settings.valid_standard_exact
  let _ := Analytic.ofField nearbyRoot quarterSin quarterCos (throughFloat .exp) (throughFloat .log)
  exact World.create_eq_ok_iff.2 ⟨hvalid, rfl, hsettings, rfl⟩

/-- Of twelve packets six are received. They lead to two observations, one two ticks too short and
the other two ticks too long, and the trial has passed. -/
theorem passed_iff_symmetricTrial :
    letI := Analytic.ofField nearbyRoot quarterSin quarterCos (throughFloat .exp)
      (throughFloat .log)
    ∃ (w : World EvenDraws ℚ) (o : Outcome ℚ), symmetricTrial.run .packetLoss = .ok (w, o) ∧
      0 ≤ nearbyRoot w.meanSquare ∧ nearbyRoot w.meanSquare ^ 2 = w.meanSquare ∧
      w.observations.toList.map (·.error) = [-twoTicks, twoTicks] ∧ w.received = 6 ∧
      o.passed = true ∧ o.shortfall = none := by
  let _ := Analytic.ofField nearbyRoot quarterSin quarterCos (throughFloat .exp) (throughFloat .log)
  let v : World EvenDraws ℚ :=
    (World.fresh (symmetricTrial.setup .packetLoss)).callAll (symmetricTrial.calls .packetLoss)
  have herrors : v.observations.toList.map (·.error) = [-twoTicks, twoTicks] := by decide +kernel
  have hreceived : v.received = 6 := by decide +kernel
  have hmean : v.meanSquare = twoTicks ^ 2 := by decide +kernel
  have hroot : nearbyRoot v.meanSquare = twoTicks := if_pos hmean
  have haccurate : v.Accurate (leastYield .packetLoss) :=
    ⟨by decide +kernel, by decide +kernel, by decide +kernel, by decide +kernel⟩
  obtain ⟨w, o, hrun⟩ : ∃ (w : World EvenDraws ℚ) (o : Outcome ℚ),
      symmetricTrial.run .packetLoss = .ok (w, o) := by
    rw [run, create_symmetricTrial]
    exact ⟨_, _, rfl⟩
  have hw : w = v := by
    obtain ⟨start, hstart, hw, -⟩ := run_eq_ok hrun
    rw [create_symmetricTrial, Except.ok.injEq] at hstart
    rw [hw, perform_fst, ← hstart]
  subst hw
  have hpositive : 0 ≤ nearbyRoot v.meanSquare := by
    rw [hroot]
    decide +kernel
  have hsquare : nearbyRoot v.meanSquare ^ 2 = v.meanSquare := by rw [hroot, hmean]
  obtain ⟨hnone, start, hstart, hfinal, hpassed⟩ := passed_iff nearbyRoot quarterSin quarterCos
    (throughFloat .exp) (throughFloat .log) symmetricTrial .packetLoss hrun hpositive hsquare
  have ho : o.passed = true := hpassed.2 ⟨haccurate, trivial⟩
  exact ⟨v, o, hrun, hpositive, hsquare, herrors, hreceived, ho, hnone.1 ho⟩

end Trial

end Ranging

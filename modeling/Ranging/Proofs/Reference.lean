import Ranging.Proofs.NonnegativeRatio

/-!
# Reliable timing and references

A packet's timing is meant to be reliable only if its anchor's clock has a reference, which an
earlier packet gave. The filter has no mark for a clock without one: its ratio is zero, and the
noise band is the one around zero. A candidate that falls into it is accepted, with nothing to
compare it to.

It can be said exactly when this happens. A run keeps the rule as long as no packet of an anchor
without a ratio gives a candidate in the upper half of the noise band around zero (`NearZero`). Such
a candidate means that the tag's counter hardly moved between two packets, compared to the anchor's.
-/

namespace Ranging

namespace RatioFilter

open Binary64

theorem valid_standard : (standard (K := Float)).Valid :=
  validate_eq_ok_iff.1 rfl

theorem acceptedNoise_standard_le_one : (standard (K := Float)).acceptedNoise ≤ 1.0 := by
  decide

theorem unpack_neg_acceptedNoise :
    (-(standard (K := Float)).acceptedNoise).toModel.unpack =
      .finite .negative 4533471823554859 (-77) (by decide) := rfl

/-- Without a ratio, the noise band lies around zero. -/
theorem accepts_of_ratio_eq_zero {s : RatioState Float} (hratio : s.ratio = 0.0) {candidate : Float}
    (h : Nonneg candidate) :
    standard.accepts s candidate = decide (candidate < (standard (K := Float)).acceptedNoise) := by
  have hlow : -(standard (K := Float)).acceptedNoise < candidate :=
    h.neg_lt unpack_neg_acceptedNoise
  have hdifference : candidate - s.ratio = candidate := by
    rw [hratio]
    exact h.sub_zero
  simp only [accepts, isNoise]
  rw [hdifference, decide_eq_true hlow, Bool.true_and]

end RatioFilter

namespace Receiver

section Rule

variable {K : Type} [Scalar K]

/-- The packet gives a candidate that its anchor's clock takes as a reference. -/
def TakesReference (r : Receiver K) (a : Arrival K) : Prop :=
  ∃ ρ candidate, r.table.find? a.source = some ρ ∧
    ratioCandidate? ρ a.broadcast.txTime a.rxTime = some candidate ∧
    r.filter.takesReference ρ.clock candidate = true

/-- After the packets `as` an anchor has a reference: one of its packets gave it, since the anchor
last entered the table. -/
def Referenced (r : Receiver K) (as : List (Arrival K)) (id : AnchorId) : Prop :=
  ∃ before during, as = before ++ during ∧ r.Stay id before during ∧
    ∃ earlier a later, during = earlier ++ a :: later ∧ a.source = id ∧
      (r.afterAll (before ++ earlier)).TakesReference a

/-- An anchor is stored, and its clock has a ratio. -/
def Calibrated (r : Receiver K) (id : AnchorId) : Prop :=
  ∃ ρ, r.table.find? id = some ρ ∧ ρ.clock.isCalibrated = true

/-- Whenever a packet's timing is reliable, or it leads to a measurement, its anchor had a
reference before. -/
def ReliableAfterReference (r : Receiver K) (as : List (Arrival K)) : Prop :=
  ∀ before a later flags r₁ reliable r₂, as = before ++ a :: later →
    r.run before = .ok (flags, r₁) →
    r₁.handle a.broadcast a.rxTime a.now = .ok (reliable, r₂) →
    reliable = true ∨ r₂.outbox ≠ r₁.outbox →
    r.Referenced before a.source ∧ r₁.Calibrated a.source

/-- The packet comes from an anchor without a ratio and gives a candidate in the upper half of the
noise band around zero. -/
def NearZero (r : Receiver K) (a : Arrival K) : Prop :=
  ∃ ρ candidate, r.table.find? a.source = some ρ ∧ ρ.clock.isCalibrated = false ∧
    ratioCandidate? ρ a.broadcast.txTime a.rxTime = some candidate ∧
    0.0 ≤ candidate ∧ candidate < r.filter.acceptedNoise

instance (r : Receiver K) (id : AnchorId) : Decidable (r.Calibrated id) :=
  decidable_of_iff ((r.table.find? id).any (·.clock.isCalibrated) = true)
    (by simp [Calibrated, Option.any_eq_true])

instance (r : Receiver K) (a : Arrival K) : Decidable (r.NearZero a) :=
  decidable_of_iff ((r.table.find? a.source).any (fun ρ => !ρ.clock.isCalibrated &&
      (ratioCandidate? ρ a.broadcast.txTime a.rxTime).any fun candidate =>
        decide (0.0 ≤ candidate) && decide (candidate < r.filter.acceptedNoise)) = true)
    (by simp [NearZero, Option.any_eq_true])

/-- Only a packet with reliable timing leads to a measurement. -/
theorem reliable_of_outbox_ne {r : Receiver K} {a : Arrival K}
    (h : (r.after a).outbox ≠ r.outbox) : r.reliable a = true := by
  cases hmeasurement : r.measurement? a with
  | none => simp [hmeasurement] at h
  | some m =>
      obtain ⟨other, _, _, _, hpartner, -⟩ := measurement?_eq_some_iff.1 hmeasurement
      exact (partner?_spec hpartner).1

/-- The rule, with the receiver and the outcome filled in. -/
theorem reliableAfterReference_iff_reliable {r : Receiver K} (hsound : r.table.Sound)
    {as : List (Arrival K)} :
    r.ReliableAfterReference as ↔ ∀ before a later, as = before ++ a :: later →
      (r.afterAll before).reliable a = true →
      r.Referenced before a.source ∧ (r.afterAll before).Calibrated a.source := by
  constructor
  · intro h before a later has hreliable
    have hhandle := handle_eq (sound_afterAll hsound before).hasSlot a
    exact h before a later _ _ _ _ has (run_eq hsound before) hhandle (Or.inl hreliable)
  · intro h before a later flags r₁ reliable r₂ has hrun hhandle houtcome
    rw [run_eq hsound] at hrun
    cases hrun
    obtain ⟨-, rfl, rfl⟩ := eq_after_of_handle hhandle
    have hreliable := houtcome.elim id reliable_of_outbox_ne
    exact h before a later has hreliable

end Rule

/-! ## Over binary64 -/

section Standard

open Binary64

variable {r : Receiver Float} {id : AnchorId} {before during : List (Arrival Float)}
  {a : Arrival Float}

/-- No stored ratio is negative. -/
theorem nonneg_of_find? (hsound : r.table.Sound) (hfilter : r.filter = .standard)
    (hstart : r.table.find? id = none) {as : List (Arrival Float)} {ρ : Record Float}
    (hfind : (r.afterAll as).table.find? id = some ρ) : Nonneg ρ.clock.ratio := by
  apply nonneg_ratio_of_find? hsound _ _ hstart hfind
  · rw [hfilter]
    exact RatioFilter.valid_standard
  · rw [hfilter]
    exact RatioFilter.acceptedNoise_standard_le_one

theorem isCalibrated_eq_false_of_ratio {s : RatioState Float} (h : s.ratio = 0.0) :
    s.isCalibrated = false := by
  rw [RatioState.isCalibrated, h]
  decide

theorem ratio_eq_zero_of_isCalibrated {s : RatioState Float} (h : Nonneg s.ratio)
    (hfalse : s.isCalibrated = false) : s.ratio = 0.0 :=
  h.eq_zero_of_not_lt (of_decide_eq_false hfalse)

/-- On a clock without a ratio, the candidates near zero are the ones that are accepted. -/
theorem nearZero_iff (hfilter : r.filter = .standard) {ρ : Record Float}
    (hfind : r.table.find? a.source = some ρ) (hratio : ρ.clock.ratio = 0.0) :
    r.NearZero a ↔ r.reliable a = true := by
  have hzero : Nonneg ρ.clock.ratio := by
    rw [hratio]
    exact nonneg_zero
  rw [reliable_eq_true_iff, Table.sender_of_find? hfind, hfilter]
  constructor
  · rintro ⟨ρ', candidate, hfind', -, hcandidate, hlow, hhigh⟩
    obtain rfl : ρ = ρ' := Option.some.inj (hfind.symm.trans hfind')
    refine ⟨candidate, hcandidate, ?_⟩
    rcases ratioCandidate?_noRatio_or_nonneg hcandidate with rfl | hnonneg
    · exact absurd hlow (by decide)
    · rw [RatioFilter.accepts_of_ratio_eq_zero hratio hnonneg]
      rw [hfilter] at hhigh
      exact decide_eq_true hhigh
  · rintro ⟨candidate, hcandidate, haccepts⟩
    have hnonneg : Nonneg candidate := by
      refine (ratioCandidate?_noRatio_or_nonneg hcandidate).resolve_left ?_
      rintro rfl
      rw [RatioFilter.valid_standard.accepts_noRatio hzero
        RatioFilter.acceptedNoise_standard_le_one] at haccepts
      cases haccepts
    rw [RatioFilter.accepts_of_ratio_eq_zero hratio hnonneg] at haccepts
    refine ⟨ρ, candidate, hfind, isCalibrated_eq_false_of_ratio hratio, hcandidate,
      hnonneg.zero_le, ?_⟩
    rw [hfilter]
    exact of_decide_eq_true haccepts

/-- A packet that is not near zero and does not give a reference leaves a clock without a ratio as
it is. -/
theorem timing_ratio_eq_zero (hfilter : r.filter = .standard)
    (hratio : (r.table.sender a.source).clock.ratio = 0.0) (hfar : ¬ r.NearZero a)
    (hreference : ¬ r.TakesReference a) :
    ((r.table.sender a.source).timing r.filter a).2.ratio = 0.0 := by
  cases hcandidate : ratioCandidate? (r.table.sender a.source) a.broadcast.txTime a.rxTime with
  | none => rw [Record.timing, hcandidate, hratio]
  | some candidate =>
      have hfind := find?_of_ratioCandidate? hcandidate
      have haccepts : r.filter.accepts (r.table.sender a.source).clock candidate = false := by
        rw [nearZero_iff hfilter hfind hratio, reliable_eq_true_iff] at hfar
        exact Bool.eq_false_iff.2 fun htrue => hfar ⟨candidate, hcandidate, htrue⟩
      have htakes : r.filter.takesReference (r.table.sender a.source).clock candidate = false :=
        Bool.eq_false_iff.2 fun htrue => hreference ⟨_, candidate, hfind, hcandidate, htrue⟩
      simp only [Record.timing, hcandidate, RatioFilter.update_ratio, haccepts, htakes,
        Bool.false_eq_true, if_false, hratio]

/-- As long as no candidate near zero comes in, a clock without a reference has no ratio. -/
theorem ratio_eq_zero_of_stay (hsound : r.table.Sound) (hfilter : r.filter = .standard)
    (hstay : r.Stay id before during)
    (hfar : ∀ earlier a later, during = earlier ++ a :: later →
      ¬ (r.afterAll (before ++ earlier)).NearZero a)
    (hreference : ∀ earlier a later, during = earlier ++ a :: later → a.source = id →
      ¬ (r.afterAll (before ++ earlier)).TakesReference a) :
    ((r.afterAll (before ++ during)).table.sender id).clock.ratio = 0.0 := by
  induction during using List.reverseRecOn with
  | nil =>
      rw [hstay.sender_nil]
      rfl
  | append_singleton during a ih =>
      have hsplit : ∀ {earlier later : List (Arrival Float)} {b : Arrival Float},
          during = earlier ++ b :: later → during ++ [a] = earlier ++ b :: (later ++ [a]) := by
        rintro _ _ _ rfl
        simp
      have hbefore := ih hstay.of_append (fun _ _ _ h => hfar _ _ _ (hsplit h))
        (fun _ _ _ h => hreference _ _ _ (hsplit h))
      rw [hstay.sender_concat hsound]
      split
      · rename_i ha
        subst ha
        rw [Record.receive_clock, ← afterAll_filter r (before ++ during)]
        exact timing_ratio_eq_zero (by rw [afterAll_filter, hfilter]) hbefore (hfar _ _ _ rfl)
          (hreference _ _ _ rfl rfl)
      · exact hbefore

/-- With standard settings, the runs that keep the rule are the ones without a candidate near
zero. -/
theorem reliableAfterReference_iff {now : Millis} (hcreate : create .standard now = .ok r)
    (as : List (Arrival Float)) :
    r.ReliableAfterReference as ↔
      ∀ before a later, as = before ++ a :: later → ¬ (r.afterAll before).NearZero a := by
  have hsound := sound_of_create hcreate
  have hstart := find?_of_create hcreate
  have hfilter : r.filter = .standard := by
    obtain ⟨-, rfl⟩ := create_eq_ok_iff.1 hcreate
    rfl
  rw [reliableAfterReference_iff_reliable hsound]
  constructor
  · intro hrule before a later has hnear
    obtain ⟨ρ, candidate, hfind, hfalse, -⟩ := id hnear
    have hnonneg := nonneg_of_find? hsound hfilter (hstart a.source) hfind
    have hreliable := (nearZero_iff (by rw [afterAll_filter, hfilter]) hfind
      (ratio_eq_zero_of_isCalibrated hnonneg hfalse)).1 hnear
    obtain ⟨-, ρ', hfind', htrue⟩ := hrule before a later has hreliable
    obtain rfl : ρ = ρ' := Option.some.inj (hfind.symm.trans hfind')
    rw [hfalse] at htrue
    cases htrue
  · intro hfar before a later has hreliable
    have hfind := find?_of_reliable hreliable
    generalize hρ : (r.afterAll before).table.sender a.source = ρ at hfind
    have hcalibrated : ρ.clock.isCalibrated = true := by
      by_contra hnot
      have hratio := ratio_eq_zero_of_isCalibrated
        (nonneg_of_find? hsound hfilter (hstart a.source) hfind) (Bool.eq_false_iff.2 hnot)
      have hnear := (nearZero_iff (by rw [afterAll_filter, hfilter]) hfind hratio).2 hreliable
      exact hfar before a later has hnear
    refine ⟨?_, ρ, hfind, hcalibrated⟩
    obtain ⟨first, during, rfl, hstay, -⟩ :=
      exists_stay hsound (hstart a.source) (Option.isSome_iff_exists.2 ⟨ρ, hfind⟩)
    refine ⟨first, during, rfl, hstay, ?_⟩
    by_contra hnone
    have hratio := ratio_eq_zero_of_stay hsound hfilter hstay
      (by
        rintro earlier b rest rfl
        exact hfar (first ++ earlier) b (rest ++ a :: later) (by simp [has]))
      (by
        intro earlier b rest hduring hb htakes
        exact hnone ⟨earlier, b, rest, hduring, hb, htakes⟩)
    rw [hρ] at hratio
    rw [isCalibrated_eq_false_of_ratio hratio] at hcalibrated
    cases hcalibrated

/-- Anchor 1 sends every million ticks, and its clock is as fast as the tag's. -/
def steadyRun : List (Arrival Float) :=
  [⟨⟨⟨1⟩, 0, 0, [], none⟩, 5000000, 0⟩,
    ⟨⟨⟨1⟩, 1000000, 1, [], none⟩, 6000000, 10⟩,
    ⟨⟨⟨1⟩, 2000000, 2, [], none⟩, 7000000, 20⟩]

theorem reliableAfterReference_steadyRun : ∃ r, create Settings.standard 0 = .ok r ∧
    r.ReliableAfterReference steadyRun ∧ r.flags steadyRun = [false, false, true] := by
  refine ⟨fresh Settings.standard 0, create_standard 0, ?_, by decide +kernel⟩
  rw [reliableAfterReference_iff (create_standard 0)]
  intro before a later has
  match before with
  | [] =>
      obtain ⟨rfl, -⟩ := List.cons.inj has
      decide +kernel
  | [_] =>
      obtain ⟨rfl, hrest⟩ := List.cons.inj has
      obtain ⟨rfl, -⟩ := List.cons.inj hrest
      decide +kernel
  | [_, _] =>
      obtain ⟨rfl, hrest⟩ := List.cons.inj has
      obtain ⟨rfl, hlast⟩ := List.cons.inj hrest
      obtain ⟨rfl, -⟩ := List.cons.inj hlast
      decide +kernel
  | _ :: _ :: _ :: _ => simp [steadyRun] at has

/-- Anchor 2 sends once. Then anchor 1 sends twice, and between the two its counter advances by half
a period, but the tag's by one tick only. -/
def stalledRun : List (Arrival Float) :=
  [⟨⟨⟨2⟩, 100, 4, [], some ⟨0.0, 0.0, 0.0⟩⟩, 7500, 0⟩,
    ⟨⟨⟨1⟩, 1000, 2, [], some ⟨3.0, 0.0, 0.0⟩⟩, 8000, 5⟩,
    ⟨⟨⟨1⟩, 549755814888, 3, [⟨⟨2⟩, 549755814688, 4, 50⟩], some ⟨3.0, 0.0, 0.0⟩⟩, 8001, 10⟩]

/-- The second packet of anchor 1 counts as reliable and gives a measurement, with nothing to compare
its timing to. -/
theorem not_reliableAfterReference_stalledRun : ∃ r, create Settings.standard 0 = .ok r ∧
    ¬ r.ReliableAfterReference stalledRun ∧ r.flags stalledRun = [false, false, true] ∧
    (r.afterAll stalledRun).outbox.length = 1 := by
  refine ⟨fresh Settings.standard 0, create_standard 0, ?_, by decide +kernel, by decide +kernel⟩
  rw [reliableAfterReference_iff_reliable (sound_of_create (create_standard 0))]
  intro hrule
  have hcalibrated := (hrule [_, _] _ [] rfl (by decide +kernel)).2
  revert hcalibrated
  decide +kernel

end Standard

end Receiver

end Ranging

import Ranging.Proofs.FilterRun
import Ranging.Proofs.Reference

/-!
# A packet without elapsed ticks

A packet that is delivered twice, or one that its anchor sent a whole period of its counter after
the one before, has a transmit time in which no ticks seem to have passed. No ratio can be formed
then, and what stands for none goes through the clock filter as a candidate.

It is turned down there in every state that a run can lead to, provided the noise band is no wider
than one (`Receiver.repeated_packet_dropped`). All that such a packet can do to its anchor's clock
is to drain the bucket by one.
-/

namespace Ranging

open Binary64

namespace RatioFilter

/-- No ticks have passed between two readings that agree modulo the counter's period. -/
theorem candidate_eq_noRatio {K : Type} [Scalar K] {newReference oldReference : UInt64}
    {last tx : Ticks} (h : tx.toInt ≡ last.toInt [ZMOD 2 ^ 40]) :
    candidate newReference oldReference tx.toUInt64 last.toUInt64 Ticks.counterMask =
      (noRatio : K) := by
  have helapsed : Ticks.elapsed last tx = 0 := by
    apply Int64.toInt_inj.1
    apply Ticks.toInt_elapsed_of_modEq _ (le_refl 0) (by decide)
    rw [sub_zero]
    exact h.symm
  have hnone : (tx.toUInt64 - last.toUInt64) &&& Ticks.counterMask = 0 := by
    rw [Ticks.sub_and_counterMask, helapsed]
    rfl
  exact if_pos hnone

/-- What stands for no ratio drains the bucket and does nothing else. -/
theorem Valid.update_noRatio {f : RatioFilter Float} (hvalid : f.Valid)
    (hnoise : f.acceptedNoise ≤ 1.0) {s : RatioState Float} (hratio : Nonneg s.ratio) :
    f.update s noRatio = (false, { s with bucket := s.bucket - 1 }) := by
  have haccepts := hvalid.accepts_noRatio hratio hnoise
  apply Prod.ext
  · exact (update_fst ..).trans haccepts
  · rcases Nat.eq_zero_or_pos s.bucket with hzero | hpos
    · rw [update_of_bucket_zero haccepts hzero, hvalid.inBounds_noRatio, if_neg Bool.false_ne_true,
        hzero]
      show s = ⟨s.ratio, 0⟩
      rw [← hzero]
    · exact update_of_bucket_pos haccepts hpos

end RatioFilter

/-- So does a packet whose transmit time agrees with the stored one. -/
theorem Record.timing_repeated {f : RatioFilter Float} (hvalid : f.Valid)
    (hnoise : f.acceptedNoise ≤ 1.0) {ρ : Record Float} (hratio : Nonneg ρ.clock.ratio)
    {lastRx lastTx : Ticks} (hrx : ρ.rxTime = some lastRx) (htx : ρ.txTime = some lastTx)
    {a : Arrival Float} (hsame : a.broadcast.txTime.toInt ≡ lastTx.toInt [ZMOD 2 ^ 40]) :
    ρ.timing f a = (false, { ρ.clock with bucket := ρ.clock.bucket - 1 }) := by
  rw [timing, Receiver.ratioCandidate?, hrx, htx]
  simp only [bind, Option.bind, pure]
  rw [RatioFilter.candidate_eq_noRatio hsame]
  exact hvalid.update_noRatio hnoise hratio

namespace Receiver

variable {s : Settings Float} {now : Millis} {r : Receiver Float}

/-- In every state of a receiver whose noise band is no wider than one, no stored ratio is negative,
and a packet of a stored anchor whose transmit time agrees with the stored one modulo the counter's
period is dropped: its timing is not reliable, it sends nothing, it leaves the anchor's ratio alone
and takes one from the bucket, if there is any. -/
theorem repeated_packet_dropped (hcreate : create s now = .ok r)
    (hnoise : s.filter.acceptedNoise ≤ 1.0) {as : List (Arrival Float)} {flags : List Bool}
    {q : Receiver Float} (hrun : r.run as = .ok (flags, q)) :
    (∀ id ρ, q.table.find? id = some ρ → 0.0 ≤ ρ.clock.ratio) ∧
    ∀ (a : Arrival Float) ρ, q.table.find? a.source = some ρ →
      ∃ last, ρ.txTime = some last ∧ (a.broadcast.txTime.toInt ≡ last.toInt [ZMOD 2 ^ 40] →
        ∃ q', q.handle a.broadcast a.rxTime a.now = .ok (false, q') ∧ q'.outbox = q.outbox ∧
          ∃ ρ', q'.table.find? a.source = some ρ' ∧ ρ'.clock.ratio = ρ.clock.ratio ∧
            ρ'.clock.bucket = ρ.clock.bucket - 1) := by
  have hsound := sound_of_create hcreate
  obtain ⟨hfilter, hvalid⟩ := filter_of_create hcreate
  rw [← hfilter] at hnoise
  obtain ⟨-, rfl⟩ := eq_of_run hsound hrun
  have hnonneg : ∀ id ρ, (r.afterAll as).table.find? id = some ρ → Nonneg ρ.clock.ratio := by
    intro id ρ
    exact nonneg_ratio_of_find? hsound hvalid hnoise (find?_of_create hcreate id)
  constructor
  · intro id ρ hfind
    exact (hnonneg id ρ hfind).zero_le
  · intro a ρ hfind
    obtain ⟨lastPacket, -, hrx, htx, -⟩ :=
      last_packet_of_find? hsound (find?_of_create hcreate a.source) hfind
    refine ⟨_, htx, ?_⟩
    intro hsame
    have hslot := (sound_afterAll hsound as).hasSlot
    have hsender := Table.sender_of_find? hfind
    have htiming := Record.timing_repeated hvalid hnoise (hnonneg _ _ hfind) hrx htx hsame
    rw [← afterAll_filter r as] at htiming
    have hreliable : (r.afterAll as).reliable a = false := by
      rw [reliable, hsender, htiming]
    refine ⟨(r.afterAll as).after a, ?_, ?_, _, find?_after_self hslot a, ?_⟩
    · rw [handle_eq hslot, hreliable]
    · by_contra hsent
      rw [reliable_of_outbox_ne hsent] at hreliable
      cases hreliable
    · rw [hsender, Record.receive_clock, htiming]
      exact ⟨rfl, rfl⟩

/-- The steady run's last packet comes in once more. -/
def repeated : Arrival Float :=
  ⟨⟨⟨1⟩, 2000000, 2, [], none⟩, 7000000, 20⟩

/-- The first time its timing was reliable. The second time it is dropped, and takes back what it
had put into the bucket. -/
theorem repeated_packet_dropped_steadyRun : ∃ r q q' : Receiver Float,
    create Settings.standard 0 = .ok r ∧ steadyRun.getLast? = some repeated ∧
    r.run steadyRun = .ok ([false, false, true], q) ∧
    q.handle repeated.broadcast repeated.rxTime repeated.now = .ok (false, q') ∧
    q'.outbox = q.outbox ∧ (q.table.find? ⟨1⟩).map (·.clock.bucket) = some 1 ∧
    (q'.table.find? ⟨1⟩).map (·.clock.bucket) = some 0 := by
  have hcreate := create_standard 0
  have hrun : (fresh Settings.standard 0).run steadyRun = .ok ([false, false, true],
      (fresh Settings.standard 0).afterAll steadyRun) := by
    have hflags : (fresh Settings.standard 0).flags steadyRun = [false, false, true] := by
      decide +kernel
    rw [run_eq (sound_of_create hcreate), hflags]
  obtain ⟨-, hdropped⟩ :=
    repeated_packet_dropped hcreate RatioFilter.acceptedNoise_standard_le_one hrun
  have hbucket : (((fresh Settings.standard 0).afterAll steadyRun).table.find? ⟨1⟩).map
      (·.clock.bucket) = some 1 := by decide +kernel
  have htx : (((fresh Settings.standard 0).afterAll steadyRun).table.find? ⟨1⟩).bind
      (·.txTime) = some 2000000 := by decide +kernel
  obtain ⟨ρ, hfind, hone⟩ := Option.map_eq_some_iff.1 hbucket
  rw [hfind, Option.bind_some] at htx
  obtain ⟨last, hlast, hdrop⟩ := hdropped repeated ρ hfind
  obtain rfl : 2000000 = last := Option.some.inj (htx.symm.trans hlast)
  obtain ⟨q', hhandle, houtbox, ρ', hfind', -, hzero⟩ := hdrop rfl
  rw [hone] at hzero
  refine ⟨_, _, q', hcreate, rfl, hrun, hhandle, houtbox, hbucket, ?_⟩
  exact Option.map_eq_some_iff.2 ⟨ρ', hfind', hzero⟩

end Receiver

end Ranging

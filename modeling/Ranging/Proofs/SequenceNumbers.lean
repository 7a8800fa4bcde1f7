import Mathlib.Algebra.Order.Floor.Div
import Ranging.Proofs.Lossless
import Ranging.Proofs.UnitInterval
import Ranging.Random.Draw

/-!
# Sequence numbers on both sides

Stations count their packets in seven bits and note the numbers of others, and the tag stores the
number of the last packet that it has received from each. In a simulation whose losses have
probability zero, all of these are in agreement at any time, however often the counters have started
over: a draw from zero up to one is never below zero, so that no packet is lost.
-/

open Float.Model

namespace Ranging

namespace Binary64

/-- A number from zero on is a zero, infinity, or above zero. -/
theorem cases_of_zero_le {x : Float} (h : 0.0 ≤ x) :
    (∃ s, x.toModel.unpack = .zero s) ∨ x.toModel.unpack = .infinity .positive ∨ Positive x := by
  rw [le_iff, unpack_zero] at h
  cases hx : x.toModel.unpack with
  | notANumber =>
      rw [hx] at h
      cases h
  | infinity s =>
      rw [hx] at h
      cases s with
      | positive => exact Or.inr (Or.inl rfl)
      | negative => cases h
  | zero s => exact Or.inl ⟨s, rfl⟩
  | finite s m e hm =>
      rw [hx] at h
      cases s with
      | positive => exact Or.inr (Or.inr ⟨m, e, hm, hx⟩)
      | negative => cases h

/-- No such number is below one that is at most zero. -/
theorem not_lt_of_zero_le {x y : Float} (hx : 0.0 ≤ x) (hy : y ≤ 0.0) : ¬ x < y := by
  rw [le_iff, unpack_zero] at hy
  rw [lt_iff]
  generalize y.toModel.unpack = y at hy
  obtain ⟨s, hx⟩ | hx | ⟨m, e, hm, hx⟩ := cases_of_zero_le hx <;> rw [hx] <;> cases y with
  | notANumber => cases hy
  | infinity t =>
      cases t with
      | positive => cases hy
      | negative => nofun
  | zero t => nofun
  | finite t m' e' hm' =>
      cases t with
      | positive => cases hy
      | negative => nofun

end Binary64

open Binary64

namespace ChaCha

theorem positive_ulp : Positive ulp :=
  ⟨2 ^ 52, -105, by decide, rfl⟩

/-- A number from zero up to one is not negative. -/
theorem zero_le_unit (g : ChaCha) : 0.0 ≤ g.unit.1 := by
  have hlt : (g.next.1 >>> 11).toNat < 2 ^ 53 := by
    have hword := g.next.1.toNat_lt
    rw [UInt64.toNat_shiftRight, Nat.shiftRight_eq_div_pow]
    change g.next.1.toNat / 2 ^ 11 < 2 ^ 53
    omega
  exact ((nonneg_ofNat hlt).mul positive_ulp).zero_le

end ChaCha

namespace World

/-- After any number of slots of a simulation that could be set up, all sequence numbers are in
agreement. Station number `i` has sent once in every round from slot `i` on, and its next packet has
the number of those, modulo 128. Every other station has noted the number of its latest packet, and
nothing before there is one. If no packets are lost, the tag has stored the same number, and every
report that it is handed is on the packet of the neighbour that it has stored, and still has when it
looks for a partner. Of the draws it is only asked that none from zero up to one is below zero. -/
theorem sequence_numbers_agree {σ : Type} [NoiseSource σ Float]
    (hunit : ∀ g : σ, 0.0 ≤ (NoiseSource.unit g).1) {s : Setup Float} {w : World σ Float}
    (hcreate : create s = .ok w) (m : Nat) :
    let n := s.anchorCount
    let v := (w.steps m).2
    v.ids = (List.range n).map (AnchorId.advance ⟨s.firstId⟩) ∧
    (∀ i station, v.stations[i]? = some station →
      let sent := sentBy station.id (w.broadcasts m)
      sent.length = (m - i) ⌈/⌉ n ∧ station.sequence.toNat = sent.length % 128 ∧
      (∀ j other, v.stations[j]? = some other → j ≠ i → ∃ latest, other.heard[i]? = some latest ∧
        latest.map (·.sequence) = sent.getLast?.map (·.sequence)) ∧
      (s.packetLoss ≤ 0.0 → (v.receiver.table.find? station.id).map (·.sequence) =
        sent.getLast?.map (·.sequence))) ∧
    (s.packetLoss ≤ 0.0 → ∃ a, v.delivery? = some a ∧ v.broadcast? = some a.broadcast ∧
      ∀ report ∈ a.broadcast.reports, ∃ ρ, v.receiver.table.find? report.neighbour = some ρ ∧
        (v.receiver.preparedTable a).find? report.neighbour = some ρ ∧
        ρ.sequence = report.sequence) := by
  intro n v
  have hne := (Running.of_create hcreate).stations_ne_nil
  have hids : v.ids = w.ids := steps_ids w m
  have hagree : v.Agree (w.broadcasts m) := (Agree.of_create hcreate).steps hne m
  have hattended : s.packetLoss ≤ 0.0 → w.Attended := by
    intro hloss
    exact Attended.of_create hcreate fun g => not_lt_of_zero_le (hunit g) hloss
  have htracks : s.packetLoss ≤ 0.0 → v.Tracks (w.broadcasts m) := by
    intro hloss
    exact (Tracks.of_create hcreate).steps (hattended hloss) (Agree.of_create hcreate) m
  refine ⟨hids.trans (ids_of_create hcreate), ?_, ?_⟩
  · intro i station hi sent
    refine ⟨?_, hagree.sequence hi, fun j other hj hji => hagree.heard hi hj hji,
      fun hloss => htracks hloss i station hi⟩
    have hid : w.ids[i]? = some station.id := by
      rw [← hids, ids, List.getElem?_map, hi, Option.map_some]
    have hcount : 0 < n := by
      have hvalid := (create_eq_ok_iff.1 hcreate).1.anchorCount.1
      omega
    have hlength := length_sentBy_broadcasts (slot_of_create hcreate) (nodup_ids_of_create hcreate)
      hid m
    rw [length_stations_of_create hcreate] at hlength
    rw [Nat.ceilDiv_eq_add_pred_div, Nat.add_sub_assoc hcount]
    exact hlength
  · intro hloss
    obtain ⟨sender, hsender⟩ := exists_sender (steps_stations_ne_nil hne m)
    obtain ⟨a, hdelivery, hbroadcast, hreports⟩ :=
      ((hattended hloss).steps m).exists_reported hagree (htracks hloss) hsender
    exact ⟨a, hdelivery, by rw [broadcast?_eq hsender, hbroadcast], hreports⟩

/-- Two anchors, the second of which has an identifier that starts over. -/
def wrappedSetup : Setup Float :=
  { Setup.standard with anchorCount := 2, firstId := 255 }

/-- After 300 slots both have sent 150 packets, and both counters have started over. -/
theorem sequence_numbers_agree_wrappedSetup : ∃ w : World ChaCha Float,
    create wrappedSetup = .ok w ∧ (w.steps 300).2.ids = [⟨255⟩, ⟨0⟩] ∧
    (∀ (i : Nat) (station : Station Float), (w.steps 300).2.stations[i]? = some station →
      (sentBy station.id (w.broadcasts 300)).length = 150 ∧ station.sequence = 22) ∧
    (w.steps 300).2.delivery?.isSome = true := by
  have hcreate : create wrappedSetup = .ok (fresh wrappedSetup : World ChaCha Float) :=
    create_eq_ok_iff.2 ⟨Setup.validate_eq_ok_iff.1 rfl, rfl, Settings.validate_eq_ok_iff.1 rfl, rfl⟩
  have hlist : (List.range wrappedSetup.anchorCount).map
      (AnchorId.advance ⟨wrappedSetup.firstId⟩) = [⟨255⟩, ⟨0⟩] := by decide
  obtain ⟨hids, hstations, hreports⟩ := sequence_numbers_agree ChaCha.zero_le_unit hcreate 300
  obtain ⟨a, hdelivery, -⟩ := hreports (by decide)
  refine ⟨_, hcreate, hids.trans hlist, ?_, Option.isSome_iff_exists.2 ⟨a, hdelivery⟩⟩
  intro i station hi
  obtain ⟨hlength, hsequence, -⟩ := hstations i station hi
  obtain ⟨hlt, -⟩ := List.getElem?_eq_some_iff.1 hi
  rw [length_steps_stations, length_stations_of_create hcreate] at hlt
  have hshare : (300 - i) ⌈/⌉ wrappedSetup.anchorCount = 150 := by
    rw [Nat.ceilDiv_eq_add_pred_div]
    change i < 2 at hlt
    change (300 - i + 2 - 1) / 2 = 150
    omega
  rw [hshare] at hlength
  rw [hlength] at hsequence
  exact ⟨hlength, UInt8.toNat_inj.1 hsequence⟩

end World

end Ranging

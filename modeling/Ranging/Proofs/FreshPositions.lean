import Mathlib.Tactic.Linarith
import Ranging.Decimal.Binary
import Ranging.Proofs.ExactArithmetic
import Ranging.Proofs.Lossless
import Ranging.Proofs.Millis
import Ranging.Proofs.Rounding
import Ranging.Random.Draw

/-!
# Positions that stay fresh

A station sends its position with its first packet, and then with every packet for which a whole
period has passed since the last time. The tag stores it with the time of the slot, in whole
milliseconds, and uses it until the window for positions has passed.

If no packet is lost, what the tag has stored for a station is where the station is, as of the time
when it last sent its position (`World.Located`). This is less than a period before its latest packet
(`World.Scheduled`), and the latest packet of a station is at most one round old. So a window of one
period, one round and one millisecond, for the fractions that are cut off, is enough: with exact
times no position is ever too old, from the end of the first round on.
-/

namespace Ranging

/-- A stored position is found as long as it is fresh. -/
theorem Receiver.anchorPosition?_eq_some {K : Type} {r : Receiver K} {id : AnchorId} {now : Millis}
    {p : Stamped (Point K)} (h : (r.table.find? id).bind (·.position) = some p)
    (hfresh : Millis.isFresh p.written r.table.windows.position now = true) :
    r.anchorPosition? id now = some p := by
  obtain ⟨ρ, hρ, hp⟩ := Option.bind_eq_some_iff.1 h
  have hrecord : r.anchorPosition? id now =
      (r.table.find? id).bind (·.freshPosition? r.table.windows now) := by
    rw [anchorPosition?, Table.get?, Table.find?_eq_bind]
    cases r.table.slot? id <;> rfl
  rw [hrecord, hρ, Option.bind_some, Record.freshPosition?, hp, Option.filter_some, if_pos hfresh]

theorem Scene.length_ring {K : Type} [Analytic K] (count : Nat) (radius height : K) :
    (ring count radius height).length = count := by
  rw [ring, List.length_map, List.length_range]

/-- The time of a slot, in seconds. -/
def Setup.slotTime {K : Type} [Scalar K] (s : Setup K) (slot : Nat) : K :=
  Scalar.ofNat slot * s.slotPeriod

/-- Some slot of the last round was that of station number `i`. -/
theorem exists_latest {n i m : Nat} (hi : i < n) (hm : n ≤ m) :
    ∃ l < m, l % n = i ∧ m ≤ l + n := by
  have hle := Nat.mul_div_le (m - 1 - i) n
  have hlt := Nat.lt_mul_div_succ (m - 1 - i) (Nat.zero_lt_of_lt hi)
  rw [Nat.mul_succ] at hlt
  refine ⟨i + n * ((m - 1 - i) / n), by omega, ?_, by omega⟩
  rw [Nat.add_mul_mod_self_left, Nat.mod_eq_of_lt hi]

namespace World

variable {σ K : Type} [Analytic K] [NoiseSource σ K]

/-! ## What the tag has stored -/

/-- What a station has last told about its position: where it is, as of the time when it did so. -/
def told (w : World σ K) (i : Nat) (station : Station K) : Option (Stamped (Point K)) := do
  let t ← station.lastPosition
  let p ← w.scene.anchors[i]?
  return ⟨p, Scalar.toHalfWord (t * 1000.0)⟩

/-- For every station the tag has stored what it has last told about its position. -/
def Located (w : World σ K) : Prop :=
  ∀ (i : Nat) (station : Station K), w.stations[i]? = some station →
    (w.receiver.table.find? station.id).bind (·.position) = w.told i station

/-- At the start nobody has told anything. -/
theorem Located.of_create {s : Setup K} {w : World σ K} (h : create s = .ok w) : w.Located := by
  intro i station hi
  rw [told, (blank_of_create h (List.mem_of_getElem? hi)).lastPosition]
  obtain ⟨-, -, -, rfl⟩ := create_eq_ok_iff.1 h
  rfl

omit [NoiseSource σ K] in
/-- Only a place that a station has is told. -/
theorem told_eq_none {w : World σ K} {i : Nat} (h : w.scene.anchors[i]? = none)
    (station : Station K) : w.told i station = none := by
  rw [told, h]
  cases station.lastPosition <;> rfl

omit [NoiseSource σ K] in
/-- What a station tells in its next packet replaces what it told before. -/
theorem told_afterTransmission (w : World σ K) (sender : Station K) :
    w.told w.turn (w.afterTransmission sender) =
      match (w.packet sender).position with
      | some p => some ⟨p, Scalar.toHalfWord (w.time * 1000.0)⟩
      | none => w.told w.turn sender := by
  rw [packet, told, afterTransmission]
  cases hdue : w.positionDue sender w.time with
  | false => rfl
  | true =>
      cases hplace : w.scene.anchors[w.turn]? with
      | none => exact (told_eq_none hplace sender).symm
      | some p => rfl

/-- What a slot preserves. -/
theorem Located.step {w : World σ K} (h : w.Located) (hattended : w.Attended) :
    w.step.2.Located := by
  obtain ⟨sender, hsender⟩ := exists_sender hattended.running.stations_ne_nil
  obtain ⟨a, -, hbroadcast, hnow, -, hfind⟩ := hattended.step_eq hsender
  have htold : w.step.2.told = w.told := by
    unfold told
    rw [step_scene]
    rfl
  intro i station hi
  rw [htold]
  obtain ⟨rfl, rfl⟩ | ⟨hturn, old, time, hold, rfl⟩ := station_cases hsender hi
  · have hstored : (w.receiver.table.sender sender.id).position = w.told w.turn sender := by
      rw [← h w.turn sender hsender, Table.sender]
      cases w.receiver.table.find? sender.id <;> rfl
    have hid : (w.afterTransmission sender).id = sender.id := rfl
    rw [told_afterTransmission, hfind, if_pos hid, Option.bind_some, Record.receive_eq, hbroadcast,
      hnow, ← hstored]
    rfl
  · have hne := id_ne hattended.ids_nodup hold hsender hturn
    rw [hfind, if_neg hne]
    exact h i old hold

/-- What a run preserves. -/
theorem Located.steps {w : World σ K} (h : w.Located) (hattended : w.Attended) (m : Nat) :
    (w.steps m).2.Located := by
  have hboth := steps_induction (P := fun v => v.Located ∧ v.Attended)
    (fun _ hv => ⟨hv.1.step hv.2, hv.2.step⟩) ⟨h, hattended⟩ m
  exact hboth.1

/-! ## When positions are sent -/

/-- Positions are sent in the slots that have passed. The latest packet of a station, in slot `l`,
carried its position unless less than a period had passed since the one that did. -/
structure Scheduled (w : World σ K) : Prop where
  sent : ∀ {i : Nat} {station : Station K} {t : K}, w.stations[i]? = some station →
    station.lastPosition = some t → ∃ l < w.slot, t = w.setup.slotTime l
  due : ∀ {i l : Nat} {station : Station K}, w.stations[i]? = some station →
    l % w.stations.length = i → l < w.slot → w.slot ≤ l + w.stations.length →
    ∃ last ≤ l, station.lastPosition = some (w.setup.slotTime last) ∧
      (last = l ∨ ¬ w.setup.positionPeriod ≤ w.setup.slotTime l - w.setup.slotTime last)

/-- No slot has passed at the start. -/
theorem Scheduled.of_create {s : Setup K} {w : World σ K} (h : create s = .ok w) :
    w.Scheduled where
  sent := by
    intro i station t hi ht
    rw [(blank_of_create h (List.mem_of_getElem? hi)).lastPosition] at ht
    cases ht
  due := by
    intro i l station hi hl hlt
    rw [slot_of_create h] at hlt
    cases hlt

omit [NoiseSource σ K] in
/-- When it has transmitted, a station has just sent its position, or it was not due yet. -/
theorem lastPosition_afterTransmission (w : World σ K) (sender : Station K) :
    (w.afterTransmission sender).lastPosition = some w.time ∨
      ∃ t, sender.lastPosition = some t ∧ ¬ w.setup.positionPeriod ≤ w.time - t ∧
        (w.afterTransmission sender).lastPosition = some t := by
  cases hlast : sender.lastPosition with
  | none =>
      left
      rw [afterTransmission, positionDue, hlast]
      rfl
  | some t =>
      rw [afterTransmission, positionDue, hlast]
      by_cases hdue : w.setup.positionPeriod ≤ w.time - t
      · exact .inl (if_pos (decide_eq_true hdue))
      · exact .inr ⟨t, rfl, hdue, if_neg (by simp [hdue])⟩

/-- What a slot preserves. -/
theorem Scheduled.step {w : World σ K} (h : w.Scheduled) (hne : w.stations ≠ []) :
    w.step.2.Scheduled := by
  obtain ⟨sender, hsender⟩ := exists_sender hne
  have htransmission := w.lastPosition_afterTransmission sender
  constructor
  · intro i station t hi ht
    rw [step_slot hne, step_setup]
    have hbefore : ∀ {j : Nat} {old : Station K}, w.stations[j]? = some old →
        old.lastPosition = some t → ∃ l < w.slot + 1, t = w.setup.slotTime l := by
      intro j old hold hlast
      obtain ⟨l, hlt, hl⟩ := h.sent hold hlast
      exact ⟨l, hlt.trans (Nat.lt_succ_self _), hl⟩
    obtain ⟨-, rfl⟩ | ⟨-, old, time, hold, rfl⟩ := station_cases hsender hi
    · obtain hnow | ⟨last, hlast, -, hkept⟩ := htransmission
      · exact ⟨w.slot, Nat.lt_succ_self _, Option.some.inj (ht.symm.trans hnow)⟩
      · exact hbefore hsender (hlast.trans (hkept.symm.trans ht))
    · exact hbefore hold ht
  · intro i l station hi hl hlt hle
    rw [length_step_stations] at hl hle
    rw [step_slot hne] at hlt hle
    rw [step_setup]
    obtain ⟨hturn, rfl⟩ | ⟨hturn, old, time, hold, rfl⟩ := station_cases hsender hi
    · -- The packet of this slot is the latest one.
      obtain rfl : l = w.slot := by
        have hround : w.stations.length ∣ w.slot - l :=
          Nat.dvd_of_mod_eq_zero (Nat.sub_mod_eq_zero_of_mod_eq (hturn.symm.trans hl.symm))
        have hsame := Nat.eq_zero_of_dvd_of_lt hround (by omega)
        omega
      obtain hnow | ⟨last, hlast, hsoon, hkept⟩ := htransmission
      · exact ⟨w.slot, le_rfl, hnow, .inl rfl⟩
      · obtain ⟨l, hless, rfl⟩ := h.sent hsender hlast
        exact ⟨l, hless.le, hkept, .inr hsoon⟩
    · have hother : l ≠ w.slot := by
        rintro rfl
        exact hturn hl.symm
      obtain ⟨last, hless, hlast, hsoon⟩ := h.due hold hl (by omega) (by omega)
      exact ⟨last, hless, hlast, hsoon⟩

/-- What a run preserves. -/
theorem Scheduled.steps {w : World σ K} (h : w.Scheduled) (hne : w.stations ≠ []) (m : Nat) :
    (w.steps m).2.Scheduled := by
  have hboth := steps_induction (P := fun v => v.Scheduled ∧ v.stations ≠ [])
    (fun _ hv => ⟨hv.1.step hv.2, perform_stations_ne_nil hv.2 .step⟩) ⟨h, hne⟩ m
  exact hboth.1

/-! ## What does not change -/

theorem steps_anchors (w : World σ K) (m : Nat) :
    (w.steps m).2.scene.anchors = w.scene.anchors := by
  refine steps_induction (P := fun v => v.scene.anchors = w.scene.anchors) ?_ rfl m
  intro v hv
  rw [step_scene]
  exact hv

theorem step_windows {w : World σ K} (h : w.Running) :
    w.step.2.receiver.table.windows = w.receiver.table.windows := by
  rw [step_receiver]
  split
  · rfl
  · rw [Receiver.handed_eq h.sound.hasSlot]
    exact Receiver.after_windows ..

theorem Attended.steps_windows {w : World σ K} (h : w.Attended) (m : Nat) :
    (w.steps m).2.receiver.table.windows = w.receiver.table.windows := by
  have hboth := steps_induction
    (P := fun v => v.Attended ∧ v.receiver.table.windows = w.receiver.table.windows)
    (fun _ hv => ⟨hv.1.step, (step_windows hv.1.running).trans hv.2⟩) ⟨h, rfl⟩ m
  exact hboth.2

theorem setup_of_create {s : Setup K} {w : World σ K} (h : create s = .ok w) : w.setup = s := by
  obtain ⟨-, -, -, rfl⟩ := create_eq_ok_iff.1 h
  rfl

theorem windows_of_create {s : Setup K} {w : World σ K} (h : create s = .ok w) :
    w.receiver.table.windows = s.settings.windows := by
  obtain ⟨-, -, -, rfl⟩ := create_eq_ok_iff.1 h
  rfl

theorem length_anchors_of_create {s : Setup K} {w : World σ K} (h : create s = .ok w) :
    w.scene.anchors.length = s.anchorCount := by
  obtain ⟨-, -, -, rfl⟩ := create_eq_ok_iff.1 h
  exact Scene.length_ring ..

/-! ## The position that is found for a station -/

/-- After `k` slots, of which the first were a whole round, a station is found where it is. This takes
for granted that its position is fresh: it was sent in some slot `last`, and was not due again in slot
`l`, which was one of the last round. -/
theorem anchorPosition?_steps {s : Setup K} {w : World σ K} (hcreate : create s = .ok w)
    (hattended : w.Attended) {k : Nat} (hround : s.anchorCount ≤ k) {i : Nat} {id : AnchorId}
    {p : Point K} (hid : w.ids[i]? = some id) (hp : w.scene.anchors[i]? = some p) {now : Millis}
    (hfresh : ∀ {last l : Nat}, last ≤ l → l < k → k ≤ l + s.anchorCount →
      (last = l ∨ ¬ s.positionPeriod ≤ s.slotTime l - s.slotTime last) →
      Millis.isFresh (Scalar.toHalfWord (s.slotTime last * 1000.0))
        s.settings.windows.position now = true) :
    ((w.steps k).2.receiver.anchorPosition? id now).map (·.value) = some p := by
  have hne := hattended.running.stations_ne_nil
  have hscheduled := (Scheduled.of_create hcreate).steps hne k
  have hlocated := (Located.of_create hcreate).steps hattended k
  have hlength : (w.steps k).2.stations.length = s.anchorCount := by
    rw [length_steps_stations, length_stations_of_create hcreate]
  have hslot : (w.steps k).2.slot = k := by
    rw [steps_slot hne, slot_of_create hcreate, Nat.zero_add]
  have hsetup : (w.steps k).2.setup = s := by
    rw [steps_setup, setup_of_create hcreate]
  have hwindows : (w.steps k).2.receiver.table.windows = s.settings.windows := by
    rw [hattended.steps_windows, windows_of_create hcreate]
  rw [← steps_ids w k, ids, List.getElem?_map] at hid
  rw [← steps_anchors w k] at hp
  obtain ⟨station, hstation, rfl⟩ := Option.map_eq_some_iff.1 hid
  obtain ⟨hlt, -⟩ := List.getElem?_eq_some_iff.1 hstation
  rw [hlength] at hlt
  obtain ⟨l, hl, hmod, hle⟩ := exists_latest hlt hround
  obtain ⟨last, hlast, hsent, hage⟩ := hscheduled.due hstation (by rwa [hlength]) (by rwa [hslot])
    (by rwa [hslot, hlength])
  rw [hsetup] at hsent hage
  have hstored : ((w.steps k).2.receiver.table.find? station.id).bind (·.position) =
      some ⟨p, Scalar.toHalfWord (s.slotTime last * 1000.0)⟩ := by
    rw [hlocated i station hstation, told, hsent, hp]
    rfl
  have hfound := Receiver.anchorPosition?_eq_some hstored
    (hwindows ▸ hfresh hlast hl hle hage)
  rw [hfound, Option.map_some]

end World

/-! ## Exact times -/

section Exact

variable {K : Type} [Field K] [LinearOrder K] [IsStrictOrderedRing K] [FloorRing K]

omit [IsStrictOrderedRing K] in
/-- The millisecond clock shows a time without its fraction. -/
theorem toHalfWord_eq {x : K} (hlt : x < 2 ^ 32) :
    Scalar.toHalfWord x = Millis.ofTime ⌊x⌋.toNat := by
  have hfloor : ⌊x⌋ < 2 ^ 32 := Int.floor_lt.2 (by exact_mod_cast hlt)
  have hle : ⌊x⌋.toNat ≤ UInt32.size - 1 := by
    change ⌊x⌋.toNat ≤ 2 ^ 32 - 1
    omega
  exact congrArg UInt32.ofNat (Nat.min_eq_left hle)

/-- What was written at least a millisecond less than a window ago is fresh, whatever the fractions
are that are cut off. -/
theorem isFresh_toHalfWord {x y : K} (hy : 0 ≤ y) (hle : y ≤ x) (hlt : x < 2 ^ 32) {window : Millis}
    (hwindow : x - y + 1 ≤ window.toNat) :
    Millis.isFresh (Scalar.toHalfWord y) window (Scalar.toHalfWord x) = true := by
  have hfloors : ⌊y⌋ ≤ ⌊x⌋ := Int.floor_le_floor hle
  have hzero : 0 ≤ ⌊y⌋ := Int.floor_nonneg.2 hy
  have hbound : ⌊x⌋ < 2 ^ 32 := Int.floor_lt.2 (by exact_mod_cast hlt)
  have hage : ⌊x⌋ - ⌊y⌋ < window.toNat := by
    have hlow := Int.lt_floor_add_one y
    have hhigh := Int.floor_le x
    have hless : ((⌊x⌋ - ⌊y⌋ : ℤ) : K) < window.toNat := by
      push_cast
      linarith
    exact_mod_cast hless
  rw [toHalfWord_eq hlt, toHalfWord_eq (hle.trans_lt hlt),
    Millis.isFresh_ofTime (by omega) (by omega)]
  omega

omit [IsStrictOrderedRing K] in
theorem Setup.slotTime_eq (s : Setup K) (slot : Nat) : s.slotTime slot = slot * s.slotPeriod := rfl

/-- A window of a period, `n` slots and a millisecond is enough for a position that was sent in slot
`last`, and was not due again in slot `l`, for `n` slots after that. -/
theorem Setup.isFresh_of_not_due {s : Setup K} (hslot : 0 ≤ s.slotPeriod)
    (hperiod : 0 ≤ s.positionPeriod) {last l m n : Nat} (hlast : last ≤ l) (hl : l ≤ m)
    (hm : m ≤ l + n) (hlt : 1000 * s.slotTime m < 2 ^ 32)
    (hage : last = l ∨ ¬ s.positionPeriod ≤ s.slotTime l - s.slotTime last) {window : Millis}
    (hwindow : 1000 * (s.positionPeriod + n * s.slotPeriod) + 1 ≤ window.toNat) :
    Millis.isFresh (Scalar.toHalfWord (s.slotTime last * 1000.0)) window
      (Scalar.toHalfWord (s.slotTime m * 1000.0)) = true := by
  have hthousand : (1000.0 : K) = 1000 := by norm_num
  have hmonotone : ∀ {i j : Nat}, i ≤ j → s.slotTime i ≤ s.slotTime j := by
    intro i j hij
    rw [slotTime_eq, slotTime_eq]
    exact mul_le_mul_of_nonneg_right (by exact_mod_cast hij) hslot
  have hstart : 0 ≤ s.slotTime last := mul_nonneg (Nat.cast_nonneg last) hslot
  have hround : s.slotTime m ≤ s.slotTime l + n * s.slotPeriod := by
    have hsum : s.slotTime (l + n) = s.slotTime l + n * s.slotPeriod := by
      rw [slotTime_eq, slotTime_eq, Nat.cast_add, add_mul]
    exact hsum ▸ hmonotone hm
  have hsoon : s.slotTime l - s.slotTime last ≤ s.positionPeriod := by
    obtain rfl | hnot := hage
    · rwa [sub_self]
    · exact (not_le.1 hnot).le
  have hpassed : s.slotTime last ≤ s.slotTime m := hmonotone (hlast.trans hl)
  rw [hthousand]
  exact isFresh_toHalfWord (by linarith) (by linarith) (by linarith) (by linarith)

end Exact

namespace World

/-- Let the times of a simulation be exact, and below the period of the millisecond clock. If no
packets are lost, and the window for positions is at least a millisecond longer than the period with
which a station sends its position and one round together, then from the end of the first round on
every packet is handed to the receiver, and every anchor is found where it is, both before the packet
is handled and after it. -/
theorem positions_stay_fresh {σ K : Type} [Field K] [LinearOrder K] [IsStrictOrderedRing K]
    [FloorRing K] [NoiseSource σ K] (hunit : ∀ g : σ, 0 ≤ (NoiseSource.unit g).1)
    (sqrt sin cos exp ln : K → K) {s : Setup K} (hloss : s.packetLoss = 0)
    (hperiod : 0 ≤ s.positionPeriod)
    (hwindow : 1000 * (s.positionPeriod + s.anchorCount * s.slotPeriod) + 1 ≤
      s.settings.windows.position.toNat) :
    let _ := Analytic.ofField sqrt sin cos exp ln
    ∀ {w : World σ K}, create s = .ok w → ∀ {m : Nat}, s.anchorCount ≤ m →
      1000 * (m * s.slotPeriod) < 2 ^ 32 →
      let v := (w.steps m).2
      ∃ a, v.delivery? = some a ∧ ∀ i < s.anchorCount, ∃ station p,
        v.stations[i]? = some station ∧ v.scene.anchors[i]? = some p ∧
        (v.receiver.anchorPosition? station.id a.now).map (·.value) = some p ∧
        ((v.receiver.handed a).anchorPosition? station.id a.now).map (·.value) = some p := by
  intro _ w hcreate m hround hlt v
  have hslotPeriod : 0 ≤ s.slotPeriod := by
    have hpositive : (0.0 : K) < s.slotPeriod := (create_eq_ok_iff.1 hcreate).1.slotPeriod
    have hzero : (0.0 : K) = 0 := by norm_num
    exact (hzero ▸ hpositive).le
  have hattended : w.Attended := by
    refine Attended.of_create hcreate ?_
    intro g
    rw [hloss]
    exact not_lt.2 (hunit g)
  have hne := hattended.running.stations_ne_nil
  obtain ⟨sender, hsender⟩ := exists_sender (steps_stations_ne_nil hne m)
  obtain ⟨a, hdelivery, -, hnow, -⟩ := (hattended.steps m).step_eq hsender
  have htime : a.now = Scalar.toHalfWord (s.slotTime m * 1000.0) := by
    rw [hnow, time, steps_slot hne, slot_of_create hcreate, Nat.zero_add, steps_setup,
      setup_of_create hcreate]
    rfl
  -- Before the packet and after it, at the time of this slot.
  have hfound : ∀ k, m ≤ k → k ≤ m + 1 → ∀ {i : Nat} {id : AnchorId} {p : Point K},
      w.ids[i]? = some id → w.scene.anchors[i]? = some p →
      ((w.steps k).2.receiver.anchorPosition? id a.now).map (·.value) = some p := by
    intro k hk hk' i id p hid hp
    refine anchorPosition?_steps hcreate hattended (hround.trans hk) hid hp ?_
    intro last l hlast hl hle hage
    rw [htime]
    exact Setup.isFresh_of_not_due hslotPeriod hperiod hlast (by omega) (by omega) hlt hage hwindow
  refine ⟨a, hdelivery, ?_⟩
  intro i hi
  have hplace : i < v.stations.length := by
    rwa [length_steps_stations, length_stations_of_create hcreate]
  have hid : w.ids[i]? = some v.stations[i].id := by
    rw [← steps_ids w m, ids, List.getElem?_map, List.getElem?_eq_getElem hplace, Option.map_some]
  have hanchor : i < w.scene.anchors.length := by
    rwa [length_anchors_of_create hcreate]
  have hp := List.getElem?_eq_getElem hanchor
  have hbefore := hfound m le_rfl (Nat.le_succ m) hid hp
  have hafter := hfound (m + 1) (Nat.le_succ m) le_rfl hid hp
  rw [steps_succ, step_receiver, hdelivery] at hafter
  refine ⟨v.stations[i], w.scene.anchors[i], List.getElem?_eq_getElem hplace, ?_, hbefore, hafter⟩
  rw [steps_anchors]
  exact hp

end World

/-! ## A simulation with rational numbers -/

/-- The exact value of a binary64 number, and zero if it is not finite. -/
def exactValue (x : Float) : ℚ :=
  match Binary.ofFloat x with
  | .finite negative m => if negative then -m.value else m.value
  | _ => 0

/-- A function of binary64 numbers on the nearest one, with its exact value. -/
def throughFloat (f : Float → Float) (x : ℚ) : ℚ :=
  match Magnitude.nearest? .binary64 x.num.natAbs x.den with
  | some m => exactValue (f (m.toFloat (x < 0)))
  | none => 0

/-- A stream of random words, from which numbers are drawn without rounding. -/
structure ExactDraws where
  words : ChaCha

instance : NoiseSource ExactDraws ℚ where
  seeded seed := ⟨ChaCha.ofSeed seed⟩
  unit g := ((g.words.next.1 >>> 11).toNat / 2 ^ 53, ⟨g.words.next.2⟩)
  between low high g :=
    ((g.words.next.1 >>> 12).toNat / 2 ^ 52 * (high - low) + low, ⟨g.words.next.2⟩)
  counter g := (g.words.counter.1, ⟨g.words.counter.2⟩)
  normal deviation g := (deviation * exactValue g.words.standardNormal.1, ⟨g.words.standardNormal.2⟩)

/-- The standard settings are valid in exact arithmetic as well. -/
theorem Settings.valid_standard_exact : (Settings.standard : Settings ℚ).Valid where
  anchorCapacity_ne_zero := by decide
  receptionCapacity_ne_zero := by decide
  flightCapacity_ne_zero := by decide
  frequency := by decide +kernel
  deviation := by decide +kernel
  statsInterval_ne_zero := by decide
  filter := ⟨by decide +kernel, by decide +kernel, by decide +kernel, by decide⟩

/-- And so is the standard setup. -/
theorem Setup.valid_standard_exact : (Setup.standard : Setup ℚ).Valid :=
  ⟨by decide, by decide, by decide +kernel, by decide +kernel, by decide +kernel⟩

namespace World

/-- Eight anchors that send their positions four times in a second, and a receiver whose window is just
long enough. -/
def tightSetup : Setup ℚ :=
  { Setup.standard with settings := { Settings.standard with windows := { position := 267 } } }

/-- It can be simulated, whatever the elementary functions are. -/
theorem create_tightSetup (sqrt sin cos exp ln : ℚ → ℚ) :
    letI := Analytic.ofField sqrt sin cos exp ln
    create tightSetup = .ok (fresh tightSetup : World ExactDraws ℚ) := by
  have hvalid : tightSetup.Valid := { Setup.valid_standard_exact with }
  have hsettings : tightSetup.settings.Valid := { Settings.valid_standard_exact with }
  let _ := Analytic.ofField sqrt sin cos exp ln
  exact create_eq_ok_iff.2 ⟨hvalid, rfl, hsettings, rfl⟩

/-- Two seconds after the start the anchors have sent their positions several times. -/
theorem positions_stay_fresh_tightSetup :
    letI := Analytic.ofField (throughFloat .sqrt) (throughFloat .sin) (throughFloat .cos)
      (throughFloat .exp) (throughFloat .log)
    ∃ w : World ExactDraws ℚ, create tightSetup = .ok w ∧
      let v := (w.steps 1000).2
      ∃ a, v.delivery? = some a ∧ ∀ i < 8, ∃ station p,
        v.stations[i]? = some station ∧ v.scene.anchors[i]? = some p ∧
        (v.receiver.anchorPosition? station.id a.now).map (·.value) = some p ∧
        ((v.receiver.handed a).anchorPosition? station.id a.now).map (·.value) = some p := by
  have hunit : ∀ g : ExactDraws, 0 ≤ (NoiseSource.unit g).1 := by
    intro g
    exact div_nonneg (Nat.cast_nonneg _) (by norm_num)
  have hloss : tightSetup.packetLoss = 0 := by decide +kernel
  have hperiod : 0 ≤ tightSetup.positionPeriod := by decide +kernel
  have hwindow : 1000 * (tightSetup.positionPeriod + tightSetup.anchorCount * tightSetup.slotPeriod)
      + 1 ≤ tightSetup.settings.windows.position.toNat := by decide +kernel
  have hround : tightSetup.anchorCount ≤ 1000 := by decide
  have htime : 1000 * ((1000 : ℕ) * tightSetup.slotPeriod) < 2 ^ 32 := by decide +kernel
  exact ⟨_, create_tightSetup .., positions_stay_fresh hunit _ _ _ _ _ hloss hperiod hwindow
    (create_tightSetup ..) hround htime⟩

end World

end Ranging

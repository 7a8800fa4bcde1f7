import Ranging.Proofs.SimulationRun

/-!
# Sending in turn

The stations of a simulation send one after the other. Each counts its packets in seven bits, and
notes for every other station which of its packets it received last. Since every station hears every
packet, all of them agree about what was sent (`World.Agree`): the counter of a station is the number
of packets that it has sent, modulo 128, and what the others have noted for it is its latest one.
-/

namespace Ranging

/-! ## The packets of a station -/

section Packets

variable {K : Type}

/-- The packets that one station has sent. -/
def sentBy (id : AnchorId) (packets : List (Broadcast K)) : List (Broadcast K) :=
  packets.filter (·.source = id)

theorem sentBy_concat_of_eq {id : AnchorId} {packet : Broadcast K} (h : packet.source = id)
    (packets : List (Broadcast K)) :
    sentBy id (packets ++ [packet]) = sentBy id packets ++ [packet] := by
  simp [sentBy, h]

theorem sentBy_concat_of_ne {id : AnchorId} {packet : Broadcast K} (h : packet.source ≠ id)
    (packets : List (Broadcast K)) : sentBy id (packets ++ [packet]) = sentBy id packets := by
  simp [sentBy, h]

end Packets

/-- A station that has not sent or received anything. -/
structure Station.Blank {K : Type} (s : Setup K) (station : Station K) : Prop where
  sequence : station.sequence = 0
  heard : station.heard = List.replicate s.anchorCount none
  lastPosition : station.lastPosition = none

namespace World

variable {σ K : Type} [Analytic K] [NoiseSource σ K]

/-! ## Slot by slot -/

/-- One slot more at the end. -/
theorem steps_succ (w : World σ K) (m : Nat) : (w.steps (m + 1)).2 = (w.steps m).2.step.2 := by
  induction m generalizing w with
  | zero => rfl
  | succ m ih => exact ih w.step.2

/-- What every slot preserves still holds after any number of slots. -/
theorem steps_induction {P : World σ K → Prop} (h : ∀ w, P w → P w.step.2) {w : World σ K}
    (hw : P w) (m : Nat) : P (w.steps m).2 := by
  induction m generalizing w with
  | zero => exact hw
  | succ m ih => exact ih (h w hw)

/-- The packet that is sent in the next slot. -/
def broadcast? (w : World σ K) : Option (Broadcast K) :=
  w.stations[w.turn]?.map w.moved.packet

omit [NoiseSource σ K] in
theorem broadcast?_eq {w : World σ K} {sender : Station K}
    (h : w.stations[w.turn]? = some sender) : w.broadcast? = some (w.moved.packet sender) := by
  rw [broadcast?, h, Option.map_some]

/-- The packets that are sent in the next `m` slots. -/
def broadcasts (w : World σ K) (m : Nat) : List (Broadcast K) :=
  (List.range m).filterMap fun k => (w.steps k).2.broadcast?

theorem broadcasts_succ (w : World σ K) (m : Nat) :
    w.broadcasts (m + 1) = w.broadcasts m ++ (w.steps m).2.broadcast?.toList := by
  rw [broadcasts, List.range_succ, List.filterMap_append]
  cases h : (w.steps m).2.broadcast? <;> simp [broadcasts, h]

/-- What the stations are after others have heard a packet of number `k`. -/
theorem exists_getElem?_overhear (w : World σ K) (t : K) (k : Nat) (sequence : UInt8) (source : σ)
    (j : Nat) (stations : List (Station K)) :
    ∃ time : Nat → Ticks, ∀ i, (w.overhear t k sequence source j stations).1[i]? =
      stations[i]?.map fun station => if j + i = k then station else
        { station with heard := station.heard.set k (some ⟨time i, sequence⟩) } := by
  induction stations generalizing source j with
  | nil => exact ⟨fun _ => 0, fun _ => rfl⟩
  | cons station rest ih =>
      rw [overhear]
      by_cases hj : j = k
      · obtain ⟨time, htime⟩ := ih source (j + 1)
        refine ⟨fun i => time (i - 1), ?_⟩
        intro i
        rw [if_pos hj]
        cases i with
        | zero => simp [hj]
        | succ i =>
            have hindex : j + (i + 1) = j + 1 + i := by omega
            rw [hindex]
            exact htime i
      · rw [if_neg hj]
        generalize NoiseSource.normal w.setup.jitter source = drawn
        obtain ⟨noise, source'⟩ := drawn
        obtain ⟨time, htime⟩ := ih source' (j + 1)
        let own := station.clock.noisyTimestamp (t + flightBetween w.scene k j) noise
        refine ⟨fun i => if i = 0 then own else time (i - 1), ?_⟩
        intro i
        cases i with
        | zero => simp [hj, own]
        | succ i =>
            have hindex : j + (i + 1) = j + 1 + i := by omega
            rw [hindex]
            exact htime i

/-- The stations after a slot: the sender has transmitted, and all others have heard it. -/
theorem exists_getElem?_step_stations {w : World σ K} {sender : Station K}
    (h : w.stations[w.turn]? = some sender) :
    ∃ time : Nat → Ticks, ∀ i, w.step.2.stations[i]? = w.stations[i]?.map fun station =>
      if i = w.turn then w.afterTransmission station else
        { station with heard := station.heard.set w.turn (some ⟨time i, sender.sequence⟩) } := by
  obtain ⟨_, _, _, _, hstep⟩ := exists_step_eq h
  obtain ⟨time, htime⟩ := exists_getElem?_overhear w.moved w.moved.time w.moved.turn
    sender.sequence w.moved.source 0 (w.moved.stations.set w.moved.turn
      (w.moved.afterTransmission sender))
  refine ⟨time, ?_⟩
  intro i
  have hi := htime i
  rw [hstep]
  change (w.moved.overheard sender).1[i]? = _
  rw [overheard, hi, Nat.zero_add]
  by_cases hturn : i = w.turn
  · obtain ⟨hlt, -⟩ := List.getElem?_eq_some_iff.1 h
    have hset : (w.moved.stations.set w.moved.turn (w.moved.afterTransmission sender))[i]? =
        some (w.afterTransmission sender) := by
      rw [hturn]
      exact List.getElem?_set_self hlt
    rw [hset, hturn, h, Option.map_some, Option.map_some, if_pos rfl]
    exact congrArg some (if_pos rfl)
  · have hset : (w.moved.stations.set w.moved.turn (w.moved.afterTransmission sender))[i]? =
        w.stations[i]? := List.getElem?_set_ne (Ne.symm hturn)
    rw [hset]
    refine Option.map_congr ?_
    intro station hstation
    exact (if_neg hturn).trans (if_neg hturn).symm

/-- A station after a slot is the sender, which has transmitted, or another one, which has heard it. -/
theorem station_cases {w : World σ K} {sender : Station K} (h : w.stations[w.turn]? = some sender)
    {i : Nat} {station : Station K} (hi : w.step.2.stations[i]? = some station) :
    i = w.turn ∧ station = w.afterTransmission sender ∨
      i ≠ w.turn ∧ ∃ (old : Station K) (time : Ticks), w.stations[i]? = some old ∧
        station = { old with heard := old.heard.set w.turn (some ⟨time, sender.sequence⟩) } := by
  obtain ⟨time, htime⟩ := exists_getElem?_step_stations h
  rw [htime] at hi
  obtain ⟨old, hold, rfl⟩ := Option.map_eq_some_iff.1 hi
  by_cases hturn : i = w.turn
  · left
    rw [hturn, h] at hold
    cases hold
    exact ⟨hturn, if_pos hturn⟩
  · exact .inr ⟨hturn, old, time i, hold, if_neg hturn⟩

/-- Nobody changes its identifier. -/
theorem step_ids (w : World σ K) : w.step.2.ids = w.ids := by
  cases h : w.stations[w.turn]? with
  | none =>
      rw [step_of_nobody h]
      rfl
  | some sender =>
      obtain ⟨time, htime⟩ := exists_getElem?_step_stations h
      apply List.ext_getElem?
      intro i
      rw [ids, ids, List.getElem?_map, List.getElem?_map, htime, Option.map_map]
      refine Option.map_congr ?_
      intro station hstation
      dsimp only [Function.comp_apply]
      split <;> rfl

theorem steps_ids (w : World σ K) (m : Nat) : (w.steps m).2.ids = w.ids :=
  steps_induction (P := fun v => v.ids = w.ids) (fun v hv => (step_ids v).trans hv) rfl m

theorem steps_setup (w : World σ K) (m : Nat) : (w.steps m).2.setup = w.setup :=
  steps_induction (P := fun v => v.setup = w.setup) (fun v hv => (step_setup v).trans hv) rfl m

theorem length_steps_stations (w : World σ K) (m : Nat) :
    (w.steps m).2.stations.length = w.stations.length :=
  steps_induction (P := fun v => v.stations.length = w.stations.length)
    (fun v hv => (length_step_stations v).trans hv) rfl m

theorem steps_stations_ne_nil {w : World σ K} (h : w.stations ≠ []) (m : Nat) :
    (w.steps m).2.stations ≠ [] := by
  rw [← List.length_pos_iff, length_steps_stations, List.length_pos_iff]
  exact h

theorem steps_slot {w : World σ K} (h : w.stations ≠ []) (m : Nat) :
    (w.steps m).2.slot = w.slot + m := by
  induction m with
  | zero => rfl
  | succ m ih => rw [steps_succ, step_slot (steps_stations_ne_nil h m), ih, Nat.add_assoc]

omit [Analytic K] [NoiseSource σ K] in
/-- Stations of different numbers have different identifiers. -/
theorem id_ne {w : World σ K} (h : w.ids.Nodup) {i j : Nat} {station other : Station K}
    (hi : w.stations[i]? = some station) (hj : w.stations[j]? = some other) (hne : i ≠ j) :
    station.id ≠ other.id := by
  intro hid
  obtain ⟨hlt, -⟩ := List.getElem?_eq_some_iff.1 hi
  refine hne ((List.getElem?_inj (by simpa [ids] using hlt) h).1 ?_)
  rw [ids, List.getElem?_map, List.getElem?_map, hi, hj, Option.map_some, Option.map_some, hid]

/-! ## The start -/

/-- The stations are numbered from the first identifier on. -/
theorem map_id_randomStations (s : Setup K) (source : σ) (i n : Nat) :
    (randomStations s source i n).1.map (·.id) =
      (List.range' i n).map (AnchorId.advance ⟨s.firstId⟩) := by
  induction n generalizing source i with
  | zero => rfl
  | succ n ih => exact congrArg (_ :: ·) (ih _ (i + 1))

theorem ids_of_create {s : Setup K} {w : World σ K} (h : create s = .ok w) :
    w.ids = (List.range s.anchorCount).map (AnchorId.advance ⟨s.firstId⟩) := by
  obtain ⟨-, -, -, rfl⟩ := create_eq_ok_iff.1 h
  rw [List.range_eq_range']
  exact map_id_randomStations ..

/-- There are few enough stations for the identifiers not to start over. -/
theorem nodup_ids_of_create {s : Setup K} {w : World σ K} (h : create s = .ok w) :
    w.ids.Nodup := by
  obtain ⟨hvalid, -, -, -⟩ := create_eq_ok_iff.1 h
  have hcount : s.anchorCount ≤ 128 := hvalid.anchorCount.2
  rw [ids_of_create h]
  refine List.Nodup.map_on ?_ List.nodup_range
  intro i hi j hj heq
  rw [List.mem_range] at hi hj
  have hoffset : i.toUInt8 = j.toUInt8 := (UInt8.add_right_inj s.firstId).1 (congrArg (·.val) heq)
  have hvalue := congrArg UInt8.toNat hoffset
  change i % 256 = j % 256 at hvalue
  omega

theorem blank_of_mem_randomStations {s : Setup K} {source : σ} {i n : Nat} {station : Station K}
    (h : station ∈ (randomStations s source i n).1) : Station.Blank s station := by
  induction n generalizing source i with
  | zero => cases h
  | succ n ih =>
      rcases List.mem_cons.1 h with rfl | hrest
      · exact ⟨rfl, rfl, rfl⟩
      · exact ih hrest

theorem blank_of_create {s : Setup K} {w : World σ K} (h : create s = .ok w) {station : Station K}
    (hstation : station ∈ w.stations) : Station.Blank s station := by
  obtain ⟨-, -, -, rfl⟩ := create_eq_ok_iff.1 h
  exact blank_of_mem_randomStations hstation

theorem length_stations_of_create {s : Setup K} {w : World σ K} (h : create s = .ok w) :
    w.stations.length = s.anchorCount := by
  obtain ⟨-, -, -, rfl⟩ := create_eq_ok_iff.1 h
  exact length_randomStations ..

theorem slot_of_create {s : Setup K} {w : World σ K} (h : create s = .ok w) : w.slot = 0 := by
  obtain ⟨-, -, -, rfl⟩ := create_eq_ok_iff.1 h
  rfl

/-! ## What the stations know about each other -/

/-- The stations agree about the packets that were sent: each has counted its own, and for each the
others have noted its latest one. -/
structure Agree (w : World σ K) (packets : List (Broadcast K)) : Prop where
  ids_nodup : w.ids.Nodup
  sequence : ∀ {i : Nat} {station : Station K}, w.stations[i]? = some station →
    station.sequence.toNat = (sentBy station.id packets).length % 128
  heard : ∀ {i j : Nat} {station other : Station K}, w.stations[i]? = some station →
    w.stations[j]? = some other → j ≠ i → ∃ latest, other.heard[i]? = some latest ∧
      latest.map (·.sequence) = (sentBy station.id packets).getLast?.map (·.sequence)

/-- Nobody has sent or noted anything at the start. -/
theorem Agree.of_create {s : Setup K} {w : World σ K} (h : create s = .ok w) : w.Agree [] := by
  refine ⟨nodup_ids_of_create h, ?_, ?_⟩
  · intro i station hi
    rw [(blank_of_create h (List.mem_of_getElem? hi)).sequence]
    rfl
  · intro i j station other hi hj hne
    obtain ⟨hlt, -⟩ := List.getElem?_eq_some_iff.1 hi
    rw [length_stations_of_create h] at hlt
    rw [(blank_of_create h (List.mem_of_getElem? hj)).heard]
    exact ⟨none, by simp [hlt], rfl⟩

/-- What a slot preserves. -/
theorem Agree.step {w : World σ K} {packets : List (Broadcast K)} (h : w.Agree packets)
    {sender : Station K} (hsender : w.stations[w.turn]? = some sender) :
    w.step.2.Agree (packets ++ [w.moved.packet sender]) := by
  have hself : sentBy sender.id (packets ++ [w.moved.packet sender]) =
      sentBy sender.id packets ++ [w.moved.packet sender] :=
    sentBy_concat_of_eq (show (w.moved.packet sender).source = sender.id from rfl) packets
  have hothers : ∀ {i station}, w.stations[i]? = some station → i ≠ w.turn →
      sentBy station.id (packets ++ [w.moved.packet sender]) = sentBy station.id packets := by
    intro i station hi hne
    exact sentBy_concat_of_ne (id_ne h.ids_nodup hsender hi (Ne.symm hne)) packets
  refine ⟨by rw [step_ids]; exact h.ids_nodup, ?_, ?_⟩
  · intro i station hi
    obtain ⟨-, rfl⟩ | ⟨hturn, old, time, hold, rfl⟩ := station_cases hsender hi
    · have hcount := h.sequence hsender
      change ((sender.sequence + 1) &&& sequenceMask).toNat = (sentBy sender.id _).length % 128
      rw [hself, toNat_and_sequenceMask, UInt8.toNat_add, hcount, List.length_append,
        List.length_singleton]
      change (_ + 1) % 256 % 128 = _
      omega
    · change old.sequence.toNat = (sentBy old.id _).length % 128
      rw [hothers hold hturn]
      exact h.sequence hold
  · intro i j station other hi hj hne
    obtain ⟨rfl, rfl⟩ | ⟨hturn, old, time, hold, rfl⟩ := station_cases hsender hi
    · -- The sender's packet is the latest one, for everybody else.
      obtain ⟨hj', -⟩ | ⟨-, old', time, hold', rfl⟩ := station_cases hsender hj
      · exact absurd hj' hne
      · obtain ⟨latest, hlatest, -⟩ := h.heard hsender hold' hne
        obtain ⟨hlt, -⟩ := List.getElem?_eq_some_iff.1 hlatest
        change ∃ latest, (old'.heard.set w.turn _)[w.turn]? = some latest ∧
          latest.map (·.sequence) = (sentBy sender.id _).getLast?.map (·.sequence)
        refine ⟨_, List.getElem?_set_self hlt, ?_⟩
        rw [hself, List.getLast?_concat]
        rfl
    · -- For another station it leaves everything as it was.
      have hkept : ∃ old', w.stations[j]? = some old' ∧ other.heard[i]? = old'.heard[i]? := by
        obtain ⟨rfl, rfl⟩ | ⟨-, old', time', hold', rfl⟩ := station_cases hsender hj
        · exact ⟨sender, hsender, rfl⟩
        · exact ⟨old', hold', List.getElem?_set_ne (Ne.symm hturn)⟩
      obtain ⟨old', hold', hheard⟩ := hkept
      obtain ⟨latest, hlatest, hsequence⟩ := h.heard hold hold' hne
      refine ⟨latest, hheard.trans hlatest, ?_⟩
      rw [hsequence]
      exact congrArg _ (congrArg _ (hothers hold hturn).symm)

/-- What a run preserves. -/
theorem Agree.steps {w : World σ K} (h : w.Agree []) (hne : w.stations ≠ []) (m : Nat) :
    (w.steps m).2.Agree (w.broadcasts m) := by
  induction m with
  | zero => exact h
  | succ m ih =>
      obtain ⟨sender, hsender⟩ := exists_sender (steps_stations_ne_nil hne m)
      rw [steps_succ, broadcasts_succ, broadcast?_eq hsender]
      exact ih.step hsender

/-! ## How often a station sends -/

/-- Rounded up, the share of number `i` in `m` slots grows by one in every `n`-th slot. -/
theorem share_succ {n i : Nat} (hi : i < n) (m : Nat) :
    (m + 1 - i + (n - 1)) / n = (m - i + (n - 1)) / n + if m % n = i then 1 else 0 := by
  rcases Nat.lt_or_ge m i with hlt | hge
  · have hmod : m % n = m := Nat.mod_eq_of_lt (by omega)
    have hnone : m + 1 - i = m - i := by omega
    rw [hmod, hnone, if_neg (by omega), Nat.add_zero]
  · obtain ⟨d, rfl⟩ := Nat.exists_eq_add_of_le hge
    have hless : i + d - i + (n - 1) = d + (n - 1) := by omega
    have hmore : i + d + 1 - i + (n - 1) = d + (n - 1) + 1 := by omega
    have hround : d + (n - 1) + 1 = d + n := by omega
    have hturn : n ∣ d + n ↔ (i + d) % n = i := by
      have hrest : d % n < n := Nat.mod_lt _ (by omega)
      have hsum : (i + d) % n = (i + d % n) % n := (Nat.add_mod_mod i d n).symm
      rw [Nat.dvd_add_self_right, Nat.dvd_iff_mod_eq_zero, hsum]
      rcases Nat.lt_or_ge (i + d % n) n with hsmall | hlarge
      · rw [Nat.mod_eq_of_lt hsmall]
        omega
      · have hless : (i + d % n) % n = i + d % n - n := by
          rw [Nat.mod_eq_sub_mod hlarge, Nat.mod_eq_of_lt (by omega)]
        omega
    rw [hless, hmore, Nat.succ_div, hround]
    simp only [hturn]

omit [NoiseSource σ K] in
theorem broadcast?_source (w : World σ K) : w.broadcast?.map (·.source) = w.ids[w.turn]? := by
  rw [broadcast?, ids, List.getElem?_map, Option.map_map]
  rfl

/-- Station number `i` sends in every `n`-th slot, for the first time in slot `i`. -/
theorem length_sentBy_broadcasts {w : World σ K} (hslot : w.slot = 0) (hids : w.ids.Nodup) {i : Nat}
    {id : AnchorId} (hid : w.ids[i]? = some id) (m : Nat) :
    (sentBy id (w.broadcasts m)).length =
      (m - i + (w.stations.length - 1)) / w.stations.length := by
  obtain ⟨hlt, -⟩ := List.getElem?_eq_some_iff.1 hid
  have hlt' : i < w.stations.length := by simpa [ids] using hlt
  have hne : w.stations ≠ [] := List.ne_nil_of_length_pos (by omega)
  induction m with
  | zero =>
      rw [Nat.zero_sub, Nat.zero_add, Nat.div_eq_of_lt (by omega)]
      rfl
  | succ m ih =>
      have hturn : (w.steps m).2.turn = m % w.stations.length := by
        rw [turn, steps_slot hne, length_steps_stations, hslot, Nat.zero_add]
      have hsource := broadcast?_source (w.steps m).2
      rw [steps_ids, hturn] at hsource
      obtain ⟨sender, hsender⟩ := exists_sender (steps_stations_ne_nil hne m)
      have hpacket := broadcast?_eq hsender
      rw [hpacket, Option.map_some] at hsource
      rw [share_succ hlt', broadcasts_succ, hpacket, Option.toList_some, ← ih]
      split
      · rename_i hmine
        rw [hmine, hid] at hsource
        rw [sentBy_concat_of_eq (Option.some.inj hsource), List.length_append,
          List.length_singleton]
      · rename_i hother
        have hforeign : ((w.steps m).2.moved.packet sender).source ≠ id := by
          intro hsame
          rw [hsame, ← hid] at hsource
          exact hother ((List.getElem?_inj hlt hids).1 hsource).symm
        rw [sentBy_concat_of_ne hforeign, Nat.add_zero]

end World

end Ranging

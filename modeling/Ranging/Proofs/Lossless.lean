import Ranging.Proofs.RoundRobin

/-!
# Simulations that lose nothing

If no packet is lost, the tag hears what the stations hear. Its table has room for all stations, so
that nobody is ever evicted, and a slot changes the record of the sender only
(`World.Attended.step_eq`). So the tag's records follow the stations slot by slot: the sequence number
stored for a station is that of its latest packet, which the other stations have noted, too.
-/

namespace Ranging

/-! ## A table with room -/

section Room

variable {K : Type} [Scalar K]

/-- A new anchor finds free space. -/
def Table.HasRoomFor (t : Table K) (id : AnchorId) : Prop :=
  t.find? id = none → t.size < t.capacity

/-- Nobody is evicted then. -/
theorem Table.HasRoomFor.find?_entered {t : Table K} {id : AnchorId} (h : t.HasRoomFor id)
    (hsound : t.Sound) (now : Millis) {other : AnchorId} (hne : other ≠ id) :
    (t.entered id now).find? other = t.find? other := by
  obtain ⟨-, heq⟩ | ⟨-, -, -, hfind⟩ | ⟨habsent, hfull, -⟩ := Table.find?_entered hsound id now
  · rw [heq]
  · exact hfind other hne
  · exact absurd hfull (Nat.ne_of_lt (h habsent))

/-- When a partner is looked for, all other records are as they were. -/
theorem Receiver.find?_preparedTable_of_room {r : Receiver K} {a : Arrival K}
    (h : r.table.HasRoomFor a.source) (hsound : r.table.Sound) {id : AnchorId}
    (hne : id ≠ a.source) : (r.preparedTable a).find? id = r.table.find? id := by
  rw [Receiver.find?_preparedTable hsound.hasSlot, if_neg hne, h.find?_entered hsound a.now hne]

/-- A packet changes the record of its sender only. -/
theorem Receiver.find?_after_of_room {r : Receiver K} {a : Arrival K}
    (h : r.table.HasRoomFor a.source) (hsound : r.table.Sound) (id : AnchorId) :
    (r.after a).table.find? id =
      if id = a.source then some ((r.table.sender a.source).receive r.filter a)
      else r.table.find? id := by
  rw [Receiver.find?_after hsound.hasSlot]
  split
  · rfl
  · rename_i hne
    exact h.find?_entered hsound a.now hne

end Room

namespace World

variable {σ K : Type} [Analytic K] [NoiseSource σ K]

/-! ## A slot without loss -/

/-- Whatever is drawn, no packet is lost. -/
def Lossless (w : World σ K) : Prop :=
  ∀ g : σ, ¬ (NoiseSource.unit g).1 < w.setup.packetLoss

/-- The tag is handed every packet. -/
theorem Lossless.exists_delivery {w : World σ K} (h : w.Lossless) {sender : Station K}
    (hsender : w.stations[w.turn]? = some sender) :
    ∃ a, w.delivery? = some a ∧ a.broadcast = w.moved.packet sender ∧
      a.now = Scalar.toHalfWord (w.time * 1000.0) := by
  have hloses : (w.moved.transmitted sender).loses = false :=
    decide_eq_false (h (w.moved.transmitted sender).source)
  refine ⟨(w.moved.transmitted sender).arrival w.time w.turn (w.moved.packet sender), ?_, rfl,
    rfl⟩
  rw [delivery?, hsender]
  exact if_neg (by simp [hloses])

/-- A simulation without loss, whose receiver has room for every station and stores nobody else. -/
structure Attended (w : World σ K) : Prop where
  running : w.Running
  lossless : w.Lossless
  ids_nodup : w.ids.Nodup
  stored : ∀ ρ ∈ w.receiver.table.records, ρ.id ∈ w.ids
  room : w.stations.length ≤ w.receiver.table.capacity

/-- There is room for the next station that is heard for the first time. -/
theorem Attended.hasRoomFor {w : World σ K} (h : w.Attended) {id : AnchorId} (hid : id ∈ w.ids) :
    w.receiver.table.HasRoomFor id := by
  intro habsent
  have hstored : ∀ ρ ∈ w.receiver.table.records, ρ.id ∈ w.ids.toFinset :=
    fun ρ hρ => List.mem_toFinset.2 (h.stored ρ hρ)
  have hless := Keyed.length_lt_card h.running.sound.ids_nodup hstored (List.mem_toFinset.2 hid)
    (Keyed.find?_eq_none_iff.1 habsent)
  rw [List.toFinset_card_of_nodup h.ids_nodup, ids, List.length_map] at hless
  exact hless.trans_le h.room

/-- A slot of such a simulation: the sender's packet is handed to the receiver, which changes the
sender's record only. -/
theorem Attended.step_eq {w : World σ K} (h : w.Attended) {sender : Station K}
    (hsender : w.stations[w.turn]? = some sender) :
    ∃ a, w.delivery? = some a ∧ a.broadcast = w.moved.packet sender ∧
      a.now = Scalar.toHalfWord (w.time * 1000.0) ∧
      w.receiver.table.HasRoomFor a.source ∧
      ∀ id, w.step.2.receiver.table.find? id =
        if id = sender.id then
          some ((w.receiver.table.sender sender.id).receive w.receiver.filter a)
        else w.receiver.table.find? id := by
  obtain ⟨a, hdelivery, hbroadcast, hnow⟩ := h.lossless.exists_delivery hsender
  have hsource : a.source = sender.id := by
    rw [Arrival.source, hbroadcast]
    rfl
  have hroom : w.receiver.table.HasRoomFor a.source := by
    rw [hsource]
    exact h.hasRoomFor (List.mem_map_of_mem (List.mem_of_getElem? hsender))
  refine ⟨a, hdelivery, hbroadcast, hnow, hroom, ?_⟩
  intro id
  have hafter := Receiver.find?_after_of_room hroom h.running.sound id
  rw [step_receiver, hdelivery, ← hsource, ← hafter]
  dsimp only
  rw [Receiver.handed_eq h.running.sound.hasSlot]
  rfl

/-- The check of a setup makes sure of everything but the losses. -/
theorem Attended.of_create {s : Setup K} {w : World σ K} (h : create s = .ok w)
    (hlossless : ∀ g : σ, ¬ (NoiseSource.unit g).1 < s.packetLoss) : w.Attended := by
  have hrunning := Running.of_create h
  have hids := nodup_ids_of_create h
  obtain ⟨hvalid, -, -, rfl⟩ := create_eq_ok_iff.1 h
  exact {
    running := hrunning
    lossless := hlossless
    ids_nodup := hids
    stored := by
      intro ρ hρ
      cases hρ
    room := (length_randomStations ..).trans_le hvalid.anchorCount_le_capacity }

/-- What a slot preserves. -/
theorem Attended.step {w : World σ K} (h : w.Attended) : w.step.2.Attended where
  running := h.running.perform .step
  lossless := by
    rw [Lossless, step_setup]
    exact h.lossless
  ids_nodup := by
    rw [step_ids]
    exact h.ids_nodup
  stored := by
    obtain ⟨sender, hsender⟩ := exists_sender h.running.stations_ne_nil
    obtain ⟨a, -, -, -, -, hfind⟩ := h.step_eq hsender
    intro ρ hρ
    rw [step_ids]
    have hstored := (Table.find?_eq_some_iff (h.running.perform .step).sound).2 ⟨hρ, rfl⟩
    have hρid := (hfind ρ.id).symm.trans hstored
    split at hρid
    · rename_i hsame
      rw [hsame]
      exact List.mem_map_of_mem (List.mem_of_getElem? hsender)
    · exact h.stored ρ ((Table.find?_eq_some_iff h.running.sound).1 hρid).1
  room := by
    rw [length_step_stations, step_receiver]
    split
    · exact h.room
    · rw [Receiver.handed_eq h.running.sound.hasSlot]
      exact h.room.trans_eq (Receiver.after_capacity ..).symm

theorem Attended.steps {w : World σ K} (h : w.Attended) (m : Nat) : (w.steps m).2.Attended :=
  steps_induction (fun _ hv => hv.step) h m

/-! ## What the tag knows about the stations -/

/-- For every station the tag has stored the sequence number of its latest packet. -/
def Tracks (w : World σ K) (packets : List (Broadcast K)) : Prop :=
  ∀ (i : Nat) (station : Station K), w.stations[i]? = some station →
    (w.receiver.table.find? station.id).map (·.sequence) =
      (sentBy station.id packets).getLast?.map (·.sequence)

/-- What a slot preserves. -/
theorem Tracks.step {w : World σ K} {packets : List (Broadcast K)} (h : w.Tracks packets)
    (hattended : w.Attended) (hagree : w.Agree packets) {sender : Station K}
    (hsender : w.stations[w.turn]? = some sender) :
    w.step.2.Tracks (packets ++ [w.moved.packet sender]) := by
  obtain ⟨a, -, hbroadcast, -, -, hfind⟩ := hattended.step_eq hsender
  intro i station hi
  obtain ⟨-, rfl⟩ | ⟨hturn, old, time, hold, rfl⟩ := station_cases hsender hi
  · have hsequence : (a.broadcast.sequence &&& sequenceMask) = sender.sequence := by
      apply UInt8.toNat_inj.1
      rw [toNat_and_sequenceMask, hbroadcast]
      change sender.sequence.toNat % 128 = sender.sequence.toNat
      rw [hagree.sequence hsender, Nat.mod_mod]
    have hid : (w.afterTransmission sender).id = sender.id := rfl
    rw [hid, hfind, if_pos rfl,
      sentBy_concat_of_eq (show (w.moved.packet sender).source = sender.id from rfl),
      List.getLast?_concat, Option.map_some, Option.map_some, Record.receive_eq]
    exact congrArg some hsequence
  · have hne := id_ne hagree.ids_nodup hold hsender hturn
    rw [hfind, if_neg hne,
      sentBy_concat_of_ne (show (w.moved.packet sender).source ≠ old.id from hne.symm)]
    exact h i old hold

/-- What a run preserves. -/
theorem Tracks.steps {w : World σ K} (h : w.Tracks []) (hattended : w.Attended)
    (hagree : w.Agree []) (m : Nat) : (w.steps m).2.Tracks (w.broadcasts m) := by
  induction m with
  | zero => exact h
  | succ m ih =>
      have hne := hattended.running.stations_ne_nil
      obtain ⟨sender, hsender⟩ := exists_sender (steps_stations_ne_nil hne m)
      rw [steps_succ, broadcasts_succ, broadcast?_eq hsender]
      exact ih.step (hattended.steps m) (hagree.steps hne m) hsender

/-- At the start nobody has sent anything, and nothing is stored. -/
theorem Tracks.of_create {s : Setup K} {w : World σ K} (h : create s = .ok w) : w.Tracks [] := by
  obtain ⟨-, -, -, rfl⟩ := create_eq_ok_iff.1 h
  intro i station hi
  rfl

/-! ## What the stations report -/

omit [NoiseSource σ K] in
/-- What a station reports comes from what it has noted for another one. -/
theorem exists_of_mem_reports {w : World σ K} {k : Nat} {sender : Station K} {report : Report}
    (h : report ∈ w.reports k sender) :
    ∃ j neighbour reception, w.stations[j]? = some neighbour ∧ j ≠ k ∧
      sender.heard[j]? = some (some reception) ∧ report.neighbour = neighbour.id ∧
      report.sequence = reception.sequence := by
  rw [reports, List.mem_filterMap] at h
  obtain ⟨reported, hmem, hreported⟩ := h
  obtain rfl : reported = some report := hreported
  obtain ⟨j, hj⟩ := List.mem_iff_getElem?.1 hmem
  rw [List.getElem?_mapIdx] at hj
  obtain ⟨neighbour, hneighbour, hreport⟩ := Option.map_eq_some_iff.1 hj
  rw [report?] at hreport
  simp only [Option.bind_eq_bind, Option.bind_eq_some_iff, Option.guard_eq_some',
    Option.pure_def, Option.some.injEq] at hreport
  obtain ⟨_, hne, _, hheard, reception, rfl, rfl⟩ := hreport
  exact ⟨j, neighbour, reception, hneighbour, hne, hheard, rfl, rfl⟩

/-- Every report in the next packet is on the packet of its neighbour that the tag has stored, and
still has when it looks for a partner. -/
theorem Attended.exists_reported {w : World σ K} {packets : List (Broadcast K)} (h : w.Attended)
    (hagree : w.Agree packets) (htracks : w.Tracks packets) {sender : Station K}
    (hsender : w.stations[w.turn]? = some sender) :
    ∃ a, w.delivery? = some a ∧ a.broadcast = w.moved.packet sender ∧
      ∀ report ∈ a.broadcast.reports, ∃ ρ, w.receiver.table.find? report.neighbour = some ρ ∧
        (w.receiver.preparedTable a).find? report.neighbour = some ρ ∧
        ρ.sequence = report.sequence := by
  obtain ⟨a, hdelivery, hbroadcast, -, hroom, -⟩ := h.step_eq hsender
  refine ⟨a, hdelivery, hbroadcast, ?_⟩
  intro report hreport
  rw [hbroadcast] at hreport
  obtain ⟨j, neighbour, reception, hneighbour, hne, hheard, hid, hsequence⟩ :=
    exists_of_mem_reports (w := w.moved) hreport
  obtain ⟨latest, hlatest, hnoted⟩ := hagree.heard hneighbour hsender (Ne.symm hne)
  obtain rfl : some reception = latest := Option.some.inj (hheard.symm.trans hlatest)
  have hstored := htracks j neighbour hneighbour
  rw [← hnoted, Option.map_some] at hstored
  obtain ⟨ρ, hρ, hρsequence⟩ := Option.map_eq_some_iff.1 hstored
  have hother : neighbour.id ≠ a.source := by
    rw [Arrival.source, hbroadcast]
    exact id_ne h.ids_nodup hneighbour hsender hne
  rw [hid]
  refine ⟨ρ, hρ, ?_, hρsequence.trans hsequence.symm⟩
  rw [Receiver.find?_preparedTable_of_room hroom h.running.sound hother, hρ]

end World

end Ranging

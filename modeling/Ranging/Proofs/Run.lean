import Ranging.Proofs.Handling
import Ranging.Proofs.Validation

/-!
# Runs of packets

A run hands packets to a receiver one after the other. On a receiver that was created it never
fails, and what it does is `Receiver.after`, applied packet by packet.

A record keeps no history, but its contents are determined by one: by the packets of its anchor
that were handled since the anchor last entered the table, its *stay*. A record is what
`Record.receive` makes of them, starting from a blank one. A report that is stored for a neighbour
is therefore the last one that the anchor ever sent about it, and the stored times are those of
the anchor's last packet.
-/

namespace Ranging

variable {K : Type}

/-- The packets of one anchor. -/
def packetsOf (id : AnchorId) (as : List (Arrival K)) : List (Arrival K) :=
  as.filter (·.source = id)

@[simp] theorem packetsOf_append (id : AnchorId) (as bs : List (Arrival K)) :
    packetsOf id (as ++ bs) = packetsOf id as ++ packetsOf id bs :=
  List.filter_append ..

theorem packetsOf_singleton_of_eq {id : AnchorId} {a : Arrival K} (h : a.source = id) :
    packetsOf id [a] = [a] := by
  simp [packetsOf, h]

theorem packetsOf_singleton_of_ne {id : AnchorId} {a : Arrival K} (h : a.source ≠ id) :
    packetsOf id [a] = [] := by
  simp [packetsOf, h]

variable [Scalar K]

/-! ## One record -/

namespace Record

/-- The record after some packets of its anchor. -/
def receiveAll (r : Record K) (f : RatioFilter K) (as : List (Arrival K)) : Record K :=
  as.foldl (·.receive f ·) r

@[simp] theorem receiveAll_concat (r : Record K) (f : RatioFilter K) (as : List (Arrival K))
    (a : Arrival K) : r.receiveAll f (as ++ [a]) = (r.receiveAll f as).receive f a :=
  List.foldl_concat ..

theorem receiveAll_receptions (r : Record K) (f : RatioFilter K) (as : List (Arrival K)) :
    (r.receiveAll f as).receptions = r.receptions.writeAll (as.flatMap Arrival.receptions) := by
  induction as using List.reverseRecOn with
  | nil => rfl
  | append_singleton as a ih =>
      rw [receiveAll_concat, receive_eq, List.flatMap_append, Recent.writeAll_append, ← ih]
      simp

theorem receiveAll_flights (r : Record K) (f : RatioFilter K) (as : List (Arrival K)) :
    (r.receiveAll f as).flights = r.flights.writeAll (as.flatMap Arrival.flights) := by
  induction as using List.reverseRecOn with
  | nil => rfl
  | append_singleton as a ih =>
      rw [receiveAll_concat, receive_eq, List.flatMap_append, Recent.writeAll_append, ← ih]
      simp

end Record

namespace Receiver

/-! ## Handling several packets -/

/-- Handle packets in order. The flags tell which of them had reliable timing. -/
def run (r : Receiver K) : List (Arrival K) → Except StaleHandle (List Bool × Receiver K)
  | [] => return ([], r)
  | a :: as => do
    let (reliable, r) ← r.handle a.broadcast a.rxTime a.now
    let (flags, r) ← r.run as
    return (reliable :: flags, r)

/-- The receiver after some packets. -/
def afterAll (r : Receiver K) (as : List (Arrival K)) : Receiver K :=
  as.foldl after r

/-- Which of some packets have reliable timing. -/
def flags (r : Receiver K) : List (Arrival K) → List Bool
  | [] => []
  | a :: as => r.reliable a :: (r.after a).flags as

@[simp] theorem afterAll_nil (r : Receiver K) : r.afterAll [] = r := rfl

@[simp] theorem afterAll_cons (r : Receiver K) (a : Arrival K) (as : List (Arrival K)) :
    r.afterAll (a :: as) = (r.after a).afterAll as := rfl

@[simp] theorem afterAll_append (r : Receiver K) (as bs : List (Arrival K)) :
    r.afterAll (as ++ bs) = (r.afterAll as).afterAll bs :=
  List.foldl_append

@[simp] theorem afterAll_filter (r : Receiver K) (as : List (Arrival K)) :
    (r.afterAll as).filter = r.filter := by
  induction as generalizing r with
  | nil => rfl
  | cons a as ih => rw [afterAll_cons, ih, after_filter]

@[simp] theorem afterAll_tickFrequency (r : Receiver K) (as : List (Arrival K)) :
    (r.afterAll as).tickFrequency = r.tickFrequency := by
  induction as generalizing r with
  | nil => rfl
  | cons a as ih => rw [afterAll_cons, ih, after_tickFrequency]

@[simp] theorem after_capacity (r : Receiver K) (a : Arrival K) :
    (r.after a).table.capacity = r.table.capacity := by
  rw [after_table, Table.put_capacity, Table.entered_eq]

@[simp] theorem afterAll_capacity (r : Receiver K) (as : List (Arrival K)) :
    (r.afterAll as).table.capacity = r.table.capacity := by
  induction as generalizing r with
  | nil => rfl
  | cons a as ih => rw [afterAll_cons, ih, after_capacity]

@[simp] theorem length_flags (r : Receiver K) (as : List (Arrival K)) :
    (r.flags as).length = as.length := by
  induction as generalizing r with
  | nil => rfl
  | cons a as ih => rw [flags, List.length_cons, List.length_cons, ih]

theorem flags_concat (r : Receiver K) (as : List (Arrival K)) (a : Arrival K) :
    r.flags (as ++ [a]) = r.flags as ++ [(r.afterAll as).reliable a] := by
  induction as generalizing r with
  | nil => rfl
  | cons b as ih =>
      rw [List.cons_append, flags, ih, flags]
      rfl

theorem sound_afterAll {r : Receiver K} (h : r.table.Sound) (as : List (Arrival K)) :
    (r.afterAll as).table.Sound := by
  induction as generalizing r with
  | nil => exact h
  | cons a as ih => exact ih (sound_after h a)

/-- No packet of a run fails. -/
theorem run_eq {r : Receiver K} (h : r.table.Sound) (as : List (Arrival K)) :
    r.run as = .ok (r.flags as, r.afterAll as) := by
  induction as generalizing r with
  | nil => rfl
  | cons a as ih =>
      simp only [run, handle_eq h.hasSlot, ih (sound_after h a), bind, Except.bind, pure,
        Except.pure]
      rfl

/-- A run that does not fail has this outcome. -/
theorem eq_of_run {r r' : Receiver K} (h : r.table.Sound) {as : List (Arrival K)}
    {flags : List Bool} (hrun : r.run as = .ok (flags, r')) :
    flags = r.flags as ∧ r' = r.afterAll as := by
  rw [run_eq h] at hrun
  cases hrun
  exact ⟨rfl, rfl⟩

/-! ## From the start -/

/-- The receiver that some settings describe, with nothing stored. -/
def fresh (s : Settings K) (now : Millis) : Receiver K where
  table := {
    capacity := s.anchorCapacity
    receptionCapacity := s.receptionCapacity
    flightCapacity := s.flightCapacity
    windows := s.windows }
  diagnostics := .start s.statsInterval now
  filter := s.filter
  pairing := { strategy := s.strategy, limit := s.receptionCapacity }
  tickFrequency := s.tickFrequency
  stdDev := s.stdDev

theorem create_table {s : Settings K} (h : s.validate = .ok ()) (now : Millis) :
    Table.create s.anchorCapacity s.receptionCapacity s.flightCapacity s.windows =
      .ok (fresh s now).table := by
  have hvalid := Settings.validate_eq_ok_iff.1 h
  exact Table.create_eq_ok_iff.2 ⟨hvalid.anchorCapacity_ne_zero, hvalid.receptionCapacity_ne_zero,
    hvalid.flightCapacity_ne_zero, rfl⟩

/-- Valid settings are all that is needed to create a receiver. -/
theorem create_eq_ok_iff {s : Settings K} {now : Millis} {r : Receiver K} :
    create s now = .ok r ↔ s.validate = .ok () ∧ r = fresh s now := by
  rw [create, Settings.table]
  cases hvalidate : s.validate with
  | error e => simp [bind, Except.bind]
  | ok u =>
      rw [create_table hvalidate now]
      simp [bind, Except.bind, pure, Except.pure, Except.mapError, fresh, eq_comm]

/-- The standard settings are valid. -/
theorem create_standard (now : Millis) :
    create (K := Float) .standard now = .ok (fresh .standard now) :=
  create_eq_ok_iff.2 ⟨rfl, rfl⟩

theorem sound_of_create {s : Settings K} {now : Millis} {r : Receiver K}
    (h : create s now = .ok r) : r.table.Sound := by
  obtain ⟨hvalidate, rfl⟩ := create_eq_ok_iff.1 h
  exact Table.Sound.of_create (create_table hvalidate now)

/-- The clock filter is the one of the settings, and has passed the check. -/
theorem filter_of_create {s : Settings K} {now : Millis} {r : Receiver K}
    (h : create s now = .ok r) : r.filter = s.filter ∧ r.filter.Valid := by
  obtain ⟨hvalidate, rfl⟩ := create_eq_ok_iff.1 h
  exact ⟨rfl, (Settings.validate_eq_ok_iff.1 hvalidate).filter⟩

/-- Nobody is stored at the start. -/
theorem find?_of_create {s : Settings K} {now : Millis} {r : Receiver K}
    (h : create s now = .ok r) (id : AnchorId) : r.table.find? id = none := by
  obtain ⟨-, rfl⟩ := create_eq_ok_iff.1 h
  rfl

/-! ## The stay of an anchor -/

/-- After the packets `before` an anchor is not stored, and then it is stored all through the
packets `during`. -/
structure Stay (r : Receiver K) (id : AnchorId) (before during : List (Arrival K)) : Prop where
  absent : (r.afterAll before).table.find? id = none
  stored : ∀ as, as <+: during → as ≠ [] →
    ((r.afterAll (before ++ as)).table.find? id).isSome = true

namespace Stay

variable {r : Receiver K} {id : AnchorId} {before during : List (Arrival K)} {a : Arrival K}

/-- A stay can be cut short. -/
theorem of_append (h : r.Stay id before (during ++ [a])) : r.Stay id before during := by
  refine ⟨h.absent, ?_⟩
  intro as has hne
  exact h.stored as (has.trans (List.prefix_append during [a])) hne

/-- A stay goes on while the anchor is stored. -/
theorem append (h : r.Stay id before during)
    (hfind : ((r.afterAll (before ++ (during ++ [a]))).table.find? id).isSome = true) :
    r.Stay id before (during ++ [a]) := by
  refine ⟨h.absent, ?_⟩
  intro as has hne
  rcases List.prefix_concat_iff.1 has with rfl | hbefore
  · exact hfind
  · exact h.stored as hbefore hne

/-- The anchor's own packet begins a stay. -/
theorem singleton (hsound : r.table.Sound) (habsent : (r.afterAll before).table.find? id = none)
    (ha : a.source = id) : r.Stay id before [a] := by
  subst ha
  have hafter := find?_after_self (sound_afterAll hsound before).hasSlot a
  have hempty : r.Stay a.source before [] := by
    refine ⟨habsent, ?_⟩
    intro as has hne
    exact absurd (List.prefix_nil.1 has) hne
  exact hempty.append (by simp [hafter])

end Stay

/-- An anchor that is stored is in a stay, which its own packet began. -/
theorem exists_stay {r : Receiver K} (hsound : r.table.Sound) {id : AnchorId}
    (hstart : r.table.find? id = none) {as : List (Arrival K)}
    (hfind : ((r.afterAll as).table.find? id).isSome = true) :
    ∃ before during, as = before ++ during ∧ r.Stay id before during ∧
      packetsOf id during ≠ [] := by
  induction as using List.reverseRecOn with
  | nil => simp [hstart] at hfind
  | append_singleton as a ih =>
      have hsound' := sound_afterAll hsound as
      cases hstored : (r.afterAll as).table.find? id with
      | some ρ =>
          obtain ⟨before, during, rfl, hstay, hne⟩ := ih (by simp [hstored])
          exact ⟨before, during ++ [a], List.append_assoc .., hstay.append (by simpa using hfind),
            by simp [hne]⟩
      | none =>
          by_cases ha : a.source = id
          · exact ⟨as, [a], rfl, Stay.singleton hsound hstored ha,
              by simp [packetsOf_singleton_of_eq ha]⟩
          · obtain ⟨ρ, hρ⟩ := Option.isSome_iff_exists.1 hfind
            rw [afterAll_append] at hρ
            have hbefore := find?_after_of_ne hsound' a (Ne.symm ha) hρ
            simp [hstored] at hbefore

@[simp] theorem after_blank (r : Receiver K) (a : Arrival K) (id : AnchorId) :
    (r.after a).table.blank id = r.table.blank id := by
  rw [after_table, Table.put_blank, Table.entered_blank]

@[simp] theorem afterAll_blank (r : Receiver K) (as : List (Arrival K)) (id : AnchorId) :
    (r.afterAll as).table.blank id = r.table.blank id := by
  induction as generalizing r with
  | nil => rfl
  | cons a as ih => rw [afterAll_cons, ih, after_blank]

namespace Stay

variable {r : Receiver K} {id : AnchorId} {before during : List (Arrival K)} {a : Arrival K}

/-- Until an anchor's first packet its record is blank. -/
theorem sender_nil (h : r.Stay id before during) :
    (r.afterAll (before ++ [])).table.sender id = r.table.blank id := by
  rw [List.append_nil, Table.sender, h.absent, afterAll_blank]
  rfl

/-- In a stay an anchor's record changes with its own packets only. -/
theorem sender_concat (hsound : r.table.Sound) (h : r.Stay id before (during ++ [a])) :
    (r.afterAll (before ++ (during ++ [a]))).table.sender id =
      if a.source = id then
        ((r.afterAll (before ++ during)).table.sender id).receive r.filter a
      else (r.afterAll (before ++ during)).table.sender id := by
  have hsound' := sound_afterAll hsound (before ++ during)
  split
  · rename_i ha
    have hself := find?_after_self hsound'.hasSlot a
    rw [ha, afterAll_filter] at hself
    rw [← List.append_assoc, afterAll_append]
    exact Table.sender_of_find? hself
  · rename_i ha
    have hstored := h.stored _ (List.prefix_refl _) (by simp)
    obtain ⟨ρ, hρ⟩ := Option.isSome_iff_exists.1 hstored
    rw [← List.append_assoc, afterAll_append] at hρ ⊢
    have hbefore := find?_after_of_ne hsound' a (Ne.symm ha) hρ
    exact (Table.sender_of_find? hρ).trans (Table.sender_of_find? hbefore).symm

/-- The record of an anchor is what its packets since it entered make of a blank one. -/
theorem sender_eq (hsound : r.table.Sound) (h : r.Stay id before during) :
    (r.afterAll (before ++ during)).table.sender id =
      (r.table.blank id).receiveAll r.filter (packetsOf id during) := by
  induction during using List.reverseRecOn with
  | nil => exact h.sender_nil
  | append_singleton during a ih =>
      rw [h.sender_concat hsound, ih h.of_append, packetsOf_append]
      by_cases ha : a.source = id
      · rw [if_pos ha, packetsOf_singleton_of_eq ha, Record.receiveAll_concat]
      · rw [if_neg ha, packetsOf_singleton_of_ne ha, List.append_nil]

end Stay

/-- A stored record comes from the packets of a stay, of which there is at least one. -/
theorem exists_record_eq {r : Receiver K} (hsound : r.table.Sound) {id : AnchorId}
    (hstart : r.table.find? id = none) {as : List (Arrival K)} {ρ : Record K}
    (hfind : (r.afterAll as).table.find? id = some ρ) :
    ∃ before during, as = before ++ during ∧ r.Stay id before during ∧
      packetsOf id during ≠ [] ∧
      ρ = (r.table.blank id).receiveAll r.filter (packetsOf id during) := by
  obtain ⟨before, during, rfl, hstay, hne⟩ :=
    exists_stay hsound hstart (Option.isSome_iff_exists.2 ⟨ρ, hfind⟩)
  have hrecord := hstay.sender_eq hsound
  rw [Table.sender_of_find? hfind] at hrecord
  exact ⟨before, during, rfl, hstay, hne, hrecord⟩

/-- The lists of a stored record are sound. -/
theorem sound_receptions_of_find? {r : Receiver K} (hsound : r.table.Sound) {id : AnchorId}
    (hstart : r.table.find? id = none) {as : List (Arrival K)} {ρ : Record K}
    (hfind : (r.afterAll as).table.find? id = some ρ) : ρ.receptions.Sound := by
  obtain ⟨before, during, -, -, -, rfl⟩ := exists_record_eq hsound hstart hfind
  rw [Record.receiveAll_receptions]
  exact (Recent.Sound.empty hsound.receptions_pos).writeAll _

/-- The stored times are those of the anchor's last packet. -/
theorem last_packet_of_find? {r : Receiver K} (hsound : r.table.Sound) {id : AnchorId}
    (hstart : r.table.find? id = none) {as : List (Arrival K)} {ρ : Record K}
    (hfind : (r.afterAll as).table.find? id = some ρ) :
    ∃ a, (packetsOf id as).getLast? = some a ∧ ρ.rxTime = some a.rxTime ∧
      ρ.txTime = some a.broadcast.txTime ∧
      ρ.sequence = a.broadcast.sequence &&& sequenceMask ∧ ρ.lastUpdate = a.now := by
  obtain ⟨before, during, rfl, -, hne, rfl⟩ := exists_record_eq hsound hstart hfind
  obtain ⟨packets, a, hlast⟩ := (List.eq_nil_or_concat (packetsOf id during)).resolve_left hne
  refine ⟨a, by simp [hlast], ?_⟩
  rw [hlast, List.concat_eq_append, Record.receiveAll_concat, Record.receive_eq]
  exact ⟨rfl, rfl, rfl, rfl⟩

/-- What is stored about a neighbour is the last that the anchor reported about it. -/
theorem last_report_of_stored? {r : Receiver K} (hsound : r.table.Sound) {id : AnchorId}
    (hstart : r.table.find? id = none) {as : List (Arrival K)} {ρ : Record K}
    (hfind : (r.afterAll as).table.find? id = some ρ) {neighbour : AnchorId}
    {e : Entry Reception} (he : ρ.receptions.stored? neighbour = some e) :
    (((packetsOf id as).flatMap Arrival.receptions).filter (·.key = neighbour)).getLast? =
      some e := by
  obtain ⟨before, during, rfl, -, -, rfl⟩ := exists_record_eq hsound hstart hfind
  rw [Record.receiveAll_receptions] at he
  have hlast := Recent.eq_getLast?_of_stored?_writeAll hsound.receptions_pos he
  rw [packetsOf_append, List.flatMap_append, List.filter_append, List.getLast?_append, hlast]
  rfl

end Receiver

end Ranging

import Ranging.Proofs.Run

/-!
# Anchors keep to themselves

Packets of different anchors share a receiver: its table, its clock filter, its strategy. Others can
take an anchor's slot, but as long as the anchor is stored they reach neither its record nor the
verdict of the clock filter on its packets. Both are what the anchor's own packets since it entered
make of a blank record (`Stay.sender_eq`, `Stay.answersFor_eq`).

Two receivers with the same filter and the same room for reports can therefore not be told apart by
an anchor that sent the same packets to both. Everything else may differ: who else sends and when,
who is evicted, the anchor's slot, the strategy, and the validity windows.
-/

namespace Ranging

variable {K : Type}

/-- The flags that belong to the packets of one anchor. -/
def answersFor (id : AnchorId) (as : List (Arrival K)) (flags : List Bool) : List Bool :=
  ((as.zip flags).filter (·.1.source = id)).map (·.2)

theorem answersFor_concat {id : AnchorId} {as : List (Arrival K)} {flags : List Bool}
    (h : as.length = flags.length) (a : Arrival K) (flag : Bool) :
    answersFor id (as ++ [a]) (flags ++ [flag]) =
      answersFor id as flags ++ if a.source = id then [flag] else [] := by
  rw [answersFor, answersFor, List.zip_append h, List.filter_append, List.map_append]
  by_cases ha : a.source = id <;> simp [ha]

variable [Scalar K]

namespace Record

/-- Which of some packets of its anchor the clock filter finds reliable, going by the record. -/
def flags (r : Record K) (f : RatioFilter K) : List (Arrival K) → List Bool
  | [] => []
  | a :: as => (r.timing f a).1 :: (r.receive f a).flags f as

theorem flags_concat (r : Record K) (f : RatioFilter K) (as : List (Arrival K)) (a : Arrival K) :
    r.flags f (as ++ [a]) = r.flags f as ++ [((r.receiveAll f as).timing f a).1] := by
  induction as generalizing r with
  | nil => rfl
  | cons b as ih =>
      rw [List.cons_append, flags, ih, flags]
      rfl

end Record

namespace Receiver

/-- An anchor stays exactly if it is absent first and stored after every further packet. -/
theorem stay_iff {r : Receiver K} {id : AnchorId} {before during : List (Arrival K)} :
    r.Stay id before during ↔ ((r.afterAll before).table.find? id).isNone = true ∧
      ∀ n ∈ List.range during.length,
        ((r.afterAll (before ++ during.take (n + 1))).table.find? id).isSome = true := by
  rw [Option.isNone_iff_eq_none]
  constructor
  · intro h
    refine ⟨h.absent, ?_⟩
    intro n hn
    apply h.stored _ (List.take_prefix ..)
    intro hnil
    have hlt := List.mem_range.1 hn
    have hzero := congrArg List.length hnil
    rw [List.length_take, List.length_nil] at hzero
    omega
  · rintro ⟨habsent, hstored⟩
    refine ⟨habsent, ?_⟩
    intro as has hne
    have hpos := List.length_pos_iff.2 hne
    have hle := has.length_le
    have hlast := hstored (as.length - 1) (List.mem_range.2 (by omega))
    rwa [Nat.sub_add_cancel hpos, ← List.prefix_iff_eq_take.1 has] at hlast

instance (r : Receiver K) (id : AnchorId) (before during : List (Arrival K)) :
    Decidable (r.Stay id before during) :=
  decidable_of_iff _ stay_iff.symm

namespace Stay

variable {r : Receiver K} {id : AnchorId} {before during : List (Arrival K)}

/-- In a stay the verdicts on an anchor's packets are those that its own record gives. -/
theorem answersFor_eq (hsound : r.table.Sound) (h : r.Stay id before during) :
    answersFor id during ((r.afterAll before).flags during) =
      (r.table.blank id).flags r.filter (packetsOf id during) := by
  induction during using List.reverseRecOn with
  | nil => rfl
  | append_singleton during a ih =>
      rw [flags_concat, answersFor_concat (length_flags ..).symm, ih h.of_append, packetsOf_append]
      by_cases ha : a.source = id
      · have hrecord := h.of_append.sender_eq hsound
        rw [if_pos ha, packetsOf_singleton_of_eq ha, Record.flags_concat, ← hrecord,
          ← afterAll_append, reliable, ha, afterAll_filter]
      · rw [if_neg ha, packetsOf_singleton_of_ne ha, List.append_nil, List.append_nil]

/-- An anchor of which a packet was handled in its stay is stored, with the record that its packets
give. -/
theorem find?_eq (hsound : r.table.Sound) (h : r.Stay id before during)
    (hne : packetsOf id during ≠ []) :
    (r.afterAll (before ++ during)).table.find? id =
      some ((r.table.blank id).receiveAll r.filter (packetsOf id during)) := by
  have hduring : during ≠ [] := by
    rintro rfl
    exact hne rfl
  obtain ⟨ρ, hρ⟩ := Option.isSome_iff_exists.1 (h.stored during (List.prefix_refl _) hduring)
  rw [hρ, ← h.sender_eq hsound, Table.sender_of_find? hρ]

end Stay

/-- In two runs that give an anchor the same packets since it entered, it gets the same answers and
ends with the same record. The settings need to agree on the clock filter and on the room for
reports only. -/
theorem record_of_same_packets {s s' : Settings K} {start start' : Millis} {r r' : Receiver K}
    (hcreate : create s start = .ok r) (hcreate' : create s' start' = .ok r')
    (hfilter : s'.filter = s.filter) (hreceptions : s'.receptionCapacity = s.receptionCapacity)
    (hflights : s'.flightCapacity = s.flightCapacity) {id : AnchorId}
    {before during before' during' : List (Arrival K)} (hstay : r.Stay id before during)
    (hstay' : r'.Stay id before' during') (hpackets : packetsOf id during' = packetsOf id during)
    (hne : packetsOf id during ≠ []) :
    ∃ answers ρ flags₁ flags₂ flags₁' flags₂' q₁ q₂ q₁' q₂',
      r.run before = .ok (flags₁, q₁) ∧ q₁.run during = .ok (flags₂, q₂) ∧
      r'.run before' = .ok (flags₁', q₁') ∧ q₁'.run during' = .ok (flags₂', q₂') ∧
      answersFor id during flags₂ = answers ∧ answersFor id during' flags₂' = answers ∧
      q₂.table.find? id = some ρ ∧ q₂'.table.find? id = some ρ := by
  have hsound := sound_of_create hcreate
  have hsound' := sound_of_create hcreate'
  have hanswers := hstay.answersFor_eq hsound
  have hanswers' := hstay'.answersFor_eq hsound'
  have hrecord := hstay.find?_eq hsound hne
  have hrecord' := hstay'.find?_eq hsound' (by rwa [hpackets])
  obtain ⟨-, rfl⟩ := create_eq_ok_iff.1 hcreate
  obtain ⟨-, rfl⟩ := create_eq_ok_iff.1 hcreate'
  have hblank : (fresh s' start').table.blank id = (fresh s start).table.blank id := by
    simp [Table.blank, fresh, hreceptions, hflights]
  have hsame : (fresh s' start').filter = (fresh s start).filter := hfilter
  rw [hpackets, hblank, hsame] at hanswers' hrecord'
  rw [afterAll_append] at hrecord hrecord'
  exact ⟨_, _, _, _, _, _, _, _, _, _, run_eq hsound before,
    run_eq (sound_afterAll hsound before) during, run_eq hsound' before',
    run_eq (sound_afterAll hsound' before') during', hanswers, hanswers', hrecord, hrecord'⟩

/-- Three packets of anchor 1. The second one has a report. -/
def threeCalls : List (Arrival Float) :=
  [⟨⟨⟨1⟩, 1000000, 0, [], some ⟨3.0, 0.0, 0.0⟩⟩, 5000000, 0⟩,
    ⟨⟨⟨1⟩, 641000000, 1, [⟨⟨2⟩, 322000000, 0, 50⟩], none⟩, 645000000, 10⟩,
    ⟨⟨⟨1⟩, 1281000000, 2, [], none⟩, 1285000000, 20⟩]

/-- A packet of another anchor. -/
def otherCall (id : UInt8) (now : Millis) : Arrival Float :=
  ⟨⟨⟨id⟩, 0, 0, [], some ⟨0.0, 0.0, 0.0⟩⟩, 324500000, now⟩

/-- Anchor 2 is heard while anchor 1 stays, and makes room for anchor 3. -/
def busyStay : List (Arrival Float) :=
  threeCalls.take 1 ++ [otherCall 2 5] ++ (threeCalls.drop 1).take 1 ++ [otherCall 3 15] ++
    threeCalls.drop 2

/-- One slot, and nobody is paired. -/
def narrow : Settings Float :=
  { Settings.standard with anchorCapacity := 1, strategy := .never }

/-- Two slots. -/
def wide : Settings Float :=
  { Settings.standard with anchorCapacity := 2 }

/-- In the narrow table the stay of anchor 1 is its second, and undisturbed. In the wide one it
takes its slot from another anchor, and others come and go. -/
theorem record_of_same_packets_secondStay :
    ∃ answers ρ flags₁ flags₂ flags₁' flags₂' q₁ q₂ q₁' q₂',
      (fresh narrow 0).run (threeCalls.take 1 ++ [otherCall 2 5]) = .ok (flags₁, q₁) ∧
      q₁.run threeCalls = .ok (flags₂, q₂) ∧
      (fresh wide 7).run [otherCall 4 0, otherCall 5 5] = .ok (flags₁', q₁') ∧
      q₁'.run busyStay = .ok (flags₂', q₂') ∧
      answersFor ⟨1⟩ threeCalls flags₂ = answers ∧ answersFor ⟨1⟩ busyStay flags₂' = answers ∧
      q₂.table.find? ⟨1⟩ = some ρ ∧ q₂'.table.find? ⟨1⟩ = some ρ := by
  have hcreate : create narrow 0 = .ok (fresh narrow 0) := create_eq_ok_iff.2 ⟨rfl, rfl⟩
  have hcreate' : create wide 7 = .ok (fresh wide 7) := create_eq_ok_iff.2 ⟨rfl, rfl⟩
  have hstay : (fresh narrow 0).Stay ⟨1⟩ (threeCalls.take 1 ++ [otherCall 2 5]) threeCalls := by
    decide +kernel
  have hstay' : (fresh wide 7).Stay ⟨1⟩ [otherCall 4 0, otherCall 5 5] busyStay := by
    decide +kernel
  exact record_of_same_packets hcreate hcreate' rfl rfl rfl hstay hstay' rfl (by decide)

end Receiver

end Ranging

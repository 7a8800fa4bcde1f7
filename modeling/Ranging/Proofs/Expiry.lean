import Ranging.Proofs.TimedTable

/-!
# When values expire

Nothing is ever swept out of a table. A value that has outlived its window stays where it is, and a
read has to tell from two readings of the millisecond clock that it has. So a read is exact as long
as no two of the times involved are a period of the clock apart.

`Table.expiry_exact` says what is read through a handle in terms of true times: the last value
written since the anchor entered, while its window lasts. A report about a neighbour has to be the
last one about this neighbour, and its place must not have gone to another neighbour since. A time of
flight to the tag has no window; there the reader says how old it may be.
-/

namespace Ranging

variable {K : Type}

/-- A dated value passes a check of its stamp if its true time passes the check it stands for. -/
theorem Timed.filter_map_stamped_eq_some_iff {α : Type} {last : Option (Timed α)}
    {p : Stamped α → Bool} {q : Timed α → Prop}
    (h : ∀ x, last = some x → (p x.stamped = true ↔ q x)) (s : Stamped α) :
    (last.map stamped).filter p = some s ↔ ∃ x, last = some x ∧ q x ∧ x.stamped = s := by
  rw [Option.filter_eq_some_iff, Option.map_eq_some_iff]
  constructor
  · rintro ⟨⟨x, hx, rfl⟩, hp⟩
    exact ⟨x, hx, (h x hx).1 hp, rfl⟩
  · rintro ⟨x, hx, hq, rfl⟩
    exact ⟨⟨x, hx, rfl⟩, (h x hx).2 hq⟩

/-- An entry is kept for as long as its window lasts, in true time, unless another neighbour has
taken its place. -/
theorem Recent.keeps_entries_iff {α : Type} {reports : List (Timed (AnchorId × α))} {now : Nat}
    {neighbour : AnchorId} (hspan : ∀ p ∈ reports, p.time ≤ now ∧ now < p.time + 2 ^ 32)
    (capacity : Nat) (window : Millis) (value : α) :
    Keeps capacity (reports.map Timed.entry) window (Millis.ofTime now) neighbour value ↔
      ∃ last, Recency.last? Timed.neighbour reports neighbour = some last ∧
        now - last.time < window.toNat ∧ last.value.2 = value ∧
        ¬ Displaced capacity (reports.map Timed.entry) neighbour := by
  rw [Keeps, Timed.getLast?_filter_entries]
  cases hlast : Recency.last? Timed.neighbour reports neighbour with
  | none => simp
  | some last =>
      obtain ⟨hle, hlt⟩ := hspan last (Recency.mem_of_last? hlast).1
      have hfresh := Millis.isFresh_ofTime hle hlt window
      rw [Millis.isFresh, decide_eq_true_iff] at hfresh
      constructor
      · rintro ⟨e, he, hvalue, hage, hkept⟩
        obtain rfl := Option.some.inj he
        exact ⟨last, rfl, hfresh.1 hage, hvalue, hkept⟩
      · rintro ⟨last', hlast', hage, hvalue, hkept⟩
        obtain rfl := Option.some.inj hlast'
        exact ⟨_, rfl, hvalue, hfresh.2 hage, hkept⟩

namespace Table

variable [Scalar K] {capacity receptionCapacity flightCapacity : Nat} {windows : Windows}
  {t₀ t : Table K} {as : List (Timed (Action K))} {os : List (Timed (Outcome K))}

/-- What is read through a handle of a table that has been used is what has been written for its
anchor since it entered. -/
theorem recalls_of_performAt
    (hcreate : create capacity receptionCapacity flightCapacity windows = .ok t₀)
    (hused : t₀.performAt as = (os, t)) {h : Handle} (hholds : t.Holds h) :
    t.Recalls h ((writesAt h.id os).map Timed.stamped) := by
  obtain ⟨hsound, -⟩ := sound_of_performAt hcreate hused
  obtain ⟨r, hread⟩ := holds_iff.1 hholds
  rw [record_of_performAt hcreate hused (slot?_of_read hsound hread).2] at hread
  exact recalls_of_read hsound hread

/-- What is read through a handle of a table, in true times. -/
theorem expiry_exact
    (hcreate : create capacity receptionCapacity flightCapacity windows = .ok t₀)
    (hused : t₀.performAt as = (os, t)) {h : Handle} (hholds : t.Holds h) {now : Nat}
    (hnow : h.now = Millis.ofTime now)
    (hspan : ∀ a ∈ as, a.time ≤ now ∧ now < a.time + 2 ^ 32) :
    (∃ found, t.position? h = .ok found ∧ ∀ position, found = some position ↔
      ∃ last, Write.lastAt? Write.position? (writesAt h.id os) = some last ∧
        now - last.time < windows.position.toNat ∧ last.stamped = position) ∧
    (∀ neighbour, ∃ found, t.reception? h neighbour = .ok found ∧ ∀ reception,
      found = some reception ↔
        ∃ last, Recency.last? Timed.neighbour (Write.reports Write.reception? (writesAt h.id os))
            neighbour = some last ∧
          now - last.time < windows.reception.toNat ∧ last.value.2 = reception ∧
          ¬ Recent.Displaced receptionCapacity
            ((Write.reports Write.reception? (writesAt h.id os)).map Timed.entry) neighbour) ∧
    (∀ neighbour, ∃ found, t.flight? h neighbour = .ok found ∧ ∀ flight, found = some flight ↔
      ∃ last, Recency.last? Timed.neighbour (Write.reports Write.flight? (writesAt h.id os))
          neighbour = some last ∧
        now - last.time < windows.flight.toNat ∧ last.value.2 = flight ∧
        ¬ Recent.Displaced flightCapacity
          ((Write.reports Write.flight? (writesAt h.id os)).map Timed.entry) neighbour) ∧
    ∀ oldest, (∀ a ∈ as, a.time < oldest + 2 ^ 31 ∧ oldest ≤ a.time + 2 ^ 31) →
      ∃ found, t.tagFlight? h (Millis.ofTime oldest) = .ok found ∧ ∀ flight,
        found = some flight ↔
          ∃ last, Write.lastAt? Write.tagFlight? (writesAt h.id os) = some last ∧
            oldest ≤ last.time ∧ last.value = flight := by
  have hrecalls := recalls_of_performAt hcreate hused hholds
  obtain ⟨-, hwindows⟩ := sound_of_performAt hcreate hused
  obtain ⟨hreception, hflight⟩ := capacities_of_performAt hcreate hused
  have htimes {α : Type} {kind : Write K → Option α} :
      ∀ p ∈ Write.reports kind (writesAt h.id os), p.time ≤ now ∧ now < p.time + 2 ^ 32 := by
    intro p hp
    obtain ⟨a, ha, htime⟩ := exists_time_of_mem_reports hused hp
    rw [← htime]
    exact hspan a ha
  refine ⟨⟨_, hrecalls.position, ?_⟩, ?_, ?_, ?_⟩
  · intro position
    rw [Write.last?_map_stamped, hwindows, hnow]
    apply Timed.filter_map_stamped_eq_some_iff
    intro last hlast
    obtain ⟨hle, hlt⟩ := htimes last (List.mem_of_getLast? hlast)
    exact Millis.isFresh_ofTime hle hlt _
  · intro neighbour
    obtain ⟨found, hfound, hvalue⟩ := hrecalls.reception neighbour
    refine ⟨found, hfound, fun reception => ?_⟩
    rw [hvalue, hreception, hwindows, hnow, Write.entries_map_stamped]
    exact Recent.keeps_entries_iff htimes _ _ _
  · intro neighbour
    obtain ⟨found, hfound, hvalue⟩ := hrecalls.flight neighbour
    refine ⟨found, hfound, fun flight => ?_⟩
    rw [hvalue, hflight, hwindows, hnow, Write.entries_map_stamped]
    exact Recent.keeps_entries_iff htimes _ _ _
  · intro oldest hhalf
    refine ⟨_, hrecalls.tagFlight (Millis.ofTime oldest), ?_⟩
    have hsince (f : Stamped Ticks) :
        ((Write.lastAt? Write.tagFlight? (writesAt h.id os)).map Timed.stamped).filter
            (fun f => Millis.notBefore f.written (Millis.ofTime oldest)) = some f ↔
          ∃ last, Write.lastAt? Write.tagFlight? (writesAt h.id os) = some last ∧
            oldest ≤ last.time ∧ last.stamped = f := by
      apply Timed.filter_map_stamped_eq_some_iff
      intro last hlast
      obtain ⟨a, ha, htime⟩ := exists_time_of_mem_reports hused (List.mem_of_getLast? hlast)
      obtain ⟨hlate, hearly⟩ := hhalf a ha
      rw [htime] at hlate hearly
      exact Millis.notBefore_ofTime hlate hearly
    intro flight
    rw [Write.last?_map_stamped, Option.map_eq_some_iff]
    simp only [hsince]
    constructor
    · rintro ⟨-, ⟨last, hlast, hage, rfl⟩, rfl⟩
      exact ⟨last, hlast, hage, rfl⟩
    · rintro ⟨last, hlast, hage, rfl⟩
      exact ⟨_, ⟨last, hlast, hage, rfl⟩, rfl⟩

/-- Anchor 1 enters 10 ms before the millisecond clock starts over. Its position and its report on
anchor 2 are stored at once, its time of flight to the tag 4 ms after the clock has started over.
In between anchor 3 comes up. -/
def acrossRestart : List (Timed (Action Float)) :=
  [⟨.enter ⟨1⟩, 2 ^ 32 - 10⟩, ⟨.set 0 ⟨1⟩ (.position ⟨1.0, 2.0, 3.0⟩), 2 ^ 32 - 10⟩,
    ⟨.set 0 ⟨1⟩ (.reception ⟨2⟩ ⟨7, 0⟩), 2 ^ 32 - 10⟩, ⟨.enter ⟨3⟩, 2 ^ 32 - 1⟩,
    ⟨.set 1 ⟨3⟩ (.position ⟨4.0, 5.0, 6.0⟩), 2 ^ 32⟩,
    ⟨.set 0 ⟨1⟩ (.reception ⟨3⟩ ⟨8, 0⟩), 2 ^ 32 + 2⟩, ⟨.set 0 ⟨1⟩ (.tagFlight 55), 2 ^ 32 + 4⟩]

/-- What is written for anchor 1. -/
def writtenAcrossRestart : List (Timed (Write Float)) :=
  [⟨.position ⟨1.0, 2.0, 3.0⟩, 2 ^ 32 - 10⟩, ⟨.reception ⟨2⟩ ⟨7, 0⟩, 2 ^ 32 - 10⟩,
    ⟨.reception ⟨3⟩ ⟨8, 0⟩, 2 ^ 32 + 2⟩, ⟨.tagFlight 55, 2 ^ 32 + 4⟩]

/-- Just when the window of the first report has passed, the report is gone. The position, the other
report and the time of flight are there, but not for a reader who wants a younger time of flight. -/
theorem expiry_exact_acrossRestart : ∃ (t₀ t : Table Float) (os : List (Timed (Outcome Float))),
    create 16 16 16 {} = .ok t₀ ∧ t₀.performAt acrossRestart = (os, t) ∧
    t.position? ⟨0, ⟨1⟩, 20⟩ = .ok (some ⟨⟨1.0, 2.0, 3.0⟩, Millis.ofTime (2 ^ 32 - 10)⟩) ∧
    t.reception? ⟨0, ⟨1⟩, 20⟩ ⟨2⟩ = .ok none ∧
    t.reception? ⟨0, ⟨1⟩, 20⟩ ⟨3⟩ = .ok (some ⟨8, 0⟩) ∧
    t.tagFlight? ⟨0, ⟨1⟩, 20⟩ (Millis.ofTime (2 ^ 32 + 4)) = .ok (some 55) ∧
    t.tagFlight? ⟨0, ⟨1⟩, 20⟩ (Millis.ofTime (2 ^ 32 + 5)) = .ok none := by
  have hcreate : create (K := Float) 16 16 16 {} = .ok ⟨16, 16, 16, {}, []⟩ := rfl
  obtain ⟨os, t, hused, hwritten, hholds⟩ : ∃ os t,
      (⟨16, 16, 16, {}, []⟩ : Table Float).performAt acrossRestart = (os, t) ∧
        writesAt ⟨1⟩ os = writtenAcrossRestart ∧ t.Holds ⟨0, ⟨1⟩, 20⟩ :=
    ⟨_, _, rfl, rfl, _, rfl, rfl⟩
  have hnow : (20 : Millis) = Millis.ofTime (2 ^ 32 + 20) := rfl
  have htimes : ∀ a ∈ acrossRestart, 2 ^ 32 - 10 ≤ a.time ∧ a.time ≤ 2 ^ 32 + 4 := by
    unfold acrossRestart
    simp
  have hspan : ∀ a ∈ acrossRestart, a.time ≤ 2 ^ 32 + 20 ∧ 2 ^ 32 + 20 < a.time + 2 ^ 32 := by
    intro a ha
    have htime := htimes a ha
    omega
  have hhalf : ∀ oldest, 2 ^ 32 ≤ oldest → oldest < 2 ^ 32 + 10 → ∀ a ∈ acrossRestart,
      a.time < oldest + 2 ^ 31 ∧ oldest ≤ a.time + 2 ^ 31 := by
    intro oldest hlow hhigh a ha
    have htime := htimes a ha
    omega
  have hkept : ¬ Recent.Displaced 16
      ((Write.reports Write.reception? writtenAcrossRestart).map Timed.entry) ⟨3⟩ :=
    ((Recent.stored?_writeAll_iff (e := ⟨⟨⟨8, 0⟩, 2⟩, ⟨3⟩⟩) (by decide)).1 rfl).2
  obtain ⟨⟨position, hposition, hposition_iff⟩, hreception, -, htagFlight⟩ :=
    expiry_exact hcreate hused hholds hnow hspan
  obtain ⟨expired, hexpired, hexpired_iff⟩ := hreception ⟨2⟩
  obtain ⟨reported, hreported, hreported_iff⟩ := hreception ⟨3⟩
  obtain ⟨recent, hrecent, hrecent_iff⟩ := htagFlight (2 ^ 32 + 4) (hhalf _ (by decide) (by decide))
  obtain ⟨older, holder, holder_iff⟩ := htagFlight (2 ^ 32 + 5) (hhalf _ (by decide) (by decide))
  rw [hwritten] at hposition_iff hexpired_iff hreported_iff hrecent_iff holder_iff
  refine ⟨_, t, os, hcreate, hused, ?_, ?_, ?_, ?_, ?_⟩
  · rw [hposition, (hposition_iff _).2 ⟨_, rfl, by decide, rfl⟩]
    rfl
  · rw [hexpired]
    refine congrArg Except.ok (Option.eq_none_iff_forall_ne_some.2 fun reception hsome => ?_)
    obtain ⟨last, hlast, hage, -⟩ := (hexpired_iff _).1 hsome
    cases hlast
    exact absurd hage (by decide)
  · rw [hreported, (hreported_iff _).2 ⟨_, rfl, by decide, rfl, hkept⟩]
    rfl
  · rw [hrecent, (hrecent_iff _).2 ⟨_, rfl, by decide, rfl⟩]
    rfl
  · rw [holder]
    refine congrArg Except.ok (Option.eq_none_iff_forall_ne_some.2 fun flight hsome => ?_)
    obtain ⟨last, hlast, hsince, -⟩ := (holder_iff _).1 hsome
    cases hlast
    exact absurd hsince (by decide)

end Table

end Ranging

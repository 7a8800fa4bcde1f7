import Ranging.Proofs.TableHistory

/-!
# Neighbours listed and neighbours searched for

What an anchor reported on its neighbours can be read in two ways. A listing goes through all
entries, leaves out those that have expired and writes the others into a buffer. A search takes the
first entry for one neighbour and only then looks at its age. The two would disagree about a
neighbour that has an expired entry in front of a valid one, or two valid ones.

There is no such neighbour: every write keeps the entries of a list apart by neighbour, whatever
their ages, and an anchor that enters starts with empty lists (`Table.lists_of_performAll`). So what
a listing writes into a buffer that is long enough is what searches find, and a shorter buffer gets
the front of it (`Table.listing_agrees`).
-/

namespace Ranging.Table

variable {K : Type}

/-! ## Buffers -/

/-- What a buffer holds after items have been written into it: as many of them as fit, in their
order, and behind them what it held before. -/
structure Filled {α : Type} (buffer items : List α) (count : Nat) (after : List α) : Prop where
  count_eq : count = min buffer.length items.length
  length_eq : after.length = buffer.length
  front : ∀ i < count, after[i]? = items[i]?
  rest : ∀ i, count ≤ i → after[i]? = buffer[i]?

theorem filled_fill {α : Type} (buffer items : List α) :
    Filled buffer items (fill buffer items).1 (fill buffer items).2 := by
  have hcount : (fill buffer items).1 = min buffer.length items.length := List.length_take
  refine ⟨hcount, length_fill buffer items, ?_, ?_⟩
  · intro i hi
    have hlt : i < (items.take buffer.length).length := hi
    rw [fill, List.getElem?_append_left hlt, List.getElem?_take_of_lt]
    omega
  · intro i hi
    have hle : (items.take buffer.length).length ≤ i := hi
    rw [fill, List.getElem?_append_right hle, List.getElem?_drop, Nat.add_sub_cancel' hle]

/-- This determines the buffer. -/
theorem Filled.eq_append {α : Type} {buffer items after : List α} {count : Nat}
    (h : Filled buffer items count after) : after = items.take count ++ buffer.drop count := by
  have hlength : (items.take count).length = count := by
    rw [List.length_take, h.count_eq]
    omega
  apply List.ext_getElem?
  intro i
  rcases Nat.lt_or_ge i count with hi | hi
  · rw [h.front i hi, List.getElem?_append_left (by omega), List.getElem?_take_of_lt hi]
  · rw [h.rest i hi, List.getElem?_append_right (by omega), hlength, List.getElem?_drop,
      Nat.add_sub_cancel' hi]

/-- With room for all items they are all there. -/
theorem Filled.take_eq {α : Type} {buffer items after : List α} {count : Nat}
    (h : Filled buffer items count after) (hroom : items.length ≤ buffer.length) :
    after.take count = items := by
  have hcount : count = items.length := h.count_eq.trans (Nat.min_eq_right hroom)
  rw [h.eq_append, hcount, List.take_length, List.take_left]

/-! ## Listing and searching -/

/-- What is listed is what searches find: each neighbour is listed once at most, and with the
sequence number that a search for it finds. One for which nothing is found is not listed. -/
structure Agrees (t : Table K) (h : Handle) (listed : List (AnchorId × UInt8)) : Prop where
  nodup : (listed.map (·.1)).Nodup
  mem_iff : ∀ neighbour, ∃ found, t.reception? h neighbour = .ok found ∧
    ∀ sequence, (neighbour, sequence) ∈ listed ↔ ∃ reception, found = some reception ∧
      reception.sequence = sequence

theorem agrees_heard {t : Table K} {h : Handle} {r : Record K} (hread : t.read h = .ok r)
    (hlist : r.receptions.Sound) : t.Agrees h (r.heard t.windows h.now) := by
  refine ⟨nodup_heard hlist t.windows h.now, ?_⟩
  intro neighbour
  refine ⟨r.reception? t.windows h.now neighbour, by rw [reception?, hread]; rfl, ?_⟩
  intro sequence
  exact Record.mem_heard_iff hlist

theorem heardInto_of_read {t : Table K} {h : Handle} {r : Record K} (hread : t.read h = .ok r)
    (buffer : List (AnchorId × UInt8)) :
    t.heardInto h buffer = .ok (fill buffer (r.heard t.windows h.now)) := by
  rw [heardInto, Table.heard, hread]
  rfl

theorem flight?_of_read {t : Table K} {h : Handle} {r : Record K} (hread : t.read h = .ok r)
    (neighbour : AnchorId) :
    t.flight? h neighbour = .ok (r.flights.find? t.windows.flight h.now neighbour) := by
  rw [flight?, hread]
  rfl

variable [Scalar K] {capacity receptionCapacity flightCapacity : Nat} {windows : Windows}
  {t₀ t : Table K} {cs : List (Command K)}

/-- However a table was used, a listing gives what searches find. A buffer with room for all valid
reports gets each neighbour once, with the sequence number that a search for it finds, and a shorter
one the first of them, in the order of the list. In the list of times of flight a search finds every
entry that is still valid, and nothing else. -/
theorem listing_agrees
    (hcreate : create capacity receptionCapacity flightCapacity windows = .ok t₀)
    (hused : (t₀.performAll cs).2 = t) {h : Handle} (hholds : t.Holds h) :
    ∃ r valid, t.read h = .ok r ∧
      (r.receptions.entries.map (·.key)).Nodup ∧ (r.flights.entries.map (·.key)).Nodup ∧
      valid = (r.receptions.entries.filter fun e =>
        Millis.since e.written h.now < windows.reception).map (fun e => (e.key, e.value.sequence)) ∧
      (∀ buffer, ∃ count after, t.heardInto h buffer = .ok (count, after) ∧
        Filled buffer valid count after ∧
        (valid.length ≤ buffer.length → t.Agrees h (after.take count))) ∧
      ∀ neighbour, ∃ found, t.flight? h neighbour = .ok found ∧ ∀ flight, found = some flight ↔
        ∃ e ∈ r.flights.entries, Millis.since e.written h.now < windows.flight ∧
          e.key = neighbour ∧ e.value = flight := by
  obtain ⟨r, hread⟩ := holds_iff.1 hholds
  obtain ⟨⟨hreceptions, -⟩, hflights, -⟩ := lists_of_performAll hcreate hused hread
  obtain ⟨-, -, -, hempty⟩ := create_eq_ok_iff.1 hcreate
  have hwindows : t.windows = windows := by rw [← hused, performAll_eq t₀ cs, hempty]
  -- The valid entries are what `heard` is made of.
  refine ⟨r, r.heard windows h.now, hread, hreceptions.keys_nodup, hflights.keys_nodup, rfl, ?_, ?_⟩
  · intro buffer
    have hfilled := filled_fill buffer (r.heard windows h.now)
    refine ⟨_, _, by rw [heardInto_of_read hread, hwindows], hfilled, ?_⟩
    intro hroom
    rw [hfilled.take_eq hroom, ← hwindows]
    exact agrees_heard hread hreceptions
  · intro neighbour
    refine ⟨_, flight?_of_read hread neighbour, ?_⟩
    intro flight
    rw [hwindows, Recent.find?_eq_some_iff_mem_live hflights]
    simp only [Recent.mem_live, and_assoc]

/-- Anchor 1 loses the only slot to anchor 2 and takes it back. Then it reports on the neighbours 2,
3 and 4, and on 2 again when the first report has expired. -/
def reportsAgain : List (Command Float) :=
  [.enter ⟨1⟩ 0, .set ⟨0, ⟨1⟩, 0⟩ (.reception ⟨9⟩ ⟨3, 1⟩), .enter ⟨2⟩ 5, .enter ⟨1⟩ 10,
    .set ⟨0, ⟨1⟩, 10⟩ (.reception ⟨2⟩ ⟨10, 5⟩), .set ⟨0, ⟨1⟩, 10⟩ (.flight ⟨2⟩ 52),
    .set ⟨0, ⟨1⟩, 20⟩ (.reception ⟨3⟩ ⟨11, 6⟩), .set ⟨0, ⟨1⟩, 25⟩ (.reception ⟨4⟩ ⟨12, 8⟩),
    .set ⟨0, ⟨1⟩, 41⟩ (.reception ⟨2⟩ ⟨13, 7⟩)]

/-- Neighbour 2 has kept its place, and the report on neighbour 3 has expired. A buffer with one
place has room for neighbour 2 only, and one with three places gets 2 and 4. -/
theorem listing_agrees_reportsAgain : ∃ t₀ t : Table Float,
    create 1 3 3 {} = .ok t₀ ∧ (t₀.performAll reportsAgain).2 = t ∧
    t.Agrees ⟨0, ⟨1⟩, 52⟩ [(⟨2⟩, 7), (⟨4⟩, 8)] ∧
    t.heardInto ⟨0, ⟨1⟩, 52⟩ [(⟨255⟩, 255)] = .ok (1, [(⟨2⟩, 7)]) ∧
    t.heardInto ⟨0, ⟨1⟩, 52⟩ [(⟨255⟩, 255), (⟨255⟩, 255), (⟨255⟩, 255)] =
      .ok (2, [(⟨2⟩, 7), (⟨4⟩, 8), (⟨255⟩, 255)]) ∧
    t.flight? ⟨0, ⟨1⟩, 52⟩ ⟨2⟩ = .ok (some 52) ∧ t.flight? ⟨0, ⟨1⟩, 52⟩ ⟨3⟩ = .ok none := by
  have hcreate : create (K := Float) 1 3 3 {} = .ok ⟨1, 3, 3, {}, []⟩ := rfl
  obtain ⟨t, r, hused, hread, hreceptions, hflights⟩ : ∃ t r,
      ((⟨1, 3, 3, {}, []⟩ : Table Float).performAll reportsAgain).2 = t ∧
        t.read ⟨0, ⟨1⟩, 52⟩ = .ok r ∧
        r.receptions.entries =
          [⟨⟨⟨13, 7⟩, 41⟩, ⟨2⟩⟩, ⟨⟨⟨11, 6⟩, 20⟩, ⟨3⟩⟩, ⟨⟨⟨12, 8⟩, 25⟩, ⟨4⟩⟩] ∧
        r.flights.entries = [⟨⟨52, 10⟩, ⟨2⟩⟩] :=
    ⟨_, _, rfl, rfl, rfl, rfl⟩
  obtain ⟨r', valid, hread', -, -, hvalid, hlisted, hflight⟩ :=
    listing_agrees hcreate hused (holds_iff.2 ⟨r, hread⟩)
  obtain rfl : r = r' := Except.ok.inj (hread.symm.trans hread')
  rw [hreceptions] at hvalid
  rw [hflights] at hflight
  obtain rfl : valid = [(⟨2⟩, 7), (⟨4⟩, 8)] := hvalid
  obtain ⟨count, after, hshort, hfilled, -⟩ := hlisted [(⟨255⟩, 255)]
  obtain rfl : count = 1 := hfilled.count_eq
  obtain rfl : after = [(⟨2⟩, 7)] := hfilled.eq_append
  obtain ⟨count, after, hlong, hfilled, hagrees⟩ :=
    hlisted [(⟨255⟩, 255), (⟨255⟩, 255), (⟨255⟩, 255)]
  obtain rfl : count = 2 := hfilled.count_eq
  obtain rfl : after = [(⟨2⟩, 7), (⟨4⟩, 8), (⟨255⟩, 255)] := hfilled.eq_append
  obtain ⟨found, hfound, hfound_iff⟩ := hflight ⟨2⟩
  obtain ⟨missing, hmissing, hmissing_iff⟩ := hflight ⟨3⟩
  refine ⟨_, t, hcreate, hused, hagrees (by decide), hshort, hlong, ?_, ?_⟩
  · rw [hfound, (hfound_iff 52).2 ⟨_, List.mem_singleton_self _, by decide, rfl, rfl⟩]
  · rw [hmissing]
    refine congrArg Except.ok (Option.eq_none_iff_forall_ne_some.2 fun flight hsome => ?_)
    obtain ⟨e, he, -, hkey, -⟩ := (hmissing_iff flight).1 hsome
    rw [List.mem_singleton.1 he] at hkey
    exact absurd hkey (by decide)

end Ranging.Table

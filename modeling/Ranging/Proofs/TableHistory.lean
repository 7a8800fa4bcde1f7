import Ranging.Proofs.Handling

/-!
# What a table remembers

A table is used through handles, and a handle may be kept for as long as its holder likes: its
anchor may lose its slot to another one and even get it back. `Outcome` tells what a use of the
table came to, and the outcomes say what has been written for each anchor since it last entered
(`writesFor`).

The record of a stored anchor is what these writes make of a blank one, and nothing else: this is
what each use preserves (`Sound.perform`, `Faithful.perform`). Everything that can be read through a
handle follows (`performAll_reflects`). A handle whose slot holds its anchor reads what was last
written for that anchor, whoever wrote it; any other handle is refused.
-/

namespace Ranging

variable {K : Type}

/-! ## Writes to a record -/

/-- Something to store in a record. -/
inductive Write (K : Type) where
  | broadcast (rxTime txTime : Ticks) (sequence : UInt8)
  | clock (state : RatioState K)
  | position (point : Point K)
  | reception (neighbour : AnchorId) (reception : Reception)
  | flight (neighbour : AnchorId) (flight : Ticks)
  | tagFlight (flight : Ticks)

namespace Write

/-- The times and the sequence number of a broadcast. -/
def broadcast? : Write K → Option (Ticks × Ticks × UInt8)
  | broadcast rxTime txTime sequence => some (rxTime, txTime, sequence)
  | _ => none

def clock? : Write K → Option (RatioState K)
  | clock state => some state
  | _ => none

def position? : Write K → Option (Point K)
  | position point => some point
  | _ => none

def tagFlight? : Write K → Option Ticks
  | tagFlight value => some value
  | _ => none

/-- What a write stores about a neighbour's broadcasts. -/
def reception? : Write K → Option (AnchorId × Reception)
  | reception neighbour value => some (neighbour, value)
  | _ => none

/-- What a write stores about the distance to a neighbour. -/
def flight? : Write K → Option (AnchorId × Ticks)
  | flight neighbour value => some (neighbour, value)
  | _ => none

variable {α : Type}

/-- The last of some writes that is of one kind. -/
def last? (kind : Write K → Option α) (ws : List (Stamped (Write K))) : Option (Stamped α) :=
  (ws.filterMap fun w => (kind w.value).map (⟨·, w.written⟩)).getLast?

/-- What some writes put into a list about neighbours. -/
def entries (kind : Write K → Option (AnchorId × α)) (ws : List (Stamped (Write K))) :
    List (Entry α) :=
  ws.filterMap fun w => (kind w.value).map fun (key, value) => ⟨⟨value, w.written⟩, key⟩

theorem last?_concat (kind : Write K → Option α) (ws : List (Stamped (Write K)))
    (w : Stamped (Write K)) :
    last? kind (ws ++ [w]) = ((kind w.value).map (⟨·, w.written⟩)).or (last? kind ws) := by
  rw [last?, last?, List.filterMap_append]
  cases hkind : kind w.value <;> simp [hkind]

theorem entries_concat (kind : Write K → Option (AnchorId × α)) (ws : List (Stamped (Write K)))
    (w : Stamped (Write K)) :
    entries kind (ws ++ [w]) = entries kind ws ++
      ((kind w.value).map fun (key, value) => ⟨⟨value, w.written⟩, key⟩).toList := by
  rw [entries, entries, List.filterMap_append]
  cases hkind : kind w.value <;> simp [hkind]

end Write

namespace Record

/-- The record with something stored in it. -/
def write (r : Record K) (now : Millis) : Write K → Record K
  | .broadcast rxTime txTime sequence => r.setBroadcast now rxTime txTime sequence
  | .clock state => { r with clock := state }
  | .position point => r.setPosition now point
  | .reception neighbour reception => r.setReception now neighbour reception
  | .flight neighbour flight => r.setFlight now neighbour flight
  | .tagFlight flight => r.setTagFlight now flight

/-- The record after some writes. -/
def writeAll (r : Record K) (ws : List (Stamped (Write K))) : Record K :=
  ws.foldl (fun r w => r.write w.written w.value) r

@[simp] theorem write_id (r : Record K) (now : Millis) (w : Write K) :
    (r.write now w).id = r.id := by
  cases w <;> rfl

@[simp] theorem writeAll_concat (r : Record K) (ws : List (Stamped (Write K)))
    (w : Stamped (Write K)) :
    r.writeAll (ws ++ [w]) = (r.writeAll ws).write w.written w.value :=
  List.foldl_concat ..

/-- A record is made of the last write of each kind, and of all writes about neighbours. -/
theorem writeAll_empty [Scalar K] (id : AnchorId) (receptionCapacity flightCapacity : Nat)
    (ws : List (Stamped (Write K))) :
    (empty id receptionCapacity flightCapacity).writeAll ws = {
      id := id
      lastUpdate := ((Write.last? Write.broadcast? ws).map (·.written)).getD 0
      rxTime := (Write.last? Write.broadcast? ws).map (·.value.1)
      txTime := (Write.last? Write.broadcast? ws).map (·.value.2.1)
      sequence := ((Write.last? Write.broadcast? ws).map (·.value.2.2)).getD 0
      clock := ((Write.last? Write.clock? ws).map (·.value)).getD RatioState.initial
      position := Write.last? Write.position? ws
      receptions :=
        ({ capacity := receptionCapacity } : Recent _).writeAll (Write.entries Write.reception? ws)
      flights :=
        ({ capacity := flightCapacity } : Recent _).writeAll (Write.entries Write.flight? ws)
      tagFlight := Write.last? Write.tagFlight? ws } := by
  induction ws using List.reverseRecOn with
  | nil => rfl
  | append_singleton ws w ih =>
      simp only [writeAll_concat, ih, Write.last?_concat, Write.entries_concat,
        Recent.writeAll_append]
      cases w.value <;> rfl

end Record

/-! ## Uses of a table -/

namespace Table

/-- A use of a table. Reading through a handle changes nothing and is no use in this sense. -/
inductive Command (K : Type) where
  | enter (id : AnchorId) (now : Millis)
  | get (id : AnchorId) (now : Millis)
  | set (h : Handle) (w : Write K)

/-- What a use of a table came to. -/
inductive Outcome (K : Type) where
  /-- An anchor was entered. The flag tells whether it was stored before. -/
  | entered (h : Handle) (wasStored : Bool)
  | found (h : Option Handle)
  | written (h : Handle) (w : Write K)
  /-- Nothing was written. -/
  | refused (h : Handle) (w : Write K) (e : StaleHandle)

namespace Outcome

/-- The handle that was given out. -/
def handle? : Outcome K → Option Handle
  | entered h _ => some h
  | found h => h
  | _ => none

/-- What has been written for an anchor since it last entered, with one more outcome. -/
def extend (id : AnchorId) (ws : List (Stamped (Write K))) :
    Outcome K → List (Stamped (Write K))
  | entered h wasStored => if h.id = id ∧ wasStored = false then [] else ws
  | written h w => if h.id = id then ws ++ [⟨w, h.now⟩] else ws
  | _ => ws

end Outcome

/-- What has been written for an anchor since it last entered. -/
def writesFor (id : AnchorId) (outcomes : List (Outcome K)) : List (Stamped (Write K)) :=
  outcomes.foldl (Outcome.extend id) []

@[simp] theorem writesFor_concat (id : AnchorId) (outcomes : List (Outcome K)) (o : Outcome K) :
    writesFor id (outcomes ++ [o]) = o.extend id (writesFor id outcomes) :=
  List.foldl_concat ..

/-- Store something through a handle. -/
def set (t : Table K) (h : Handle) : Write K → Except StaleHandle (Table K)
  | .broadcast rxTime txTime sequence => t.setBroadcast h rxTime txTime sequence
  | .clock state => t.setClock h state
  | .position point => t.setPosition h point
  | .reception neighbour reception => t.setReception h neighbour reception
  | .flight neighbour flight => t.setFlight h neighbour flight
  | .tagFlight flight => t.setTagFlight h flight

theorem set_eq_modify (t : Table K) (h : Handle) (w : Write K) :
    t.set h w = t.modify h (·.write h.now w) := by
  cases w <;> rfl

variable [Scalar K]

/-- A use of a table. A write that is refused leaves it as it was. -/
def perform (t : Table K) : Command K → Outcome K × Table K
  | .enter id now =>
    let (h, wasStored, t) := t.enter id now
    (.entered h wasStored, t)
  | .get id now => (.found (t.get? id now), t)
  | .set h w =>
    match t.set h w with
    | .ok t => (.written h w, t)
    | .error e => (.refused h w e, t)

/-- Several uses, one after the other. -/
def performAll (t : Table K) : List (Command K) → List (Outcome K) × Table K
  | [] => ([], t)
  | c :: cs =>
    let (o, t) := t.perform c
    let (os, t) := t.performAll cs
    (o :: os, t)

omit [Scalar K] in
/-- A handle leads to a record exactly if its slot holds its anchor, and is refused otherwise. -/
theorem read_cases (t : Table K) (h : Handle) :
    (∃ r, t.read h = .ok r ∧ t.records[h.slot]? = some r ∧ r.id = h.id) ∨
      ((∀ r, t.records[h.slot]? = some r → r.id ≠ h.id) ∧ t.read h = .error ⟨h.id⟩) := by
  rw [read]
  cases hget : t.records[h.slot]? with
  | none =>
      right
      refine ⟨?_, rfl⟩
      intro r hr
      cases hr
  | some r =>
      by_cases hid : r.id = h.id
      · left
        exact ⟨r, if_pos hid, rfl, hid⟩
      · right
        refine ⟨?_, if_neg hid⟩
        rintro r' hr'
        rwa [← Option.some.inj hr']

theorem perform_enter (t : Table K) (id : AnchorId) (now : Millis) :
    t.perform (.enter id now) =
      (.entered ⟨t.slotFor id now, id, now⟩ (t.contains id), t.entered id now) := by
  rw [perform, enter_eq]

theorem perform_set {t : Table K} {h : Handle} {r : Record K} (hread : t.read h = .ok r)
    (w : Write K) :
    t.perform (.set h w) = (.written h w, t.put h.slot (r.write h.now w)) := by
  rw [perform, set_eq_modify, modify_eq_put hread]

/-- Nothing is written through a handle that is refused. -/
theorem perform_set_of_refused {t : Table K} {h : Handle} {e : StaleHandle}
    (hread : t.read h = .error e) (w : Write K) :
    t.perform (.set h w) = (.refused h w e, t) := by
  rw [perform, set_eq_modify, modify, hread]
  rfl

/-! ## What a use preserves -/

theorem Sound.perform {t : Table K} (h : t.Sound) (c : Command K) : (t.perform c).2.Sound := by
  cases c with
  | enter id now =>
      rw [perform_enter]
      exact h.entered id now
  | get id now => exact h
  | set handle w =>
      obtain ⟨r, hread, hget, -⟩ | ⟨-, hread⟩ := read_cases t handle
      · rw [perform_set hread]
        exact h.put hget (Record.write_id r handle.now w).symm
      · rw [perform_set_of_refused hread]
        exact h

/-- No anchor leaves without another one taking its slot. -/
theorem size_le_perform {t : Table K} (h : t.Sound) (c : Command K) :
    t.size ≤ (t.perform c).2.size := by
  cases c with
  | enter id now =>
      rw [perform_enter]
      show t.size ≤ (t.entered id now).size
      obtain ⟨-, heq⟩ | ⟨-, -, hsize, -⟩ | ⟨-, -, hsize, -⟩ := find?_entered h id now
      · exact Nat.le_of_eq (congrArg size heq.symm)
      · omega
      · omega
  | get id now => exact Nat.le_refl _
  | set handle w =>
      apply Nat.le_of_eq
      obtain ⟨r, hread, -⟩ | ⟨-, hread⟩ := read_cases t handle
      · rw [perform_set hread, size, size, put_records, List.length_set]
      · rw [perform_set_of_refused hread]

/-- A use changes records only. -/
theorem perform_eq (t : Table K) (c : Command K) :
    (t.perform c).2 = { t with records := (t.perform c).2.records } := by
  cases c with
  | enter id now =>
      rw [perform_enter]
      exact entered_eq t id now
  | get id now => rfl
  | set handle w =>
      obtain ⟨r, hread, -⟩ | ⟨-, hread⟩ := read_cases t handle
      · rw [perform_set hread]
        rfl
      · rw [perform_set_of_refused hread]

/-- The record of a stored anchor is what the writes for it make of a blank one, and the handles
that were given out are for occupied slots. -/
structure Faithful (t : Table K) (outcomes : List (Outcome K)) : Prop where
  record : ∀ id r, t.find? id = some r → r = (t.blank id).writeAll (writesFor id outcomes)
  issued : ∀ o ∈ outcomes, ∀ h, o.handle? = some h → h.slot < t.size

/-- An anchor that enters starts with a blank record, and takes nothing from anybody who stays. -/
theorem Faithful.record_entered {t : Table K} (hsound : t.Sound) {outcomes : List (Outcome K)}
    (h : t.Faithful outcomes) (entering : AnchorId) (now : Millis) (id : AnchorId) (r : Record K)
    (hfind : (t.entered entering now).find? id = some r) :
    r = (t.blank id).writeAll ((Outcome.entered ⟨t.slotFor entering now, entering, now⟩
      (t.contains entering)).extend id (writesFor id outcomes)) := by
  by_cases hid : entering = id
  · subst hid
    rw [find?_entered_self hsound.hasSlot] at hfind
    obtain rfl := Option.some.inj hfind
    cases hstored : t.find? entering with
    | some r =>
        rw [sender_of_find? hstored, Outcome.extend, if_neg (by simp [contains_eq_isSome, hstored])]
        exact h.record entering r hstored
    | none =>
        rw [sender_of_absent hstored, Outcome.extend,
          if_pos (by simp [contains_eq_isSome, hstored])]
        rfl
  · rw [Outcome.extend, if_neg (by simp [hid])]
    exact h.record id r (find?_entered_of_ne hsound now (Ne.symm hid) hfind)

/-- A write reaches the record of its handle's anchor and no other. -/
theorem Faithful.record_put {t : Table K} (hsound : t.Sound) {outcomes : List (Outcome K)}
    (h : t.Faithful outcomes) {handle : Handle} {old : Record K} (hread : t.read handle = .ok old)
    (w : Write K) (id : AnchorId) (r : Record K)
    (hfind : (t.put handle.slot (old.write handle.now w)).find? id = some r) :
    r = (t.blank id).writeAll ((Outcome.written handle w).extend id (writesFor id outcomes)) := by
  obtain ⟨hslot, hold⟩ := slot?_of_read hsound hread
  have hid : (old.write handle.now w).id = handle.id := by
    rw [Record.write_id, id_of_find? hold]
  rw [find?_put (by rwa [hid]), hid] at hfind
  by_cases hsame : id = handle.id
  · subst hsame
    rw [if_pos rfl] at hfind
    obtain rfl := Option.some.inj hfind
    rw [Outcome.extend, if_pos rfl, Record.writeAll_concat, ← h.record _ old hold]
  · rw [if_neg hsame] at hfind
    rw [Outcome.extend, if_neg (Ne.symm hsame)]
    exact h.record id r hfind

/-- A handle that is given out is for an occupied slot. -/
theorem slot_lt_perform {t : Table K} (hsound : t.Sound) (c : Command K) {h : Handle}
    (hhandle : (t.perform c).1.handle? = some h) : h.slot < (t.perform c).2.size := by
  cases c with
  | enter id now =>
      rw [perform_enter] at hhandle ⊢
      obtain rfl := Option.some.inj hhandle
      exact (List.getElem?_eq_some_iff.1 (records_slotFor hsound.hasSlot id now)).1
  | get id now =>
      obtain ⟨-, -, r, hread, -⟩ := get?_eq_some hhandle
      exact (List.getElem?_eq_some_iff.1 (read_eq_ok_iff.1 hread).1).1
  | set handle w =>
      obtain ⟨r, hread, -⟩ | ⟨-, hread⟩ := read_cases t handle
      · rw [perform_set hread] at hhandle
        cases hhandle
      · rw [perform_set_of_refused hread] at hhandle
        cases hhandle

/-- What one use preserves. -/
theorem Faithful.perform {t : Table K} (hsound : t.Sound) {outcomes : List (Outcome K)}
    (h : t.Faithful outcomes) (c : Command K) :
    (t.perform c).2.Faithful (outcomes ++ [(t.perform c).1]) := by
  refine ⟨?_, ?_⟩
  · intro id r hfind
    rw [writesFor_concat]
    cases c with
    | enter entering now =>
        rw [perform_enter] at hfind ⊢
        rw [entered_blank]
        exact h.record_entered hsound entering now id r hfind
    | get entering now => exact h.record id r hfind
    | set handle w =>
        obtain ⟨old, hread, -⟩ | ⟨-, hread⟩ := read_cases t handle
        · rw [perform_set hread] at hfind ⊢
          rw [put_blank]
          exact h.record_put hsound hread w id r hfind
        · rw [perform_set_of_refused hread] at hfind ⊢
          exact h.record id r hfind
  · intro o ho handle hhandle
    rcases List.mem_append.1 ho with ho | ho
    · exact Nat.lt_of_lt_of_le (h.issued o ho handle hhandle) (size_le_perform hsound c)
    · rw [List.mem_singleton.1 ho] at hhandle
      exact slot_lt_perform hsound c hhandle

/-- Many uses change records only. -/
theorem performAll_eq (t : Table K) (cs : List (Command K)) :
    (t.performAll cs).2 = { t with records := (t.performAll cs).2.records } := by
  induction cs generalizing t with
  | nil => rfl
  | cons c cs ih =>
      have hfirst := perform_eq t c
      have hrest := ih (t.perform c).2
      change ((t.perform c).2.performAll cs).2 =
        { t with records := ((t.perform c).2.performAll cs).2.records }
      generalize ((t.perform c).2.performAll cs).2 = last at *
      generalize (t.perform c).2 = next at *
      rw [hrest, hfirst]

/-- What many uses preserve. -/
theorem Faithful.performAll {t : Table K} (hsound : t.Sound) {outcomes : List (Outcome K)}
    (h : t.Faithful outcomes) (cs : List (Command K)) :
    (t.performAll cs).2.Sound ∧
      (t.performAll cs).2.Faithful (outcomes ++ (t.performAll cs).1) := by
  induction cs generalizing t outcomes with
  | nil => exact ⟨hsound, by rwa [Table.performAll, List.append_nil]⟩
  | cons c cs ih =>
      obtain ⟨hsound', hfaithful⟩ := ih (hsound.perform c) (h.perform hsound c)
      rw [List.append_assoc] at hfaithful
      exact ⟨hsound', hfaithful⟩

/-- From the start this holds of every sequence of uses. -/
theorem Faithful.of_create {capacity receptionCapacity flightCapacity : Nat} {windows : Windows}
    {t : Table K} (hcreate : create capacity receptionCapacity flightCapacity windows = .ok t)
    (cs : List (Command K)) :
    (t.performAll cs).2.Sound ∧ (t.performAll cs).2.Faithful (t.performAll cs).1 := by
  obtain ⟨-, -, -, ht⟩ := create_eq_ok_iff.1 hcreate
  have hempty : t.Faithful [] := by
    refine ⟨?_, nofun⟩
    intro id r hfind
    rw [ht] at hfind
    cases hfind
  exact hempty.performAll (Sound.of_create hcreate) cs

/-- No list in a record has two entries for one neighbour, whatever their ages, and it has the
capacity that it was created with. -/
theorem lists_of_performAll {capacity receptionCapacity flightCapacity : Nat} {windows : Windows}
    {t₀ t : Table K} (hcreate : create capacity receptionCapacity flightCapacity windows = .ok t₀)
    {cs : List (Command K)} (hused : (t₀.performAll cs).2 = t) {h : Handle} {r : Record K}
    (hread : t.read h = .ok r) :
    (r.receptions.Sound ∧ r.receptions.capacity = receptionCapacity) ∧
      r.flights.Sound ∧ r.flights.capacity = flightCapacity := by
  obtain ⟨-, hreceptions, hflights, hempty⟩ := create_eq_ok_iff.1 hcreate
  obtain ⟨hsound, hfaithful⟩ := Faithful.of_create hcreate cs
  have hcapacities : t.receptionCapacity = receptionCapacity ∧ t.flightCapacity = flightCapacity := by
    rw [← hused, performAll_eq t₀ cs, hempty]
    exact ⟨rfl, rfl⟩
  rw [hused] at hsound hfaithful
  have hrecord := hfaithful.record h.id r (slot?_of_read hsound hread).2
  rw [blank, Record.writeAll_empty, hcapacities.1, hcapacities.2] at hrecord
  rw [hrecord]
  refine ⟨⟨?_, Recent.writeAll_capacity ..⟩, ?_, Recent.writeAll_capacity ..⟩
  · exact (Recent.Sound.empty (Nat.pos_of_ne_zero hreceptions)).writeAll _
  · exact (Recent.Sound.empty (Nat.pos_of_ne_zero hflights)).writeAll _

/-! ## What is read through a handle -/

/-- The slot of a handle holds its anchor. -/
def Holds (t : Table K) (h : Handle) : Prop :=
  ∃ r, t.records[h.slot]? = some r ∧ r.id = h.id

omit [Scalar K] in
theorem holds_iff {t : Table K} {h : Handle} : t.Holds h ↔ ∃ r, t.read h = .ok r := by
  simp only [Holds, read_eq_ok_iff]

omit [Scalar K] in
/-- A look-up gives the handle whose slot holds the anchor. -/
theorem get?_eq_some_iff {t : Table K} (hsound : t.Sound) {id : AnchorId} {now : Millis}
    {h : Handle} : t.get? id now = some h ↔ h.id = id ∧ h.now = now ∧ t.Holds h := by
  constructor
  · intro hget
    obtain ⟨hid, hnow, r, hread, -⟩ := get?_eq_some hget
    exact ⟨hid, hnow, holds_iff.2 ⟨r, hread⟩⟩
  · rintro ⟨rfl, rfl, hholds⟩
    obtain ⟨r, hread⟩ := holds_iff.1 hholds
    rw [get?, (slot?_of_read hsound hread).1]
    rfl

/-- What is read through a handle is what some writes have left. Reports on neighbours and positions
are left out when they have expired, and a report also when it has made room for a later one. -/
structure Recalls (t : Table K) (h : Handle) (ws : List (Stamped (Write K))) : Prop where
  rxTime : t.rxTime? h = .ok ((Write.last? Write.broadcast? ws).map (·.value.1))
  txTime : t.txTime? h = .ok ((Write.last? Write.broadcast? ws).map (·.value.2.1))
  sequence : t.sequence h = .ok (((Write.last? Write.broadcast? ws).map (·.value.2.2)).getD 0)
  lastUpdate : t.lastUpdate h = .ok (((Write.last? Write.broadcast? ws).map (·.written)).getD 0)
  clock : t.clock h = .ok (((Write.last? Write.clock? ws).map (·.value)).getD RatioState.initial)
  position : t.position? h = .ok ((Write.last? Write.position? ws).filter fun p =>
    Millis.isFresh p.written t.windows.position h.now)
  tagFlight : ∀ oldest, t.tagFlight? h oldest = .ok (((Write.last? Write.tagFlight? ws).filter
    fun f => Millis.notBefore f.written oldest).map (·.value))
  reception : ∀ neighbour, ∃ found, t.reception? h neighbour = .ok found ∧
    ∀ value, found = some value ↔ Recent.Keeps t.receptionCapacity
      (Write.entries Write.reception? ws) t.windows.reception h.now neighbour value
  flight : ∀ neighbour, ∃ found, t.flight? h neighbour = .ok found ∧
    ∀ value, found = some value ↔ Recent.Keeps t.flightCapacity
      (Write.entries Write.flight? ws) t.windows.flight h.now neighbour value
  heard : ∃ neighbours, t.heard h = .ok neighbours ∧ (neighbours.map (·.1)).Nodup ∧
    ∀ neighbour sequence, (neighbour, sequence) ∈ neighbours ↔
      ∃ value, t.reception? h neighbour = .ok (some value) ∧ value.sequence = sequence

/-- Nothing can be read or written through a handle. -/
structure Refuses (t : Table K) (h : Handle) : Prop where
  rxTime : t.rxTime? h = .error ⟨h.id⟩
  txTime : t.txTime? h = .error ⟨h.id⟩
  sequence : t.sequence h = .error ⟨h.id⟩
  lastUpdate : t.lastUpdate h = .error ⟨h.id⟩
  clock : t.clock h = .error ⟨h.id⟩
  position : t.position? h = .error ⟨h.id⟩
  tagFlight : ∀ oldest, t.tagFlight? h oldest = .error ⟨h.id⟩
  reception : ∀ neighbour, t.reception? h neighbour = .error ⟨h.id⟩
  flight : ∀ neighbour, t.flight? h neighbour = .error ⟨h.id⟩
  heard : t.heard h = .error ⟨h.id⟩
  set : ∀ w, t.set h w = .error ⟨h.id⟩
  perform : ∀ w, t.perform (.set h w) = (.refused h w ⟨h.id⟩, t)

theorem refuses_of_read {t : Table K} {h : Handle} (hread : t.read h = .error ⟨h.id⟩) :
    t.Refuses h := by
  constructor
  case set =>
    intro w
    rw [set_eq_modify, modify, hread]
    rfl
  case perform => exact perform_set_of_refused hread
  all_goals
    intros
    simp only [rxTime?, txTime?, Table.sequence, Table.lastUpdate, Table.clock, position?,
      tagFlight?, reception?, flight?, Table.heard, hread]
    rfl

omit [Scalar K] in
/-- A list of neighbours names each of them once. -/
theorem nodup_heard {r : Record K} (h : r.receptions.Sound) (windows : Windows) (now : Millis) :
    ((r.heard windows now).map (·.1)).Nodup := by
  rw [Record.heard, List.map_map]
  exact List.Sublist.nodup (List.Sublist.map _ List.filter_sublist) h.keys_nodup

/-- What a record is made of is what is read through a handle that leads to it. -/
theorem recalls_of_read {t : Table K} (hsound : t.Sound) {h : Handle}
    {ws : List (Stamped (Write K))} (hread : t.read h = .ok ((t.blank h.id).writeAll ws)) :
    t.Recalls h ws := by
  have hlist := (Recent.Sound.empty hsound.receptions_pos).writeAll
    (Write.entries Write.reception? ws)
  rw [blank, Record.writeAll_empty] at hread
  constructor
  case reception =>
    intro neighbour
    refine ⟨_, by rw [reception?, hread]; rfl, ?_⟩
    intro value
    exact Recent.find?_writeAll_iff hsound.receptions_pos
  case flight =>
    intro neighbour
    refine ⟨_, by rw [flight?, hread]; rfl, ?_⟩
    intro value
    exact Recent.find?_writeAll_iff hsound.flights_pos
  case heard =>
    refine ⟨_, by rw [Table.heard, hread]; rfl, nodup_heard hlist _ _, ?_⟩
    intro neighbour sequence
    rw [Record.mem_heard_iff hlist, reception?, hread]
    simp only [bind, Except.bind, pure, Except.pure, Except.ok.injEq]
  all_goals
    intros
    simp only [rxTime?, txTime?, Table.sequence, Table.lastUpdate, Table.clock, position?,
      tagFlight?, hread]
    rfl

/-- How a table that can hold `capacity` anchors relates to what its uses came to. -/
structure Reflects (t : Table K) (capacity : Nat) (outcomes : List (Outcome K)) : Prop where
  ids_nodup : t.ids.Nodup
  size_le : t.size ≤ capacity
  /-- The occupied slots are the first ones. The representation carries this: a table is the list of
  its occupied slots, and one with a gap among them cannot be built. -/
  occupied : ∀ slot, t.records[slot]?.isSome = true ↔ slot < t.size
  /-- Whatever comes next, no slot is freed. -/
  size_mono : ∀ c, t.size ≤ (t.perform c).2.size
  contains : ∀ id, t.contains id = true ↔ id ∈ t.ids
  get_isSome : ∀ id now, (t.get? id now).isSome = true ↔ id ∈ t.ids
  get : ∀ id now h, t.get? id now = some h ↔ h.id = id ∧ h.now = now ∧ t.Holds h
  /-- Entering tells whether the anchor was stored before, and gives a handle that is good. -/
  enter : ∀ id now, ∃ h next, t.enter id now = (h, t.contains id, next) ∧
    h.id = id ∧ h.now = now ∧ next.Holds h
  /-- No handle that was given out is for a slot that was never taken. -/
  issued : ∀ o ∈ outcomes, ∀ h, o.handle? = some h → h.slot < t.size
  recalls : ∀ h, t.Holds h → t.Recalls h (writesFor h.id outcomes)
  written : ∀ h, t.Holds h → ∀ w, ∃ next, t.perform (.set h w) = (.written h w, next) ∧
    next.ids = t.ids
  refuses : ∀ h, ¬ t.Holds h → t.Refuses h

theorem Faithful.reflects {t : Table K} (hsound : t.Sound) {outcomes : List (Outcome K)}
    (h : t.Faithful outcomes) : t.Reflects t.capacity outcomes := by
  constructor
  case ids_nodup => exact hsound.ids_nodup
  case size_le => exact hsound.size_le
  case occupied =>
    intro slot
    rw [isSome_getElem?, size]
  case size_mono => exact size_le_perform hsound
  case contains =>
    intro id
    exact mem_ids_iff.symm
  case get_isSome =>
    intro id now
    rw [get?, Option.isSome_map, mem_ids_iff, contains_iff, Option.isSome_iff_ne_none,
      Option.isSome_iff_ne_none, ne_eq, ne_eq, slot?_eq_none_iff]
  case get =>
    intro id now handle
    exact get?_eq_some_iff hsound
  case enter =>
    intro id now
    refine ⟨_, _, enter_eq t id now, rfl, rfl, t.sender id, ?_, sender_id t id⟩
    exact records_slotFor hsound.hasSlot id now
  case issued => exact h.issued
  case recalls =>
    intro handle hholds
    obtain ⟨r, hread⟩ := holds_iff.1 hholds
    have hrecord := h.record handle.id r (slot?_of_read hsound hread).2
    rw [hrecord] at hread
    exact recalls_of_read hsound hread
  case written =>
    intro handle hholds w
    obtain ⟨r, hread⟩ := holds_iff.1 hholds
    refine ⟨_, perform_set hread w, ?_⟩
    exact Keyed.map_set_of_key_eq (read_eq_ok_iff.1 hread).1 (Record.write_id ..).symm
  case refuses =>
    intro handle hnot
    obtain ⟨r, -, hget, hid⟩ | ⟨-, hread⟩ := read_cases t handle
    · exact absurd ⟨r, hget, hid⟩ hnot
    · exact refuses_of_read hread

/-- However a table was used, it reflects what the uses came to. -/
theorem performAll_reflects {capacity receptionCapacity flightCapacity : Nat} {windows : Windows}
    {t : Table K} (hcreate : create capacity receptionCapacity flightCapacity windows = .ok t)
    (cs : List (Command K)) :
    ∃ outcomes next, t.performAll cs = (outcomes, next) ∧
      next = { capacity, receptionCapacity, flightCapacity, windows, records := next.records } ∧
      next.Reflects capacity outcomes := by
  have hsound := Sound.of_create hcreate
  obtain ⟨-, -, -, ht⟩ := create_eq_ok_iff.1 hcreate
  have hempty : t.Faithful [] := by
    refine ⟨?_, nofun⟩
    intro id r hfind
    rw [ht] at hfind
    cases hfind
  obtain ⟨hsound', hfaithful⟩ := hempty.performAll hsound cs
  have hrecords := performAll_eq t cs
  have hcapacity : (t.performAll cs).2.capacity = capacity := by rw [hrecords, ht]
  have hreflects := hfaithful.reflects hsound'
  rw [List.nil_append, hcapacity] at hreflects
  exact ⟨_, _, rfl, hrecords.trans (by rw [ht]), hreflects⟩

/-- The handle of an anchor's first stay. -/
def keptHandle : Handle := ⟨0, ⟨1⟩, 0⟩

/-- In a table with one slot an anchor makes room for another one and enters again. Its first handle
is kept and used all along. -/
def reentry : List (Command Float) :=
  [.enter ⟨1⟩ 0, .set keptHandle (.position ⟨3.0, 0.0, 0.0⟩), .enter ⟨2⟩ 5,
    .set keptHandle (.tagFlight 7), .enter ⟨1⟩ 10, .set keptHandle (.tagFlight 8)]

/-- The handle is good again, and shows nothing of the first stay. -/
theorem performAll_reflects_reentry : ∃ (t : Table Float) (outcomes : List (Outcome Float))
    (next : Table Float), create 1 1 1 {} = .ok t ∧ t.performAll reentry = (outcomes, next) ∧
    outcomes[3]? = some (.refused keptHandle (.tagFlight 7) ⟨⟨1⟩⟩) ∧
    next.position? keptHandle = .ok none ∧ next.tagFlight? keptHandle 0 = .ok (some 8) := by
  have hcreate : create (K := Float) 1 1 1 {} = .ok ⟨1, 1, 1, {}, []⟩ := rfl
  obtain ⟨outcomes, next, hrun, -, hreflects⟩ := performAll_reflects hcreate reentry
  have houtcomes : [.entered keptHandle false, .written keptHandle (.position ⟨3.0, 0.0, 0.0⟩),
      .entered ⟨0, ⟨2⟩, 5⟩ false, .refused keptHandle (.tagFlight 7) ⟨⟨1⟩⟩,
      .entered ⟨0, ⟨1⟩, 10⟩ false, .written keptHandle (.tagFlight 8)] = outcomes :=
    congrArg Prod.fst hrun
  have hnext : (performAll ⟨1, 1, 1, {}, []⟩ reentry).2 = next := congrArg Prod.snd hrun
  have hholds : next.Holds keptHandle := by
    rw [← hnext]
    exact ⟨_, rfl, rfl⟩
  have hrecalls := hreflects.recalls keptHandle hholds
  rw [← houtcomes] at hrecalls
  refine ⟨_, outcomes, next, hcreate, hrun, ?_, hrecalls.position, hrecalls.tagFlight 0⟩
  rw [← houtcomes]
  rfl

end Table

end Ranging

import Ranging.Proofs.Recency
import Ranging.Proofs.TableHistory

/-!
# Uses of a table at true times

A table sees readings of the millisecond clock, which starts over. Here its uses carry the times at
which they happen, on a clock that never does (`Timed`), and so does the history of what was written
(`Table.writesAt`). The table itself cannot tell: read with the millisecond clock, this history is
the one of the uses that the table sees (`stamped_writesAt`), and a record is what it makes of a
blank one (`record_of_performAt`).
-/

namespace Ranging

variable {K : Type}

/-- Something that happens at a time. -/
structure Timed (α : Type) where
  value : α
  time : Nat

/-- As the millisecond clock dates it. -/
def Timed.stamped {α : Type} (x : Timed α) : Stamped α :=
  ⟨x.value, Millis.ofTime x.time⟩

/-- A dated report on a neighbour as a list stores it. -/
def Timed.entry {α : Type} (report : Timed (AnchorId × α)) : Entry α :=
  ⟨⟨report.value.2, Millis.ofTime report.time⟩, report.value.1⟩

/-- The neighbour that a report is on. -/
def Timed.neighbour {α : Type} (report : Timed (AnchorId × α)) : AnchorId :=
  report.value.1

/-- The last entry for a neighbour is that of the last report on it. -/
theorem Timed.getLast?_filter_entries {α : Type} (reports : List (Timed (AnchorId × α)))
    (key : AnchorId) :
    ((reports.map entry).filter (·.key = key)).getLast? =
      (Recency.last? neighbour reports key).map entry := by
  rw [List.filter_map, List.getLast?_map]
  rfl

namespace Write

variable {α : Type}

/-- The last of some writes that is of one kind. -/
def lastAt? (kind : Write K → Option α) (ws : List (Timed (Write K))) : Option (Timed α) :=
  (ws.filterMap fun w => (kind w.value).map (⟨·, w.time⟩)).getLast?

theorem last?_map_stamped (kind : Write K → Option α) (ws : List (Timed (Write K))) :
    last? kind (ws.map Timed.stamped) = (lastAt? kind ws).map Timed.stamped := by
  rw [last?, lastAt?, List.filterMap_map, ← List.getLast?_map, List.map_filterMap]
  congr 2
  funext w
  rw [Option.map_map]
  rfl

/-- What some writes store of one kind, with the times of the writes. -/
def reports (kind : Write K → Option α) (ws : List (Timed (Write K))) : List (Timed α) :=
  ws.filterMap fun w => (kind w.value).map (⟨·, w.time⟩)

/-- It is stored at the time of one of the writes. -/
theorem time_of_mem_reports {kind : Write K → Option α} {ws : List (Timed (Write K))} {p : Timed α}
    (h : p ∈ reports kind ws) : ∃ w ∈ ws, w.time = p.time := by
  obtain ⟨w, hw, hp⟩ := List.mem_filterMap.1 h
  obtain ⟨value, -, rfl⟩ := Option.map_eq_some_iff.1 hp
  exact ⟨w, hw, rfl⟩

/-- The entries that go into a list are those of the reports. -/
theorem entries_map_stamped (kind : Write K → Option (AnchorId × α))
    (ws : List (Timed (Write K))) :
    entries kind (ws.map Timed.stamped) = (reports kind ws).map Timed.entry := by
  rw [entries, reports, List.filterMap_map, List.map_filterMap]
  congr 1
  funext w
  rw [Option.map_map]
  rfl

end Write

namespace Table

/-- A use of a table, at whatever time. A handle is its slot and its anchor. -/
inductive Action (K : Type) where
  | enter (id : AnchorId)
  | get (id : AnchorId)
  | set (slot : Nat) (id : AnchorId) (w : Write K)

/-- The use as the table sees it. -/
def Action.command (now : Millis) : Action K → Command K
  | .enter id => .enter id now
  | .get id => .get id now
  | .set slot id w => .set ⟨slot, id, now⟩ w

variable [Scalar K]

/-- Several uses, one after the other, and what each of them came to. -/
def performAt (t : Table K) : List (Timed (Action K)) → List (Timed (Outcome K)) × Table K
  | [] => ([], t)
  | a :: as =>
    let (o, t) := t.perform (a.value.command (Millis.ofTime a.time))
    let (os, t) := t.performAt as
    (⟨o, a.time⟩ :: os, t)

omit [Scalar K] in
/-- What has been written for an anchor since it last entered, with one more outcome. -/
def extendAt (id : AnchorId) (ws : List (Timed (Write K))) :
    Timed (Outcome K) → List (Timed (Write K))
  | ⟨.entered h wasStored, _⟩ => if h.id = id ∧ wasStored = false then [] else ws
  | ⟨.written h w, time⟩ => if h.id = id then ws ++ [⟨w, time⟩] else ws
  | _ => ws

omit [Scalar K] in
/-- What has been written for an anchor since it last entered, and when. -/
def writesAt (id : AnchorId) (os : List (Timed (Outcome K))) : List (Timed (Write K)) :=
  os.foldl (extendAt id) []

/-- The table sees the uses with the readings of its clock. -/
theorem performAt_eq (t : Table K) (as : List (Timed (Action K))) :
    t.performAll (as.map fun a => a.value.command (Millis.ofTime a.time)) =
      ((t.performAt as).1.map (·.value), (t.performAt as).2) := by
  induction as generalizing t with
  | nil => rfl
  | cons a as ih =>
      rw [List.map_cons, performAll, performAt]
      simp only [ih, List.map_cons]

/-- What a use comes to happens at the time of the use. -/
theorem time_of_performAt (t : Table K) (as : List (Timed (Action K))) :
    (t.performAt as).1.map (·.time) = as.map (·.time) := by
  induction as generalizing t with
  | nil => rfl
  | cons a as ih =>
      rw [performAt]
      simp only [List.map_cons, ih]

/-- A write has the date of the time at which it happens. -/
theorem now_of_written {t : Table K} {as : List (Timed (Action K))} {o : Timed (Outcome K)}
    (ho : o ∈ (t.performAt as).1) {h : Handle} {w : Write K} (hwritten : o.value = .written h w) :
    h.now = Millis.ofTime o.time := by
  induction as generalizing t with
  | nil => cases ho
  | cons a as ih =>
      rw [performAt] at ho
      rcases List.mem_cons.1 ho with rfl | ho
      · obtain ⟨action, time⟩ := a
        cases action with
        | enter id => cases hwritten
        | get id => cases hwritten
        | set slot id w' =>
            obtain ⟨r, hread, -⟩ | ⟨-, hread⟩ := read_cases t ⟨slot, id, Millis.ofTime time⟩
            · simp only [Action.command, perform_set hread] at hwritten
              cases hwritten
              rfl
            · simp only [Action.command, perform_set_of_refused hread] at hwritten
              cases hwritten
      · exact ih ho

omit [Scalar K] in
@[simp] theorem writesAt_concat (id : AnchorId) (os : List (Timed (Outcome K)))
    (o : Timed (Outcome K)) : writesAt id (os ++ [o]) = extendAt id (writesAt id os) o :=
  List.foldl_concat ..

omit [Scalar K] in
/-- Read with the millisecond clock, the history is the one that the table sees. -/
theorem stamped_writesAt {os : List (Timed (Outcome K))}
    (hdated : ∀ o ∈ os, ∀ h w, o.value = .written h w → h.now = Millis.ofTime o.time)
    (id : AnchorId) :
    (writesAt id os).map Timed.stamped = writesFor id (os.map (·.value)) := by
  induction os using List.reverseRecOn with
  | nil => rfl
  | append_singleton os o ih =>
      have hprevious := ih fun o ho => hdated o (List.mem_append_left _ ho)
      have hlast := hdated o (by simp)
      obtain ⟨outcome, time⟩ := o
      rw [writesAt_concat, List.map_append, List.map_singleton, writesFor_concat, ← hprevious]
      cases outcome with
      | entered h wasStored =>
          rw [extendAt, Outcome.extend]
          split
          · rfl
          · rfl
      | found h => rfl
      | written h w =>
          rw [extendAt, Outcome.extend]
          split
          · rw [List.map_append, hlast h w rfl]
            rfl
          · rfl
      | refused h w e => rfl

omit [Scalar K] in
/-- A write happens at the time of some use. -/
theorem exists_time_of_mem_writesAt {os : List (Timed (Outcome K))} {id : AnchorId}
    {w : Timed (Write K)} (hw : w ∈ writesAt id os) : ∃ o ∈ os, o.time = w.time := by
  induction os using List.reverseRecOn with
  | nil => cases hw
  | append_singleton os o ih =>
      have hlast : w ∈ writesAt id os ∨ o.time = w.time := by
        rw [writesAt_concat] at hw
        obtain ⟨outcome, time⟩ := o
        cases outcome with
        | entered h wasStored =>
            rw [extendAt] at hw
            split at hw
            · cases hw
            · exact Or.inl hw
        | written h w' =>
            rw [extendAt] at hw
            split at hw
            · rcases List.mem_append.1 hw with hw | hw
              · exact Or.inl hw
              · exact Or.inr (by rw [List.mem_singleton.1 hw])
            · exact Or.inl hw
        | found h => exact Or.inl hw
        | refused h w' e => exact Or.inl hw
      rcases hlast with hw | htime
      · obtain ⟨o', ho', htime⟩ := ih hw
        exact ⟨o', List.mem_append_left _ ho', htime⟩
      · exact ⟨o, by simp, htime⟩

variable {capacity receptionCapacity flightCapacity : Nat} {windows : Windows} {t₀ t : Table K}
  {as : List (Timed (Action K))} {os : List (Timed (Outcome K))}

/-- Uses change records only. -/
theorem eq_of_performAt (hused : t₀.performAt as = (os, t)) :
    t = { t₀ with records := t.records } := by
  have h := performAll_eq t₀ (as.map fun a => a.value.command (Millis.ofTime a.time))
  rwa [performAt_eq, hused] at h

/-- However the table was used, it is sound, and its windows are those it was created with. -/
theorem sound_of_performAt
    (hcreate : create capacity receptionCapacity flightCapacity windows = .ok t₀)
    (hused : t₀.performAt as = (os, t)) : t.Sound ∧ t.windows = windows := by
  obtain ⟨-, -, -, hempty⟩ := create_eq_ok_iff.1 hcreate
  have hlast : (t₀.performAll (as.map fun a => a.value.command (Millis.ofTime a.time))).2 = t := by
    rw [performAt_eq, hused]
  refine ⟨?_, by rw [eq_of_performAt hused, hempty]⟩
  rw [← hlast]
  exact (Faithful.of_create hcreate _).1

/-- So are the capacities of its records. -/
theorem capacities_of_performAt
    (hcreate : create capacity receptionCapacity flightCapacity windows = .ok t₀)
    (hused : t₀.performAt as = (os, t)) :
    t.receptionCapacity = receptionCapacity ∧ t.flightCapacity = flightCapacity := by
  obtain ⟨-, -, -, hempty⟩ := create_eq_ok_iff.1 hcreate
  rw [eq_of_performAt hused, hempty]
  exact ⟨rfl, rfl⟩

/-- The record of a stored anchor is what has been written for it since it entered. -/
theorem record_of_performAt
    (hcreate : create capacity receptionCapacity flightCapacity windows = .ok t₀)
    (hused : t₀.performAt as = (os, t)) {id : AnchorId} {r : Record K}
    (hfind : t.find? id = some r) :
    r = (t.blank id).writeAll ((writesAt id os).map Timed.stamped) := by
  have hfaithful := (Faithful.of_create hcreate
    (as.map fun a => a.value.command (Millis.ofTime a.time))).2
  rw [performAt_eq, hused] at hfaithful
  have hdated : ∀ o ∈ os, ∀ h w, o.value = .written h w → h.now = Millis.ofTime o.time := by
    intro o ho h w hwritten
    have hmem : o ∈ (t₀.performAt as).1 := by rwa [hused]
    exact now_of_written hmem hwritten
  rw [stamped_writesAt hdated]
  exact hfaithful.record id r hfind

/-- What has been written of one kind was written at the time of some use. -/
theorem exists_time_of_mem_reports (hused : t₀.performAt as = (os, t)) {α : Type}
    {kind : Write K → Option α} {id : AnchorId} {p : Timed α}
    (hp : p ∈ Write.reports kind (writesAt id os)) : ∃ a ∈ as, a.time = p.time := by
  obtain ⟨w, hw, hwtime⟩ := Write.time_of_mem_reports hp
  obtain ⟨o, ho, hotime⟩ := exists_time_of_mem_writesAt hw
  have htimes := time_of_performAt t₀ as
  rw [hused] at htimes
  have hmem : p.time ∈ as.map (·.time) := by
    rw [← htimes, ← hwtime, ← hotime]
    exact List.mem_map_of_mem ho
  obtain ⟨a, ha, hatime⟩ := List.mem_map.1 hmem
  exact ⟨a, ha, hatime⟩

end Table

end Ranging

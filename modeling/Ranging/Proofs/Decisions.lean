import Ranging.Proofs.Calls
import Ranging.Proofs.Strategies

/-!
# What diagnostics leave alone

A receiver decides by its table, its clock filter, the state of its strategy and its tick frequency.
Diagnostics are kept beside them in the same state and are changed by every step of the pipeline, but
no decision looks at them. Nor does any look at the standard deviation, which is only written into
the measurements that are sent.

This is a statement about two runs. `Receiver.Agrees` relates two receivers that decide alike: a
packet keeps it and gets the same answer from both, and every other call keeps it whichever of the
two receivers it is made on. So a run of calls agrees with the bare run of the packets in it, and two
runs with the same packets agree with each other.
-/

namespace Ranging

variable {K : Type}

/-- The measurement with another standard deviation. -/
def Measurement.withStdDev (m : Measurement K) (stdDev : K) : Measurement K :=
  { m with stdDev }

/-- What is sent, given what each packet leads to and the standard deviation in force when it comes. -/
def labelled (sent : List (Option (Measurement K))) (inForce : List K) : List (Measurement K) :=
  (List.zipWith (fun m? stdDev => m?.map (·.withStdDev stdDev)) sent inForce).reduceOption

/-- The standard deviation in force at each packet of some calls. -/
def inForce (stdDev : K) : List (Call K) → List K
  | [] => []
  | .packet _ :: calls => stdDev :: inForce stdDev calls
  | .setStdDev next :: calls => inForce next calls
  | _ :: calls => inForce stdDev calls

theorem labelled_cons (m? : Option (Measurement K)) (stdDev : K)
    (sent : List (Option (Measurement K))) (rest : List K) :
    labelled (m? :: sent) (stdDev :: rest) =
      (m?.map (·.withStdDev stdDev)).toList ++ labelled sent rest := by
  cases m? <;> rfl

variable [Scalar K]

namespace Receiver

/-- Two receivers that decide alike. -/
structure Agrees (r r' : Receiver K) : Prop where
  table : r'.table = r.table
  filter : r'.filter = r.filter
  pairing : r'.pairing = r.pairing
  tickFrequency : r'.tickFrequency = r.tickFrequency

omit [Scalar K] in
theorem Agrees.trans {r r' r'' : Receiver K} (h : r.Agrees r') (h' : r'.Agrees r'') :
    r.Agrees r'' :=
  ⟨h'.table.trans h.table, h'.filter.trans h.filter, h'.pairing.trans h.pairing,
    h'.tickFrequency.trans h.tickFrequency⟩

/-! ## One packet -/

section Packet

variable {r r' : Receiver K} (h : r.Agrees r') (a : Arrival K)

include h

theorem Agrees.reliable : r'.reliable a = r.reliable a :=
  reliable_congr h.table h.filter a

theorem Agrees.choice : r'.choice a = r.choice a := by
  rw [Receiver.choice, Receiver.choice, h.reliable, prepared_congr h.table h.filter,
    preparedTable_congr h.table h.filter, h.pairing]

theorem Agrees.partner? : r'.partner? a = r.partner? a := by
  rw [Receiver.partner?, Receiver.partner?, h.choice, preparedTable_congr h.table h.filter]

/-- A packet leads to the same measurement, but for the standard deviation. -/
theorem Agrees.measurement? :
    r'.measurement? a = (r.measurement? a).map (·.withStdDev r'.stdDev) := by
  have hwith (other : Record K) : r'.measurementWith? a other =
      (r.measurementWith? a other).map (·.withStdDev r'.stdDev) := by
    rw [measurementWith?, measurementWith?, prepared_congr h.table h.filter, h.table,
      h.tickFrequency]
    cases (r.prepared a).arrivalDifference? other r.table.windows a <;>
      cases other.freshPosition? r.table.windows a.now <;>
      cases (r.prepared a).freshPosition? r.table.windows a.now <;> rfl
  rw [Receiver.measurement?, Receiver.measurement?, h.partner?]
  cases r.partner? a with
  | none => rfl
  | some other => exact hwith other

/-- A packet keeps two receivers alike. -/
theorem Agrees.after : (r.after a).Agrees (r'.after a) where
  table := after_table_congr h.table h.filter a
  filter := h.filter
  pairing := congrArg Prod.snd (h.choice a)
  tickFrequency := h.tickFrequency

end Packet

/-! ## A run of calls and the packets in it -/

/-- What each of some packets leads to. -/
def sentBy (r : Receiver K) : List (Arrival K) → List (Option (Measurement K))
  | [] => []
  | a :: as => r.measurement? a :: (r.after a).sentBy as

@[simp] theorem length_sentBy (r : Receiver K) (as : List (Arrival K)) :
    (r.sentBy as).length = as.length := by
  induction as generalizing r with
  | nil => rfl
  | cons a as ih => simp [sentBy, ih]

/-- A call that hands over no packet decides nothing. -/
theorem agrees_afterCall {r : Receiver K} {call : Call K} (hcall : call.packet? = none) :
    r.Agrees (r.afterCall call) := by
  cases call with
  | packet a => cases hcall
  | _ => exact ⟨rfl, rfl, rfl, rfl⟩

section Calls

variable {r r' : Receiver K}

/-- What a run of calls preserves: it decides like the bare run of its packets. -/
theorem Agrees.afterCalls (h : r.Agrees r') (calls : List (Call K)) :
    (r.afterAll (packetsIn calls)).Agrees (r'.afterCalls calls) := by
  induction calls generalizing r r' with
  | nil => exact h
  | cons call calls ih =>
      cases call with
      | packet a => exact ih (h.after a)
      | _ => exact ih (h.trans (agrees_afterCall rfl))

/-- The answers to packets are those of the bare run. -/
theorem Agrees.answers (h : r.Agrees r') (calls : List (Call K)) :
    (r'.answers calls).filterMap Answer.flag? = r.flags (packetsIn calls) := by
  induction calls generalizing r r' with
  | nil => rfl
  | cons call calls ih =>
      cases call with
      | packet a =>
          have hrest := ih (h.after a)
          exact congrArg₂ List.cons (h.reliable a) hrest
      | _ => exact ih (h.trans (agrees_afterCall rfl))

/-- The measurements are those of the bare run, each with the standard deviation then in force. -/
theorem Agrees.outbox (h : r.Agrees r') (calls : List (Call K)) :
    (r'.afterCalls calls).outbox =
      r'.outbox ++ labelled (r.sentBy (packetsIn calls)) (inForce r'.stdDev calls) := by
  induction calls generalizing r r' with
  | nil => exact (List.append_nil _).symm
  | cons call calls ih =>
      cases call with
      | packet a =>
          have hrest := ih (h.after a)
          rw [after_outbox, after_stdDev, h.measurement? a, List.append_assoc,
            ← labelled_cons] at hrest
          exact hrest
      | _ => exact ih (h.trans (agrees_afterCall rfl))

end Calls

/-- Two receivers whose settings differ in the length of a diagnostics interval and in the standard
deviation only, built at any two times, get the same packets. Between them, any pairs are selected
for watching, and the standard deviation is set to anything, on either receiver. The packets are then
reliable or not alike, and after them the tables and the states of the strategies are equal. Each
packet leads to the same measurement or to none on both, and the measurement carries the standard
deviation that is then in force on the receiver that sends it. -/
theorem run_of_diagnostics {s : Settings K} {interval interval' start start' : Millis} {σ σ' : K}
    {r r' : Receiver K}
    (hcreate : create { s with statsInterval := interval, stdDev := σ } start = .ok r)
    (hcreate' : create { s with statsInterval := interval', stdDev := σ' } start' = .ok r')
    {calls calls' : List (Call K)} (hpackets : packetsIn calls' = packetsIn calls) :
    ∃ answers answers' q q' sent, r.serveAll calls = .ok (answers, q) ∧
      r'.serveAll calls' = .ok (answers', q') ∧
      answers'.filterMap Answer.flag? = answers.filterMap Answer.flag? ∧
      q'.table = q.table ∧ q'.pairing = q.pairing ∧
      sent.length = (packetsIn calls).length ∧
      q.outbox = labelled sent (inForce σ calls) ∧
      q'.outbox = labelled sent (inForce σ' calls') := by
  have hsound := sound_of_create hcreate
  have hsound' := sound_of_create hcreate'
  obtain ⟨-, rfl⟩ := create_eq_ok_iff.1 hcreate
  obtain ⟨-, rfl⟩ := create_eq_ok_iff.1 hcreate'
  let r := fresh { s with statsInterval := interval, stdDev := σ } start
  let r' := fresh { s with statsInterval := interval', stdDev := σ' } start'
  have hself : r.Agrees r := ⟨rfl, rfl, rfl, rfl⟩
  have hother : r.Agrees r' := ⟨rfl, rfl, rfl, rfl⟩
  have hafter := hself.afterCalls calls
  have hafter' := hother.afterCalls calls'
  rw [hpackets] at hafter'
  refine ⟨r.answers calls, r'.answers calls', r.afterCalls calls, r'.afterCalls calls',
    r.sentBy (packetsIn calls), serveAll_eq hsound calls, serveAll_eq hsound' calls', ?_, ?_, ?_,
    length_sentBy _ _, hself.outbox calls, ?_⟩
  · rw [hself.answers, hother.answers, hpackets]
  · exact hafter'.table.trans hafter.table.symm
  · exact hafter'.pairing.trans hafter.pairing.symm
  · rw [← hpackets]
    exact hother.outbox calls'

/-- The packets of a pair and a report, and nothing else. -/
def bareCalls : List (Call Float) :=
  (pairRun ++ [pairReport]).map .packet

/-- The same packets, with the pair selected and the standard deviation doubled before the report. -/
def watchedCalls : List (Call Float) :=
  pairRun.map .packet ++ [.watch ⟨⟨2⟩, ⟨1⟩⟩, .setStdDev 0.30, .packet pairReport]

/-- Standard settings with diagnostics that are refreshed every millisecond. -/
def briefIntervals : Settings Float :=
  { Settings.standard with statsInterval := 1, stdDev := 0.15 }

/-- Of the four packets the report gives a measurement, and the standard deviation that was set is
the only thing in it that differs. -/
theorem run_of_diagnostics_watched : ∃ (r r' q q' : Receiver Float)
    (answers answers' : List (Answer Float)) (sent : List (Option (Measurement Float))),
    create Settings.standard 0 = .ok r ∧ create briefIntervals 4294967295 = .ok r' ∧
    r.serveAll bareCalls = .ok (answers, q) ∧ r'.serveAll watchedCalls = .ok (answers', q') ∧
    q'.table = q.table ∧ q.outbox.length = 1 ∧ q.outbox = labelled sent [0.15, 0.15, 0.15, 0.15] ∧
    q'.outbox = labelled sent [0.15, 0.15, 0.15, 0.30] := by
  have hcreate := create_standard 0
  have hcreate' : create briefIntervals 4294967295 = .ok (fresh briefIntervals 4294967295) :=
    create_eq_ok_iff.2 ⟨(create_eq_ok_iff.1 hcreate).1, rfl⟩
  have hpackets : packetsIn watchedCalls = packetsIn bareCalls := rfl
  obtain ⟨answers, answers', q, q', sent, hserve, hserve', -, htable, -, -, hsent, hsent'⟩ :=
    run_of_diagnostics hcreate hcreate' hpackets
  have hlength : q.outbox.length = 1 := by
    rw [serveAll_eq (sound_of_create hcreate)] at hserve
    cases hserve
    decide +kernel
  exact ⟨_, _, q, q', answers, answers', sent, hcreate, hcreate', hserve, hserve', htable, hlength,
    hsent, hsent'⟩

end Receiver

end Ranging

import Mathlib.Tactic.FieldSimp
import Mathlib.Tactic.Ring
import Ranging.Proofs.ExactArithmetic
import Ranging.Proofs.Run
import Ranging.Proofs.Ticks

/-!
# The measured distance difference

A measurement of the anchors B and A combines five readings of two clocks: when the tag received
the last broadcast of either, when A received that of B and sent its own, and the time of flight
between the two. With exact arithmetic the result is what these readings stand for. If `D` ticks
of A's clock lie between the two transmissions, `R` ticks of the tag's clock between the two
receptions, and `ratio` is the tag's ticks for each tick of A, then the distance difference is

  `speedOfLight * (R - ratio * D) / tickFrequency`.

A tag whose distances to A and B are `dA` and `dB` hears A's broadcast later than B's by
`ratio * D` ticks and the ticks that light needs for `dA - dB`. So the measurement is `dA - dB`:
the distance to its second anchor minus the distance to its first, as in `Measurement.expectedDiff`.
-/

namespace Ranging

namespace Ticks

/-- A time of flight and the ticks since that arrival add up to the time between transmissions. -/
theorem add_elapsed_eq {flight reception txTime between : Ticks} (hle : flight.toInt ≤ between.toInt)
    (hlt : between.toInt - flight.toInt < 2 ^ 40)
    (hmod : reception.toInt ≡ txTime.toInt - (between.toInt - flight.toInt) [ZMOD 2 ^ 40]) :
    flight + elapsed reception txTime = between := by
  have helapsed := toInt_elapsed_of_modEq hmod (by omega) hlt
  have hdiff : elapsed reception txTime = between - flight := by
    apply Int64.toInt_inj.1
    rw [helapsed, Int64.toInt_sub, Int.bmod_eq_of_le (by omega) (by omega)]
  rw [hdiff]
  grind

end Ticks

variable {K : Type}

/-- `D` ticks of the sender's clock lie between the transmissions of two broadcasts and `R` ticks
of the tag's clock between their receptions, of which the readings show the last 40 bits. -/
structure Spacing (a : Arrival K) (flight : Ticks) (reception : Reception) (otherRx D : Ticks)
    (R : Int) : Prop where
  flight_le : flight.toInt ≤ D.toInt
  lt_period : D.toInt - flight.toInt < 2 ^ 40
  reception : reception.time.toInt ≡
    a.broadcast.txTime.toInt - (D.toInt - flight.toInt) [ZMOD 2 ^ 40]
  nonneg : 0 ≤ R
  lt_period' : R < 2 ^ 40
  otherRx : otherRx.toInt ≡ a.rxTime.toInt - R [ZMOD 2 ^ 40]

variable [Field K] [LinearOrder K] [FloorRing K]

/-- The difference of arrivals, from the ticks that its readings stand for. -/
theorem Spacing.arrivalDifference_eq {a : Arrival K} {flight otherRx D : Ticks}
    {reception : Reception} {R : Int} (h : Spacing a flight reception otherRx D R) (ratio : K) :
    Scalar.ofInt (Ticks.elapsed otherRx a.rxTime).toInt
        - Scalar.ofInt (flight + Ticks.elapsed reception.time a.broadcast.txTime).toInt * ratio =
      (R : K) - ratio * D.toInt := by
  rw [Ticks.add_elapsed_eq h.flight_le h.lt_period h.reception,
    Ticks.toInt_elapsed_of_modEq h.otherRx h.nonneg h.lt_period', Scalar.ofField_ofInt,
    Scalar.ofField_ofInt, mul_comm ratio]

namespace Receiver

/-- A packet from A that leads to a measurement with partner B gives A's distance minus B's. The
times on A's side and the ratio are those that A has after the packet, the tag's reception time of
B is the one stored before it. -/
theorem distanceDiff_eq {r r' : Receiver K} {a : Arrival K} {flag : Bool} {m : Measurement K}
    (hfrequency : 0 < r.tickFrequency)
    (hhandle : r.handle a.broadcast a.rxTime a.now = .ok (flag, r'))
    (hsent : r'.outbox = r.outbox ++ [m]) :
    m.second = a.source ∧ ∃ sender other flight reception otherRx,
      r'.table.find? a.source = some sender ∧
      sender.flight? r.table.windows a.now m.first = some flight ∧
      sender.reception? r.table.windows a.now m.first = some reception ∧
      r.table.find? m.first = some other ∧ other.rxTime = some otherRx ∧
      ∀ D R, Spacing a flight reception otherRx D R →
        m.distanceDiff = speedOfLight * (R - sender.clock.ratio * D.toInt) / r.tickFrequency ∧
        (∀ dA dB : K,
          R = sender.clock.ratio * D.toInt + r.tickFrequency * (dA - dB) / speedOfLight →
          m.distanceDiff = dA - dB) ∧
        ∀ (sqrt sin cos exp ln : K → K) (point : Point K),
          let _ := Analytic.ofField sqrt sin cos exp ln
          R = sender.clock.ratio * D.toInt + r.tickFrequency *
            (point.distance m.secondPosition - point.distance m.firstPosition) / speedOfLight →
          m.distanceDiff = m.expectedDiff point := by
  obtain ⟨hslot, -, rfl⟩ := eq_after_of_handle hhandle
  have hm : r.measurement? a = some m := by
    rw [after_outbox] at hsent
    exact Option.toList_eq_singleton_iff.1 (List.append_cancel_left hsent)
  obtain ⟨hsecond, sender, other, flight, reception, otherRx, hsender, hflight, hreception, -, hother,
    hrx, hdistance⟩ := measurement?_spec hslot hm
  refine ⟨hsecond, sender, other, flight, reception, otherRx, hsender, hflight, hreception, hother,
    hrx, ?_⟩
  intro D R hspacing
  have hlight : (speedOfLight : K) ≠ 0 := by
    rw [speedOfLight]
    norm_num
  have hvalue := hspacing.arrivalDifference_eq sender.clock.ratio
  rw [hvalue] at hdistance
  have hexact : ∀ dA dB : K,
      R = sender.clock.ratio * D.toInt + r.tickFrequency * (dA - dB) / speedOfLight →
      m.distanceDiff = dA - dB := by
    intro dA dB hR
    rw [hdistance, hR]
    field_simp
    ring
  exact ⟨hdistance, hexact, fun sqrt sin cos exp ln point => hexact _ _⟩

/-- Anchor 1 is heard three times, with a clock as fast as the tag's, and anchor 2 once. -/
def heardBefore : List (Arrival ℚ) :=
  [⟨⟨⟨1⟩, 1000, 0, [], none⟩, 5000, 0⟩,
    ⟨⟨⟨1⟩, 2000, 1, [], none⟩, 6000, 10⟩,
    ⟨⟨⟨1⟩, 3000, 2, [], some ⟨3, 0, 0⟩⟩, 7000, 20⟩,
    ⟨⟨⟨2⟩, 100, 4, [], some ⟨0, 0, 0⟩⟩, 7500, 25⟩]

/-- Anchor 1 sends 450 ticks after anchor 2, and is heard 500 ticks after it. -/
def heardNow : Arrival ℚ :=
  ⟨⟨⟨1⟩, 4000, 3, [⟨⟨2⟩, 3600, 4, 50⟩], some ⟨3, 0, 0⟩⟩, 8000, 30⟩

/-- Light travels the difference in 50 ticks. -/
theorem distanceDiff_of_heardNow :
    ∃ r' m, ((fresh (K := ℚ) Settings.standard 0).afterAll heardBefore).handle heardNow.broadcast
        heardNow.rxTime heardNow.now = .ok (true, r') ∧ r'.outbox = [m] ∧
      m.second = ⟨1⟩ ∧ m.first = ⟨2⟩ ∧ m.distanceDiff = 299792458 * 50 / 63897600000 := by
  let r : Receiver ℚ := (fresh (K := ℚ) Settings.standard 0).afterAll heardBefore
  have hhandle := handle_eq (r := r) (fun _ => by decide +kernel) heardNow
  have hreliable : r.reliable heardNow = true := by decide +kernel
  have houtbox : r.outbox = [] := List.isEmpty_iff.1 (by decide +kernel)
  obtain ⟨m, hm⟩ : ∃ m, r.measurement? heardNow = some m :=
    Option.isSome_iff_exists.1 (by decide +kernel)
  have hfirst : m.first = ⟨2⟩ := by
    have h : (r.measurement? heardNow).map (·.first) = some ⟨2⟩ := by decide +kernel
    simpa [hm] using h
  have hsent : (r.after heardNow).outbox = r.outbox ++ [m] := by simp [hm]
  rw [hreliable] at hhandle
  obtain ⟨hsecond, sender, other, flight, reception, otherRx, hsender, hflight, hreception,
    hother, hrx, hspacing⟩ := distanceDiff_eq (by decide +kernel) hhandle hsent
  rw [hfirst] at hflight hreception hother
  have hflight' : ((r.after heardNow).table.find? ⟨1⟩).bind
      (·.flight? r.table.windows heardNow.now ⟨2⟩) = some 50 := by decide +kernel
  have hreception' : ((r.after heardNow).table.find? ⟨1⟩).bind
      (·.reception? r.table.windows heardNow.now ⟨2⟩) = some ⟨3600, 4⟩ := by decide +kernel
  have hratio' : ((r.after heardNow).table.find? ⟨1⟩).map (·.clock.ratio) = some 1 := by
    decide +kernel
  have hrx' : (r.table.find? ⟨2⟩).bind (·.rxTime) = some 7500 := by decide +kernel
  change (r.after heardNow).table.find? ⟨1⟩ = some sender at hsender
  rw [hsender, Option.bind_some, hflight] at hflight'
  rw [hsender, Option.bind_some, hreception] at hreception'
  rw [hsender, Option.map_some] at hratio'
  rw [hother, Option.bind_some, hrx] at hrx'
  cases hflight'
  cases hreception'
  cases hrx'
  obtain ⟨hvalue, -⟩ := hspacing 450 500
    ⟨by decide, by decide, by decide, by decide, by decide, by decide⟩
  refine ⟨r.after heardNow, m, hhandle, by rw [hsent, houtbox]; rfl, hsecond, hfirst, ?_⟩
  rw [hvalue, Option.some.inj hratio']
  decide +kernel

end Receiver

end Ranging

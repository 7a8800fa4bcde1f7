import Ranging.Proofs.RecordText
import Ranging.Proofs.Validation
import Ranging.Settings.Document

/-!
# Settings that are saved and loaded

Settings are saved as a document and loaded from it again. Words are read as they were written. Of
the conversion of other numbers it is only assumed that it reads back the finite numbers among the
settings (`Settings.ReadsBack`). Then the settings that are loaded are the ones that were saved,
with a single exception. The check of the filter constants compares the accepted noise with zero
only. An infinite noise passes, is written as null, and null is no number: settings that a receiver
is built from cannot be loaded.
-/

namespace Ranging

open Json (Conversion Field Member Reader)

/-! ## Groups -/

theorem readMillis_takes [Conversion] (m : Millis) :
    readMillis.Takes (Json.nat m.toNat).compact m := by
  have hword : m.toNat < wordBound := Nat.lt_trans m.toNat_lt (by decide)
  have hmap := (Reader.natBelow_takes m.toNat_lt hword).map UInt32.ofNat
  rw [UInt32.ofNat_toNat] at hmap
  exact hmap

namespace Windows

/-- The members of a document that holds validity windows. -/
def members (w : Windows) : List (Member Windows) :=
  [⟨"position_ms", .nat w.position.toNat, fun v => { v with position := w.position }⟩,
    ⟨"remote_rx_ms", .nat w.reception.toNat, fun v => { v with reception := w.reception }⟩,
    ⟨"remote_tof_ms", .nat w.flight.toNat, fun v => { v with flight := w.flight }⟩,
    ⟨"active_ms", .nat w.active.toNat, fun v => { v with active := w.active }⟩]

theorem nodup_names [Conversion] : (layout.fields.map Field.name).Nodup := by
  change ["position_ms", "remote_rx_ms", "remote_tof_ms", "active_ms"].Nodup
  decide +kernel

theorem layout_takes [Conversion] (w : Windows) : layout.read.Takes w.toJson.compact w := by
  have hjson : w.toJson = .object (w.members.map Member.toPair) := rfl
  have hvalue : Member.changeAll w.members layout.start = w := rfl
  have htakes := Json.Layout.read_takes nodup_names hjson <|
    .cons ⟨rfl, (readMillis_takes w.position).map _⟩ <|
    .cons ⟨rfl, (readMillis_takes w.reception).map _⟩ <|
    .cons ⟨rfl, (readMillis_takes w.flight).map _⟩ <|
    .cons ⟨rfl, (readMillis_takes w.active).map _⟩ .nil
  rwa [hvalue] at htakes

end Windows

namespace RatioFilter

variable {f : RatioFilter Float}

/-- The members of a document that holds filter constants. -/
def members (f : RatioFilter Float) : List (Member (RatioFilter Float)) :=
  [⟨"max_clock_deviation", .float f.maxDeviation, fun g => { g with maxDeviation := f.maxDeviation }⟩,
    ⟨"accepted_noise", .float f.acceptedNoise, fun g => { g with acceptedNoise := f.acceptedNoise }⟩,
    ⟨"filter_weight", .float f.weight, fun g => { g with weight := f.weight }⟩,
    ⟨"bucket_max", .nat f.bucketMax, fun g => { g with bucketMax := f.bucketMax }⟩]

theorem nodup_names [Conversion] : (layout.fields.map Field.name).Nodup := by
  change ["max_clock_deviation", "accepted_noise", "filter_weight", "bucket_max"].Nodup
  decide +kernel

theorem toJson_eq (f : RatioFilter Float) : f.toJson = .object (f.members.map Member.toPair) := rfl

/-- The constants with a bound on both sides are finite. -/
theorem Valid.isFinite (h : f.Valid) :
    f.maxDeviation.isFinite = true ∧ f.weight.isFinite = true := by
  obtain ⟨⟨hpos, hhalf⟩, -, ⟨hzero, hone⟩, -⟩ := h
  have hle : 0.0 ≤ f.maxDeviation := by
    rw [Binary64.le_iff, Binary64.lt_iff.1 hpos]
    rfl
  exact ⟨isFinite_of_le_of_lt hle hhalf rfl rfl, isFinite_of_le_of_lt hzero hone rfl rfl⟩

/-- The numbers among the constants are read back. -/
structure ReadsBack [Conversion] (f : RatioFilter Float) : Prop where
  maxDeviation : Json.ReadsBack f.maxDeviation
  acceptedNoise : Json.ReadsBack f.acceptedNoise
  weight : Json.ReadsBack f.weight

theorem layout_takes [Conversion] (hvalid : f.Valid) (hback : f.ReadsBack)
    (hnoise : f.acceptedNoise.isFinite = true) (hbucket : f.bucketMax < halfWordBound) :
    layout.read.Takes f.toJson.compact f := by
  obtain ⟨hdeviation, hweight⟩ := hvalid.isFinite
  have hvalue : Member.changeAll f.members layout.start = f := rfl
  have htakes := Json.Layout.read_takes nodup_names f.toJson_eq <|
    .cons ⟨rfl, (hback.maxDeviation.takes hdeviation).map _⟩ <|
    .cons ⟨rfl, (hback.acceptedNoise.takes hnoise).map _⟩ <|
    .cons ⟨rfl, (hback.weight.takes hweight).map _⟩ <|
    .cons ⟨rfl, (Reader.natBelow_takes hbucket (Nat.lt_trans hbucket (by decide))).map _⟩ .nil
  rwa [hvalue] at htakes

/-- A noise that is not finite has no text that can be read. -/
theorem layout_fails [Conversion] (hvalid : f.Valid) (hback : f.ReadsBack)
    (hnoise : ¬ f.acceptedNoise.isFinite = true) :
    layout.read.Fails f.toJson.compact .mismatched := by
  obtain ⟨hdeviation, -⟩ := hvalid.isFinite
  have hnull : Reader.float.Fails (Json.float f.acceptedNoise).compact .mismatched :=
    fun rest _ => Reader.float_run_of_not_isFinite hnoise rest
  exact Json.Layout.read_fails nodup_names [_] _ f.toJson_eq rfl
    (.cons ⟨rfl, (hback.maxDeviation.takes hdeviation).map _⟩ .nil) rfl (hnull.map _)

end RatioFilter

theorem Strategy.ofName?_name (s : Strategy) : ofName? s.name = some s := by
  cases s <;> decide +kernel

/-! ## Settings -/

namespace Settings

/-- The numbers among settings, apart from words, are read back. -/
structure ReadsBack [Conversion] (s : Settings Float) : Prop where
  filter : s.filter.ReadsBack
  stdDev : Json.ReadsBack s.stdDev
  tickFrequency : Json.ReadsBack s.tickFrequency

/-- Every count is a number that its field can hold. -/
structure FitsWords (s : Settings Float) : Prop where
  anchorCapacity : s.anchorCapacity < wordBound
  receptionCapacity : s.receptionCapacity < wordBound
  flightCapacity : s.flightCapacity < wordBound
  bucketMax : s.filter.bucketMax < halfWordBound

variable {s : Settings Float}

/-- The members of a document that holds settings. -/
def members (s : Settings Float) : List (Member (Settings Float)) :=
  [⟨"anchor_capacity", .nat s.anchorCapacity,
      fun t => { t with anchorCapacity := s.anchorCapacity }⟩,
    ⟨"remote_capacity", .nat s.receptionCapacity,
      fun t => { t with receptionCapacity := s.receptionCapacity }⟩,
    ⟨"tof_capacity", .nat s.flightCapacity,
      fun t => { t with flightCapacity := s.flightCapacity }⟩,
    ⟨"validity", s.windows.toJson, fun t => { t with windows := s.windows }⟩,
    ⟨"clock", s.filter.toJson, fun t => { t with filter := s.filter }⟩,
    ⟨"stats_interval_ms", .nat s.statsInterval.toNat,
      fun t => { t with statsInterval := s.statsInterval }⟩,
    ⟨"measurement_std_dev", .float s.stdDev, fun t => { t with stdDev := s.stdDev }⟩,
    ⟨"tick_frequency_hz", .float s.tickFrequency,
      fun t => { t with tickFrequency := s.tickFrequency }⟩,
    ⟨"matching", .string s.strategy.name, fun t => { t with strategy := s.strategy }⟩]

theorem nodup_names [Conversion] : (layout.fields.map Field.name).Nodup := by
  change ["anchor_capacity", "remote_capacity", "tof_capacity", "validity", "clock",
    "stats_interval_ms", "measurement_std_dev", "tick_frequency_hz", "matching"].Nodup
  decide +kernel

theorem toJson_eq (s : Settings Float) : s.toJson = .object (s.members.map Member.toPair) := rfl

section Saved

variable [Conversion]

theorem capacity_takes {capacity : ℕ} (h : capacity < wordBound) :
    (Reader.natBelow wordBound).Takes (Json.nat capacity).compact capacity :=
  Reader.natBelow_takes h h

theorem layout_takes (hwords : s.FitsWords) (hvalid : s.Valid) (hback : s.ReadsBack)
    (hnoise : s.filter.acceptedNoise.isFinite = true) : layout.read.Takes s.toJson.compact s := by
  have hvalue : Member.changeAll s.members layout.start = s := rfl
  have htakes := Json.Layout.read_takes nodup_names s.toJson_eq <|
    .cons ⟨rfl, (capacity_takes hwords.anchorCapacity).map _⟩ <|
    .cons ⟨rfl, (capacity_takes hwords.receptionCapacity).map _⟩ <|
    .cons ⟨rfl, (capacity_takes hwords.flightCapacity).map _⟩ <|
    .cons ⟨rfl, s.windows.layout_takes.map _⟩ <|
    .cons ⟨rfl, (RatioFilter.layout_takes hvalid.filter hback.filter hnoise
      hwords.bucketMax).map _⟩ <|
    .cons ⟨rfl, (readMillis_takes s.statsInterval).map _⟩ <|
    .cons ⟨rfl, (hback.stdDev.takes hvalid.deviation.1).map _⟩ <|
    .cons ⟨rfl, (hback.tickFrequency.takes hvalid.frequency.1).map _⟩ <|
    .cons ⟨rfl, (Reader.choice_takes s.strategy.ofName?_name
      (.string (Json.stringText_flatMap_escape _))).map _⟩ .nil
  rwa [hvalue] at htakes

/-- Reading stops at the filter constants. -/
theorem layout_fails (hwords : s.FitsWords) (hvalid : s.Valid) (hback : s.ReadsBack)
    (hnoise : ¬ s.filter.acceptedNoise.isFinite = true) :
    layout.read.Fails s.toJson.compact .mismatched := by
  exact Json.Layout.read_fails nodup_names [_, _, _, _] _ s.toJson_eq rfl
    (.cons ⟨rfl, (capacity_takes hwords.anchorCapacity).map _⟩ <|
      .cons ⟨rfl, (capacity_takes hwords.receptionCapacity).map _⟩ <|
      .cons ⟨rfl, (capacity_takes hwords.flightCapacity).map _⟩ <|
      .cons ⟨rfl, s.windows.layout_takes.map _⟩ .nil)
    rfl ((RatioFilter.layout_fails hvalid.filter hback.filter hnoise).map _)

theorem load_of_isFinite (hwords : s.FitsWords) (hvalid : s.validate = .ok ())
    (hback : s.ReadsBack) (hnoise : s.filter.acceptedNoise.isFinite = true) :
    load s.toJson.compactText = .ok s := by
  have htakes := layout_takes hwords (validate_eq_ok_iff.1 hvalid) hback hnoise
  rw [load, Json.Layout.parse_of_takes htakes]
  change (do s.validate.mapError .unusable; return s : Except LoadError (Settings Float)) = .ok s
  rw [hvalid]
  rfl

theorem load_of_not_isFinite (hwords : s.FitsWords) (hvalid : s.validate = .ok ())
    (hback : s.ReadsBack) (hnoise : ¬ s.filter.acceptedNoise.isFinite = true) :
    load s.toJson.compactText = .error (.unreadable .mismatched) := by
  have hfails := layout_fails hwords (validate_eq_ok_iff.1 hvalid) hback hnoise
  rw [load, Json.Layout.parse_of_fails hfails]
  rfl

/-- Valid settings whose numbers are read back are loaded as they were saved, unless the accepted
noise is infinite. Then the document is refused. -/
theorem load_toJson (hwords : s.FitsWords) (hvalid : s.validate = .ok ()) (hback : s.ReadsBack) :
    load s.toJson.compactText =
      if s.filter.acceptedNoise.isFinite then .ok s else .error (.unreadable .mismatched) := by
  split
  · rename_i hnoise
    exact load_of_isFinite hwords hvalid hback hnoise
  · rename_i hnoise
    exact load_of_not_isFinite hwords hvalid hback hnoise

end Saved

/-- The conversion to the nearest number reads the numbers of any settings back. -/
theorem readsBack_nearest (s : Settings Float) : @ReadsBack .nearest s :=
  let _ : Conversion := .nearest
  ⟨⟨Json.readsBack_nearest _, Json.readsBack_nearest _, Json.readsBack_nearest _⟩,
    Json.readsBack_nearest _, Json.readsBack_nearest _⟩

/-- Settings of which none is the standard one. -/
def unusual : Settings Float where
  anchorCapacity := 8
  receptionCapacity := 4
  flightCapacity := 5
  windows := { position := 1000, reception := 40, flight := 1500, active := 3000 }
  filter := { maxDeviation := 2.5e-5, acceptedNoise := 1.25e-7, weight := 0.3, bucketMax := 7 }
  statsInterval := 250
  stdDev := 0.45
  tickFrequency := 1e9
  strategy := .random

/-- They are loaded as they were saved by the conversion that documents are read with. -/
theorem load_toJson_unusual :
    unusual.FitsWords ∧ unusual.validate = .ok () ∧ unusual.ReadsBack ∧
      unusual.filter.acceptedNoise.isFinite = true ∧
      load unusual.toJson.compactText = .ok unusual := by
  have hwords : unusual.FitsWords := ⟨by decide, by decide, by decide, by decide⟩
  have hvalid : unusual.validate = .ok () := rfl
  have hback : unusual.ReadsBack := by
    refine ⟨⟨?_, ?_, ?_⟩, ?_, ?_⟩ <;> exact fun _ => by decide +kernel
  exact ⟨hwords, hvalid, hback, rfl, (load_toJson hwords hvalid hback).trans (if_pos rfl)⟩

/-- The standard settings, with a noise that accepts every candidate. -/
def infiniteNoise : Settings Float :=
  let infinity : Float := .ofBits 0x7ff0000000000000
  { standard with filter := { RatioFilter.standard with acceptedNoise := infinity } }

/-- An infinite noise is valid, the other numbers are read back, and the document is refused. -/
theorem not_load_toJson_infiniteNoise :
    infiniteNoise.FitsWords ∧ infiniteNoise.validate = .ok () ∧ infiniteNoise.ReadsBack ∧
      load infiniteNoise.toJson.compactText = .error (.unreadable .mismatched) := by
  have hwords : infiniteNoise.FitsWords := ⟨by decide, by decide, by decide, by decide⟩
  have hvalid : infiniteNoise.validate = .ok () := rfl
  have hback : infiniteNoise.ReadsBack := by
    refine ⟨⟨?_, nofun, ?_⟩, ?_, ?_⟩ <;> exact fun _ => by decide +kernel
  exact ⟨hwords, hvalid, hback, load_of_not_isFinite hwords hvalid hback nofun⟩

end Settings

end Ranging

import Ranging.Proofs.RecordForms
import Ranging.Proofs.SettingsDocument

/-!
# Documents with some of the settings

A document need not hold all settings, and it may hold members that are no settings. `Partial` is what
such a document says: a value for some of the fields. Its text is any object that gives these fields
their values, in any order and with any other members among them (`Partial.IsDocument`). Which texts
give a number is up to the conversion.

What is loaded depends on what the document says alone. The fields that it gives replace the standard
ones, and the settings that come out are checked like any others.
-/

namespace Ranging

open Json (Blank ChoiceText Conversion Field Gives Numeral ObjectText Reader RecordText Slot)

/-! ## Texts of values -/

/-- A whole number below a bound is written as its digits. -/
def NatText (bound n : ℕ) (text : List Char) : Prop :=
  n < bound ∧ text = (toString n).toList

def MillisText (m : Millis) (text : List Char) : Prop :=
  text = (toString m.toNat).toList

/-- A number is written as any numeral that is converted to this number. -/
def FloatText [Conversion] (x : Float) (text : List Char) : Prop :=
  ∃ n : Numeral, n.WellFormed ∧ n.number?.map Json.Number.toFloat = some x ∧ text = n.text

/-- A strategy is written as its name. -/
def StrategyText (s : Strategy) : List Char → Prop :=
  ChoiceText s.name

theorem natText_takes [Conversion] {bound n : ℕ} (hbound : bound ≤ wordBound) {text : List Char}
    (h : NatText bound n text) : (Reader.natBelow bound).Takes text n := by
  obtain ⟨hn, rfl⟩ := h
  exact Reader.natBelow_takes hn (Nat.lt_of_lt_of_le hn hbound)

theorem millisText_takes [Conversion] {m : Millis} {text : List Char} (h : MillisText m text) :
    readMillis.Takes text m := by
  rw [h]
  exact readMillis_takes m

theorem floatText_takes [Conversion] {x : Float} {text : List Char} (h : FloatText x text) :
    Reader.float.Takes text x := by
  obtain ⟨n, hn, hnumber, rfl⟩ := h
  obtain ⟨value, hvalue, rfl⟩ := Option.map_eq_some_iff.1 hnumber
  exact Reader.float_takes hn hvalue

theorem strategyText_takes [Conversion] {s : Strategy} {text : List Char}
    (h : StrategyText s text) : (Reader.choice Strategy.ofName?).Takes text s :=
  Reader.choice_takes s.ofName?_name h

/-! ## Groups -/

namespace Windows

/-- The fields of validity windows with these values. -/
def slots (w : Windows) : List (Slot Windows) := [
  .ofField "position_ms" (some w.position) MillisText position
    (fun position v => { v with position }) fun _ => rfl,
  .ofField "remote_rx_ms" (some w.reception) MillisText reception
    (fun reception v => { v with reception }) fun _ => rfl,
  .ofField "remote_tof_ms" (some w.flight) MillisText flight
    (fun flight v => { v with flight }) fun _ => rfl,
  .ofField "active_ms" (some w.active) MillisText active
    (fun active v => { v with active }) fun _ => rfl]

/-- All validity windows, in an object or in an array. -/
def IsText (w : Windows) : List Char → Prop :=
  RecordText w.slots

theorem suits_slots [Conversion] (w : Windows) : layout.Suits w.slots where
  names_nodup := nodup_names
  fits :=
    .cons (Field.fits_required fun _ => millisText_takes) <|
    .cons (Field.fits_required fun _ => millisText_takes) <|
    .cons (Field.fits_required fun _ => millisText_takes) <|
    .cons (Field.fits_required fun _ => millisText_takes) .nil
  commute := by
    simp only [slots, List.pairwise_cons, List.forall_mem_cons, List.not_mem_nil, false_implies,
      implies_true, List.Pairwise.nil, and_true]
    repeat' apply And.intro
    all_goals exact fun _ => rfl

theorem isText_takes [Conversion] {w : Windows} {text : List Char} (h : w.IsText text) :
    layout.read.Takes text w :=
  w.suits_slots.read_takes h

end Windows

namespace RatioFilter

variable [Conversion]

/-- The fields of filter constants with these values. -/
def slots (f : RatioFilter Float) : List (Slot (RatioFilter Float)) := [
  .ofField "max_clock_deviation" (some f.maxDeviation) FloatText maxDeviation
    (fun maxDeviation g => { g with maxDeviation }) fun _ => rfl,
  .ofField "accepted_noise" (some f.acceptedNoise) FloatText acceptedNoise
    (fun acceptedNoise g => { g with acceptedNoise }) fun _ => rfl,
  .ofField "filter_weight" (some f.weight) FloatText weight
    (fun weight g => { g with weight }) fun _ => rfl,
  .ofField "bucket_max" (some f.bucketMax) (NatText halfWordBound) bucketMax
    (fun bucketMax g => { g with bucketMax }) fun _ => rfl]

/-- All filter constants, in an object or in an array. -/
def IsText (f : RatioFilter Float) : List Char → Prop :=
  RecordText f.slots

theorem suits_slots (f : RatioFilter Float) : layout.Suits f.slots where
  names_nodup := nodup_names
  fits :=
    .cons (Field.fits_required fun _ => floatText_takes) <|
    .cons (Field.fits_required fun _ => floatText_takes) <|
    .cons (Field.fits_required fun _ => floatText_takes) <|
    .cons (Field.fits_required fun _ => natText_takes (by decide)) .nil
  commute := by
    simp only [slots, List.pairwise_cons, List.forall_mem_cons, List.not_mem_nil, false_implies,
      implies_true, List.Pairwise.nil, and_true]
    repeat' apply And.intro
    all_goals exact fun _ => rfl

theorem isText_takes {f : RatioFilter Float} {text : List Char} (h : f.IsText text) :
    layout.read.Takes text f :=
  f.suits_slots.read_takes h

end RatioFilter

/-! ## Settings -/

namespace Settings

/-- Values for some of the fields of settings. -/
structure Partial where
  anchorCapacity : Option ℕ := none
  receptionCapacity : Option ℕ := none
  flightCapacity : Option ℕ := none
  windows : Option Windows := none
  filter : Option (RatioFilter Float) := none
  statsInterval : Option Millis := none
  stdDev : Option Float := none
  tickFrequency : Option Float := none
  strategy : Option Strategy := none

namespace Partial

/-- Settings with the fields that are given replaced. -/
def applyTo (p : Partial) (s : Settings Float) : Settings Float where
  anchorCapacity := p.anchorCapacity.getD s.anchorCapacity
  receptionCapacity := p.receptionCapacity.getD s.receptionCapacity
  flightCapacity := p.flightCapacity.getD s.flightCapacity
  windows := p.windows.getD s.windows
  filter := p.filter.getD s.filter
  statsInterval := p.statsInterval.getD s.statsInterval
  stdDev := p.stdDev.getD s.stdDev
  tickFrequency := p.tickFrequency.getD s.tickFrequency
  strategy := p.strategy.getD s.strategy

/-- The fields of settings, some of them with a value. -/
def slots [Conversion] (p : Partial) : List (Slot (Settings Float)) := [
  .ofField "anchor_capacity" p.anchorCapacity (NatText wordBound) Settings.anchorCapacity
    (fun anchorCapacity s => { s with anchorCapacity }) fun _ => rfl,
  .ofField "remote_capacity" p.receptionCapacity (NatText wordBound) Settings.receptionCapacity
    (fun receptionCapacity s => { s with receptionCapacity }) fun _ => rfl,
  .ofField "tof_capacity" p.flightCapacity (NatText wordBound) Settings.flightCapacity
    (fun flightCapacity s => { s with flightCapacity }) fun _ => rfl,
  .ofField "validity" p.windows Windows.IsText Settings.windows
    (fun windows s => { s with windows }) fun _ => rfl,
  .ofField "clock" p.filter RatioFilter.IsText Settings.filter
    (fun filter s => { s with filter }) fun _ => rfl,
  .ofField "stats_interval_ms" p.statsInterval MillisText Settings.statsInterval
    (fun statsInterval s => { s with statsInterval }) fun _ => rfl,
  .ofField "measurement_std_dev" p.stdDev FloatText Settings.stdDev
    (fun stdDev s => { s with stdDev }) fun _ => rfl,
  .ofField "tick_frequency_hz" p.tickFrequency FloatText Settings.tickFrequency
    (fun tickFrequency s => { s with tickFrequency }) fun _ => rfl,
  .ofField "matching" p.strategy StrategyText Settings.strategy
    (fun strategy s => { s with strategy }) fun _ => rfl]

/-- A document that is an object with these values for the fields, each of them once, in any order and
among any other members. -/
inductive IsDocument [Conversion] (p : Partial) : String → Prop where
  | mk {before object after : List Char} {members : List (String × List Char)} :
    Blank before → ObjectText members object → Gives p.slots members → Blank after →
    p.IsDocument (String.ofList (before ++ (object ++ after)))

theorem suits_slots [Conversion] (p : Partial) : layout.Suits p.slots where
  names_nodup := nodup_names
  fits :=
    .cons (Field.fits_optional fun _ _ => natText_takes (Nat.le_refl _)) <|
    .cons (Field.fits_optional fun _ _ => natText_takes (Nat.le_refl _)) <|
    .cons (Field.fits_optional fun _ _ => natText_takes (Nat.le_refl _)) <|
    .cons (Field.fits_optional fun _ _ => Windows.isText_takes) <|
    .cons (Field.fits_optional fun _ _ => RatioFilter.isText_takes) <|
    .cons (Field.fits_optional fun _ _ => millisText_takes) <|
    .cons (Field.fits_optional fun _ _ => floatText_takes) <|
    .cons (Field.fits_optional fun _ _ => floatText_takes) <|
    .cons (Field.fits_optional fun _ _ => strategyText_takes) .nil
  commute := by
    simp only [slots, List.pairwise_cons, List.forall_mem_cons, List.not_mem_nil, false_implies,
      implies_true, List.Pairwise.nil, and_true]
    repeat' apply And.intro
    all_goals exact fun _ => rfl

/-- A document is read as the standard settings with the fields that it gives replaced. -/
theorem IsDocument.parse_eq [Conversion] {p : Partial} {text : String} (h : p.IsDocument text) :
    layout.parse text = .ok (p.applyTo standard) := by
  obtain ⟨hbefore, hobject, hgives, hafter⟩ := h
  exact Json.Layout.parse_append hbefore (p.suits_slots.read_takes_object hobject hgives) hafter

end Partial

/-- A document with some of the fields is loaded as the standard settings with these fields replaced,
if the check finds nothing wrong with them, and fails with the first problem otherwise. So neither the
order of the members nor unknown members among them make any difference. -/
theorem load_document [Conversion] {p : Partial} {text : String} (h : p.IsDocument text) :
    (load text = match (p.applyTo standard).validate with
      | .ok () => .ok (p.applyTo standard)
      | .error problem => .error (.unusable problem)) ∧
    ∀ other, p.IsDocument other → load other = load text := by
  have hload {text : String} (h : p.IsDocument text) :
      load text = match (p.applyTo standard).validate with
        | .ok () => .ok (p.applyTo standard)
        | .error problem => .error (.unusable problem) := by
    rw [load, h.parse_eq]
    change (do (p.applyTo standard).validate.mapError .unusable; return p.applyTo standard :
      Except LoadError (Settings Float)) = _
    cases (p.applyTo standard).validate <;> rfl
  exact ⟨hload h, fun other hother => (hload hother).trans (hload h).symm⟩

/-- A capacity, a deviation and a strategy. -/
def smallRandom : Partial :=
  { anchorCapacity := some 8, stdDev := some 0.25, strategy := some .random }

/-- A deviation as it may be written. -/
def quarter : Numeral := ⟨false, ['2'], ['5'], some ⟨false, some true, ['1']⟩⟩

/-- A document gives three fields, in another order than settings have them, and an unknown one. -/
theorem load_document_reordered :
    load ("\x7b\"note\": [\x7b\x7d], \"matching\": \"random\", \"measurement_std_dev\": 2.5e-1, " ++
      "\"anchor_capacity\": 8\x7d") =
      .ok { standard with anchorCapacity := 8, stdDev := 0.25, strategy := .random } := by
  have hgap : Blank [' '] := List.forall_mem_singleton.2 rfl
  have hname (name : String) := Json.stringText_flatMap_escape name.toList
  have hempty : Json.ValueText ['{', '}'] := @Json.Grammar.empty .object [] .nil
  have hnote : Json.ValueText ['[', '{', '}', ']'] :=
    @Json.Grammar.bracket .array [] ['{', '}'] .nil (.last .none hempty .nil)
  let members := [("note", ['[', '{', '}', ']']), ("matching", Json.quote "random"),
    ("measurement_std_dev", quarter.text), ("anchor_capacity", ['8'])]
  have hobject : ObjectText members _ :=
    .mk (.cons (.first .nil) (hname "note") .nil hgap <|
      .cons (.next .nil hgap) (hname "matching") .nil hgap <|
      .cons (.next .nil hgap) (hname "measurement_std_dev") .nil hgap <|
      .cons (.next .nil hgap) (hname "anchor_capacity") .nil hgap .nil) .nil
  have hquarter : FloatText 0.25 quarter.text := by
    refine ⟨quarter, ?_, by decide +kernel, rfl⟩
    constructor <;> simp [quarter]
  have hgives : Gives smallRandom.slots members := by
    refine ⟨by decide +kernel, ?_⟩
    rw [List.forall_mem_cons, List.forall_mem_cons, List.forall_mem_cons, List.forall_mem_singleton]
    refine ⟨Or.inr ⟨by decide +kernel, hnote⟩, Or.inl ?_, Or.inl ?_, Or.inl ?_⟩
    · exact ⟨_, List.mem_of_getLast? rfl, rfl, _, rfl, .string (hname "random")⟩
    · exact ⟨_, List.mem_of_getElem? (i := 6) rfl, rfl, _, rfl, hquarter⟩
    · exact ⟨_, List.mem_cons_self, rfl, _, rfl, by decide, by decide +kernel⟩
  have hvalid : (smallRandom.applyTo standard).validate = .ok () := rfl
  have hload := (load_document (.mk .nil hobject hgives .nil)).1
  rw [hvalid] at hload
  refine Eq.trans (congrArg load ?_) hload
  decide +kernel

end Settings

end Ranging

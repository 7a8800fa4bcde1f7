import Ranging.Text.Lowercase

/-!
# Scenarios

Each scenario puts one kind of stress on a receiver.
-/

namespace Ranging

/-- A kind of simulation run. -/
inductive Scenario where
  /-- A well-behaved installation. -/
  | nominal
  /-- Oscillators near the edge of the tolerated drift. -/
  | clockDrift
  /-- The tag misses a third of all packets. -/
  | packetLoss
  /-- Every tick counter starts over during the run. -/
  | timerWrap
  /-- All anchors are replaced in the middle of the run. -/
  | anchorChurn
  /-- Partners are chosen at random. -/
  | randomMatching
deriving DecidableEq

namespace Scenario

/-- All scenarios, in the order in which they are run. -/
def all : List Scenario :=
  [.nominal, .clockDrift, .packetLoss, .timerWrap, .anchorChurn, .randomMatching]

/-- The name of a scenario. -/
def name : Scenario → String
  | .nominal => "nominal"
  | .clockDrift => "clock_drift"
  | .packetLoss => "packet_loss"
  | .timerWrap => "timer_wrap"
  | .anchorChurn => "anchor_churn"
  | .randomMatching => "random_matching"

/-- What a scenario does, in one line. -/
def description : Scenario → String
  | .nominal => "Round-robin anchors, 2 ppm drift, every packet received"
  | .clockDrift => "Clocks drift up to 8 ppm, ratios still inside the physical bound"
  | .packetLoss => "33% tag-side packet loss, pairs must resync"
  | .timerWrap => "All 40-bit counters overflow one to two seconds in"
  | .anchorChurn => "Anchors replaced halfway, table smaller than population"
  | .randomMatching => "Random matching must cover many distinct pairs"

/-- The catalogue number of a scenario. -/
def code : Scenario → String
  | .nominal => "tdoa-001"
  | .clockDrift => "tdoa-002"
  | .packetLoss => "tdoa-003"
  | .timerWrap => "tdoa-004"
  | .anchorChurn => "tdoa-005"
  | .randomMatching => "tdoa-006"

/-- The ways to write a scenario in lower case: its name, with or without the underscore, and its
catalogue number. -/
def spellings (s : Scenario) : List String :=
  [s.name, String.ofList (s.name.toList.filter (· ≠ '_')), s.code]

/-- No scenario is written like this. -/
structure UnknownName where
  text : String
deriving DecidableEq

/-- The message for a text that names no scenario. -/
def UnknownName.message (e : UnknownName) : String :=
  s!"Unknown scenario: {e.text}"

/-- The scenario that a text names, in small or capital letters. -/
def parse (text : String) : Except UnknownName Scenario :=
  match all.find? (·.spellings.contains (Text.lowercase text)) with
  | some s => .ok s
  | none => .error ⟨text⟩

end Scenario

end Ranging

import Ranging.Decimal.Style
import Ranging.Settings

/-!
# Messages about settings

The wording of every problem that `Settings.validate` can find.
-/

namespace Ranging

/-- The name of a capacity in documents. -/
def Capacity.name : Capacity → String
  | .anchors => "anchor_capacity"
  | .receptions => "remote_capacity"
  | .flights => "tof_capacity"

/-- What is wrong with a constant of the clock filter. -/
def RatioFilter.Problem.message : RatioFilter.Problem Float → String
  | .deviation value => s!"max_clock_deviation {messageNumber value} outside (0, 0.5)"
  | .noise value => s!"accepted_noise {messageNumber value} must be positive"
  | .weight value => s!"filter_weight {messageNumber value} outside [0, 1)"
  | .emptyBucket => "bucket_max must be non-zero"

/-- Why a receiver cannot be built. -/
def Settings.Problem.message : Settings.Problem Float → String
  | .zeroCapacity capacity => s!"Capacity must be non-zero: {capacity.name}"
  | .tickFrequency value => s!"Invalid tick frequency: {messageNumber value} Hz"
  | .stdDev value => s!"Invalid measurement standard deviation: {messageNumber value} m"
  | .zeroStatsInterval => "Stats interval must be non-zero"
  | .filter problem => s!"Invalid clock correction parameter: {problem.message}"

end Ranging

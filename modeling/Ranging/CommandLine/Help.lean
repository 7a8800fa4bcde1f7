import Ranging.CommandLine.Run

/-!
# Help

What a user is told who asks for help or gives wrong arguments.
-/

namespace Ranging.CommandLine

/-- An overview of the options. -/
def helpText : String :=
  "Run deterministic TDoA simulations against ground truth\n" ++
  "\n" ++
  "Usage: tdoa-sim [OPTIONS]\n" ++
  "\n" ++
  "Options:\n" ++
  "  -s, --seed <SEED>          Master seed for determinism (0 = random from time) [default: 42]\n" ++
  "  -a, --anchors <ANCHORS>    Number of anchors [default: 8]\n" ++
  "  -S, --scenario <SCENARIO>  Scenario to run (nominal, clock_drift, packet_loss, timer_wrap, " ++
  "anchor_churn, random_matching, all) [default: all]\n" ++
  "      --seeds <SEEDS>        Number of consecutive seeds to test (for CI mode) [default: 1]\n" ++
  "  -d, --duration <DURATION>  Simulated duration in seconds [default: 5]\n" ++
  "  -m, --matching <MATCHING>  Matching algorithm (random, youngest)\n" ++
  "  -c, --config <CONFIG>      Engine configuration as JSON\n" ++
  "  -v, --verbose              Verbose output\n" ++
  "      --json                 JSON output for CI parsing\n" ++
  "      --export <EXPORT>      Export every measurement of a single scenario to a JSON file\n" ++
  "  -h, --help                 Print help\n"

/-- The report for arguments of which no options come. -/
def Stop.report : Stop → Report
  | .usage => {
      exitCode := 2
      stderr := "error: invalid arguments\n\nFor more information, try '--help'.\n" }
  | .help => { exitCode := 0, stdout := helpText }

end Ranging.CommandLine

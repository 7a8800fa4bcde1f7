import Ranging.CommandLine.Files
import Ranging.CommandLine.Options
import Ranging.Json.Sorted
import Ranging.Random.Draw
import Ranging.Settings.Document
import Ranging.Simulation.Message
import Ranging.Simulation.Trace

/-!
# What the command line does

Trials are run for one or all scenarios and for one or several seeds, and a summary tells which of
them passed. A single trial can be written down as a trace instead. Files are read and written
outside: the text of the settings comes in, and the text of the trace goes out.
-/

namespace Ranging.CommandLine

/-- What is printed and written, and whether everything went well. -/
structure Report where
  exitCode : UInt32
  stdout : String := ""
  stderr : String := ""
  /-- A file to be written, by its path and text. -/
  file : Option (String × String) := none

/-- Why trials could not be run to their end. -/
inductive Failure where
  | unknownScenario (e : Scenario.UnknownName)
  | settings (e : Settings.LoadError)
  | setup (problem : Setup.Problem Float)
  /-- A trace holds a single trial. -/
  | traceOfAll
  /-- A file could not be read or written. -/
  | file (fault : FileFault)

/-- Why a document is no settings. -/
def loadMessage : Settings.LoadError → String
  | .unreadable .truncated => "Config parse error: the text ends too early"
  | .unreadable .malformed => "Config parse error: the text is malformed"
  | .unreadable .mismatched => "Config parse error: a value is missing or of the wrong type"
  | .unusable problem => problem.message

/-- The message of a failure. -/
def Failure.message : Failure → String
  | .unknownScenario e => e.message
  | .settings e => s!"Engine configuration error: {loadMessage e}"
  | .setup problem => problem.message
  | .traceOfAll =>
    "Invalid simulation parameter: --export only supports a single scenario, not 'all'"
  | .file fault => s!"I/O error: {fault.message}"

/-- The report of a failure. Who misspells a scenario is told their names. -/
def Failure.report (f : Failure) : Report where
  exitCode := 1
  stderr :=
    let names := ", ".intercalate (Scenario.all.map (·.name))
    let hint := match f with
      | .unknownScenario _ => s!"Available scenarios: {names}, all\n"
      | _ => ""
    s!"Error: {f.message}\n" ++ hint

/-- A single number as precise as the summary's others. -/
def widened (rate : Float32) : Json :=
  .float rate.toFloat

/-- The outcome of a trial as part of a summary. -/
def outcomeJson (o : Outcome Float) : Json :=
  .object [
    ("scenario", .string o.scenario.name),
    ("seed", .nat o.seed.toNat),
    ("passed", .bool o.passed),
    ("time_secs", .float o.finalTime),
    ("packets_sent", .nat o.metrics.sent),
    ("packets_received", .nat o.metrics.received),
    ("measurements", .nat o.metrics.measurements),
    ("rms_error", .float o.metrics.rmsError),
    ("max_error", .float o.metrics.maxError),
    ("distinct_pairs", .nat o.metrics.pairs),
    ("stats", o.metrics.snapshot.toJsonWith widened),
    ("failure_reason", .option (fun s => .string s.message) o.shortfall)]

/-- The summary of several trials. -/
def summary (outcomes : List (Outcome Float)) : Json :=
  let failed := (outcomes.filter (!·.passed)).length
  Json.sorted (.object [
    ("total", .nat outcomes.length),
    ("passed", .nat (outcomes.length - failed)),
    ("failed", .nat failed),
    ("results", .array (outcomes.map outcomeJson))])

namespace Options

/-- The scenarios to run. -/
def scenarios (o : Options) : Except Failure (List Scenario) :=
  if o.scenario = "all" then .ok Scenario.all
  else ((Scenario.parse o.scenario).mapError .unknownScenario).map ([·])

/-- The settings that trials start from. The argument is the content of the file that the user
names, or why it cannot be read. -/
def settings (content : Option (Except FileFault String)) : Except Failure (Settings Float) :=
  match content with
  | none => .ok .standard
  | some (.error fault) => .error (.file fault)
  | some (.ok text) => (Settings.load text).mapError .settings

/-- The trial for a seed. -/
def trial (o : Options) (settings : Settings Float) (seed : UInt64) : Trial Float where
  seed := seed
  anchorCount := o.anchors
  duration := o.duration
  strategy := o.strategy
  settings := settings

/-- Run one trial. -/
def runTrial (t : Trial Float) (scenario : Scenario) :
    Except Failure (World ChaCha Float × Outcome Float) :=
  (t.run scenario).mapError .setup

/-- Run every scenario for `count` consecutive seeds. The first failure ends it. -/
def outcomes (o : Options) (settings : Settings Float) (scenarios : List Scenario)
    (seed : UInt64) (count : Nat) : Except Failure (List (Outcome Float)) := do
  match count with
  | 0 => return []
  | count + 1 =>
    let here ← scenarios.mapM fun scenario =>
      (·.2) <$> runTrial (o.trial settings seed) scenario
    return here ++ (← o.outcomes settings scenarios (seed + 1) count)

/-- The exit code that tells whether all trials passed. -/
def exitCode (allPassed : Bool) : UInt32 :=
  if allPassed then 0 else 1

/-- Run what the options ask for. `content` is the content of the settings file, if one is named,
and `clock` is the time that stands in for a seed of zero. -/
def execute (o : Options) (content : Option (Except FileFault String)) (clock : UInt64) :
    Except Failure Report := do
  let scenarios ← o.scenarios
  let settings ← settings content
  let seed := if o.seed = 0 then clock else o.seed
  match o.tracePath with
  | some path =>
    let [scenario] := scenarios | throw .traceOfAll
    let (w, outcome) ← runTrial (o.trial settings seed) scenario
    return {
      exitCode := exitCode outcome.passed
      file := some (path, (Trace.ofTrial w outcome).toJson.prettyText) }
  | none =>
    let outcomes ← o.outcomes settings scenarios seed o.seeds
    return {
      exitCode := exitCode (outcomes.all (·.passed))
      stdout := if o.json then (summary outcomes).prettyText ++ "\n" else "" }

/-- The report of what the options ask for. -/
def run (o : Options) (content : Option (Except FileFault String)) (clock : UInt64) : Report :=
  match o.execute content clock with
  | .ok report => report
  | .error failure => failure.report

end Options

end Ranging.CommandLine

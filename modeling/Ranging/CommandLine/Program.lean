import Ranging.CommandLine.Files
import Ranging.CommandLine.Help

/-!
# The program

Reads the file that the options name, runs what they ask for, and writes what comes of it.
-/

namespace Ranging.CommandLine

variable {m : Type → Type} [Monad m] [FileSystem m]

/-- Write the file of a report. If that fails, the failure is the report. -/
def Report.deliver (report : Report) : m Report := do
  match report.file with
  | none => return report
  | some (path, text) =>
    match ← FileSystem.write path text with
    | .ok () => return report
    | .error fault => return (Failure.file fault).report

/-- Run the program on its arguments. `clock` is the time that stands in for a seed of zero. -/
def program (args : List String) (clock : UInt64) : m Report := do
  match Options.parse args with
  | .error stop => return stop.report
  | .ok options =>
    let content ← options.config.mapM FileSystem.read
    (options.run content clock).deliver

end Ranging.CommandLine

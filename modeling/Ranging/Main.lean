import Ranging.CommandLine.Program

/-!
# The command line program

Runs on the files of the disk, prints the report and returns its exit code.
-/

namespace Ranging.CommandLine

/-- The fault that an error stands for. Some errors come with their number negated. Errors without a
number come from text that is no UTF-8. -/
def faultOf : IO.Error → FileFault
  | .alreadyExists _ code reason | .interrupted _ code reason
  | .noFileOrDirectory _ code reason | .invalidArgument _ code reason
  | .permissionDenied _ code reason | .resourceExhausted _ code reason
  | .inappropriateType _ code reason | .noSuchThing _ code reason
  | .otherError code reason | .resourceBusy code reason | .resourceVanished code reason
  | .unsupportedOperation code reason | .hardwareFault code reason
  | .unsatisfiedConstraints code reason | .illegalOperation code reason
  | .protocolError code reason | .timeExpired code reason =>
    .ofCode code.toInt32.toInt.natAbs reason
  | .unexpectedEof | .userError _ => .notText

instance : FileSystem IO where
  read path := do
    try return .ok (← IO.FS.readFile path)
    catch error => return .error (faultOf error)
  write path text := do
    try
      let file ← IO.FS.Handle.mk path .write
      file.putStr text
      file.flush
      return .ok ()
    catch error => return .error (faultOf error)

end Ranging.CommandLine

open Ranging CommandLine

/-- Run the program. -/
def main (args : List String) : IO UInt32 := do
  let clock ← IO.monoNanosNow
  let report ← program args clock.toUInt64
  IO.print report.stdout
  IO.eprint report.stderr
  return report.exitCode

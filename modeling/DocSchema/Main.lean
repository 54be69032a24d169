import DocSchema.CommandLine.Run
import Std.Time.Format

/-!
The command line.

The arguments that name readable files are the folder of the run; everything else is decided by
`CommandLine.run`. Here its two streams are written and its exit code is handed on. A failure that
the run does not report itself ends it with code 1.
-/

namespace DocSchema.CommandLine

/-- The argument as a file, if it can be read as one. -/
def readArgument (argument : String) : IO Folder := do
  match ← (IO.FS.readBinFile argument).toBaseIO with
  | .ok octets => return [(argument, octets.toList)]
  | .error _ => return []

/-- The present, as it stands in front of a remark. -/
def timeStamp : IO String := do
  let now ← Std.Time.PlainDateTime.now
  return now.format "uuuu-MM-dd HH:mm:ss,SSS"

/-- Hands on the exit code, or says why there is none. -/
def exitCode : Except Failure Nat → IO UInt32
  | .ok code => return code.toUInt32
  | .error e => do
    IO.eprintln ((e.message?).getD "the evaluation failed")
    return 1

end DocSchema.CommandLine

open DocSchema

/-- Runs the command line on the arguments of the process. -/
def main (argv : List String) : IO UInt32 := do
  let folders ← argv.mapM CommandLine.readArgument
  let outcome := CommandLine.run folders.flatten argv
  IO.print outcome.output
  IO.eprint (outcome.errorText (← CommandLine.timeStamp))
  CommandLine.exitCode outcome.exit

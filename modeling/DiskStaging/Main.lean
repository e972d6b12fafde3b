import DiskStaging.CommandLine.Run

/-!
# The command

No client library is linked into the command, so every fetch reports that its
library is missing; what the arguments lead to up to there is the same.
-/

set_option autoImplicit false

open DiskStaging CommandLine

/-- Runs the command and prints its report. -/
def main (arguments : List String) : IO UInt32 := do
  match (take {} arguments) with
  | .error why =>
    IO.eprintln ("Error: " ++ why.message)
    return 2
  | .ok given =>
    if given.help then
      IO.println "Usage: disk-importer [OPTIONS] SOURCE"
      return 0
    match given.arguments with
    | .error why =>
      IO.eprintln ("Error: " ++ why.message)
      return 2
    | .ok arguments =>
      let outcome := run arguments { library := fun _ => .missing } .fresh
      IO.print outcome.report.output
      IO.eprint outcome.report.errors
      return outcome.report.status.toUInt32

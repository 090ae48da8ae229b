import EdgeExpression.CommandLine.Log

/-!
# The command line

The only part of the program that acts: it reads standard input if it is needed and
prints what a run leaves behind. How much of the log is written is told by the
arguments alone, and its lines say what has happened and not when.
-/
open EdgeExpression EdgeExpression.CommandLine

/-- How the command line is used, in one line that is made up here. It stands in for all
texts of the argument parser: its help, which is longer and differs from command to
command, and what it tells about arguments that it does not understand. -/
def usageText : String :=
  "Usage: esi-expr [-v...] parse|tokens|fmt|check [--source-map] [expressions]\n"

/-- Runs the command line. -/
def main (arguments : List String) : IO UInt32 := do
  match Request.ofArguments arguments with
  | .help =>
      (← IO.getStdout).putStr usageText
      return 0
  | .usage =>
      (← IO.getStderr).putStr usageText
      return 2
  | .run action expressions =>
      let stdin ← if expressions.isEmpty then (← IO.getStdin).readBinToEnd else pure .empty
      let wanted (event : Event) := event.verbosity ≤ Request.verbosity arguments
      let outcome := action.loggedOutcome wanted Quoted.isHidden expressions stdin
      (← IO.getStdout).putStr outcome.stdout
      (← IO.getStderr).putStr (String.join (outcome.stderr.map Notice.text))
      return outcome.code.toUInt32

import BlockScript.CommandLine.Answer

/-!
# The program

Reads the arguments and the file they name, and prints the answer. There is no
parser of the target languages at hand, so a check finds a program without
issues.
-/

open BlockScript BlockScript.CommandLine

/-- Why a file could not be read. -/
def fileError : IO.Error → FileError
  | .inappropriateType _ 20 _ => .notADirectory
  | .inappropriateType .. => .directory
  | .invalidArgument _ 36 _ => .nameTooLong
  | _ => .missing

/-- Reads the file that the options name. -/
def readInput (file : String) : IO (Except FileError String) := do
  if file = standardInput then
    return .ok (fileText (← (← IO.getStdin).readToEnd))
  else
    try
      return .ok (fileText (← IO.FS.readFile file))
    catch error =>
      return .error (fileError error)

/-- Prints what a run reports and what it gives. -/
def printOutcome (outcome : Outcome) : IO UInt32 := do
  for line in outcome.reports do
    (← IO.getStderr).putStrLn line
  (← IO.getStdout).putStr outcome.output
  return outcome.status.toUInt32

/-- `main`: a run of the command line with some arguments. -/
def main (arguments : List String) : IO UInt32 := do
  match readArguments arguments with
  | .error stop => printOutcome (stopped stop)
  | .ok options =>
    match run .usual options (← readInput options.file) default with
    | .ok outcome => printOutcome outcome
    | .error cause =>
      (← IO.getStderr).putStrLn cause.message
      return 1

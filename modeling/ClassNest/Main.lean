import ClassNest.CommandLine

/-!
# The program

Reads the files that the command line names, and prints what `ClassNest.CommandLine` makes of them.
-/
namespace ClassNest.CommandLine

/-- The content of a file, if it can be read. -/
def readFile? (path : String) : IO (Option String) := do
  try
    return some (← IO.FS.readFile path)
  catch _ => return none

/-- Runs the program for one set of options. -/
def runOptions (o : Options) : IO UInt32 := do
  let config ← match o.config with
    | some path => pure [(path, ← readFile? path)]
    | none => pure []
  let read := config ++ [(o.batch, ← readFile? o.batch)]
  match o.execute fun path => (read.lookup path).join with
  | .ok printed =>
    (← IO.getStdout).putStr printed.out
    for line in printed.summary do
      IO.eprintln line
    return 0
  | .error stop =>
    IO.eprintln ("Error: " ++ stop.message)
    return 1

end ClassNest.CommandLine

open ClassNest.CommandLine in
/-- Prints the forest of the batch that the arguments name. -/
def main (args : List String) : IO UInt32 := do
  match parse args with
  | .run o => runOptions o
  | .help =>
    (← IO.getStdout).putStr helpText
    return 0
  | .usage =>
    IO.eprintln "Usage: classgraph-dump [OPTIONS] <BATCH>"
    return 2

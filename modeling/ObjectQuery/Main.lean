import ObjectQuery.CommandLine.Run

/-!
# The command line program

Reads the files and variables that a command line names, and prints what it leads to.
-/

namespace ObjectQuery.CommandLine

open ObjectQuery.Config (Setting)

/-- The text of a file, if it can be read. -/
def readFile? (path : String) : IO (Option String) := do
  try return some (← IO.FS.readFile path) catch _ => return none

/-- The files with some paths. -/
def readFiles (paths : List String) : IO (List (String × String)) :=
  paths.filterMapM fun path => do return (← readFile? path).map fun text => (path, text)

/-- The variables with some names. -/
def readVariables (names : List String) : IO (List (String × Setting)) :=
  names.filterMapM fun name => do
    return (← IO.getEnv name).map fun value => (name, .text value)

/-- The files and variables that a command line may need. -/
def readSystem (words : List String) : IO System := do
  let paths := match Command.ofWords words with
    | .ok command => command.paths
    | .error _ => []
  let files ← readFiles paths
  let names := (files.lookup variableFile).elim [] mentioned
  let settings ← readVariables (variableNames ++ names)
  return ⟨fun path => files.lookup path, fun name => (settings.lookup name).getD .unset⟩

end ObjectQuery.CommandLine

open ObjectQuery.CommandLine in
/-- Runs a command line. -/
def main (words : List String) : IO UInt32 := do
  let outcome := run (← readSystem words) words
  IO.print outcome.output
  IO.eprint outcome.report
  return outcome.exitCode.toUInt32

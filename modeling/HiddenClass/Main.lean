import HiddenClass.CommandLine

/-!
The command line: `run FILE`, with `--stats` for a count of the shapes at the end.
-/

namespace HiddenClass.CommandLine

def describeReadError : IO.Error → String
  | .noFileOrDirectory .. => "No such file or directory (os error 2)"
  | .permissionDenied .. => "Permission denied (os error 13)"
  | .inappropriateType .. => "Is a directory (os error 21)"
  | other => toString other

def readContents (file : String) : IO Contents := do
  try
    return .bytes (← IO.FS.readBinFile file)
  catch error =>
    return .unreadable (describeReadError error)

def readVariables (names : List String) : IO (List (String × String)) :=
  names.filterMapM fun name => do
    return (← IO.getEnv name).map fun value => (name, value)

/-- The variables of a program start with the name that it is called by. -/
def programName : IO String := do
  return ((← IO.appPath).fileStem.getD "").toUpper

def runFile (stats : Bool) (file : String) : IO UInt32 := do
  let program ← programName
  let environment ← readVariables (Config.variableNames program)
  let config := Config.ofEnvironment program fun name => environment.lookup name
  let outcome := CommandLine.run config stats file (← readContents file)
  IO.print outcome.stdout
  IO.eprint outcome.stderr
  return outcome.exit

def start (arguments : List String) : IO UInt32 := do
  let stats := arguments.any fun argument => argument = "--stats" || argument = "-s"
  match arguments.filter fun argument => argument ≠ "--stats" && argument ≠ "-s" with
  | ["run", file] => runFile stats file
  | _ =>
    IO.eprintln "usage: run FILE [--stats]"
    return 2

end HiddenClass.CommandLine

def main (arguments : List String) : IO UInt32 := HiddenClass.CommandLine.start arguments

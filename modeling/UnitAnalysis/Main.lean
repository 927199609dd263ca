import UnitAnalysis.Cli.Run

/-!
# The program

Reads the command line and the files that it names, runs the command and prints what it printed.
-/

set_option autoImplicit false

namespace UnitAnalysis.Main

/-- What is found under a file name. A name that leads to nothing or to a directory is no file. -/
def fileState (path : String) : IO FileState := do
  try
    return .content (← IO.FS.readFile path)
  catch
    | .noFileOrDirectory .. => return .absent
    | .inappropriateType .. => return .absent
    | _ => return .unreadable

/-- The files that a command may read, by name. -/
def filesOf (directory : String) : Command → List String
  | .check files _ _ (some config) => config :: files
  | .check files _ _ none => (directory ++ "/" ++ Run.configFile) :: files
  | .explain _ => []

/-- Reads files. -/
def readFiles : List String → IO (List (String × FileState))
  | [] => return []
  | path :: paths => return (path, ← fileState path) :: (← readFiles paths)

/-- The short description of the program. -/
def usage : String :=
  "Usage: lumen [OPTIONS] <COMMAND>\n\nCommands:\n"
    ++ "  check    Analyze JSON compilation units and report diagnostics\n"
    ++ "  explain  Explain a diagnostic code in detail\n"

/-- Prints why a command line is not run, and gives the exit code. -/
def refuse (e : UsageError) : IO UInt32 := do
  match e with
  | .displayHelp =>
    IO.print usage
    return 0
  | .displayVersion =>
    IO.println "lumen 0.1.0"
    return 0
  | .displayHelpOnMissing =>
    IO.eprint usage
    return 2
  | e =>
    IO.eprintln ("error: " ++ e.name)
    return 2

/-- Runs a command and prints what it printed. -/
def perform (command : Command) : IO UInt32 := do
  let directory := (← IO.currentDir).toString
  let files ← readFiles (filesOf directory command)
  let world : World := { directory, file := fun path => (files.lookup path).getD .absent }
  let o := Run.command world command
  IO.print o.stdout
  IO.eprint o.stderr
  match o.result with
  | .ok code => return code.toUInt32
  | .error e =>
    IO.eprintln ("Error: " ++ e.message)
    return 1

end UnitAnalysis.Main

/-- The program. -/
def main (args : List String) : IO UInt32 := do
  match UnitAnalysis.Invocation.ofArguments args with
  | .error e => UnitAnalysis.Main.refuse e
  | .ok invocation => UnitAnalysis.Main.perform invocation.command

import UnitAnalysis.Analysis
import UnitAnalysis.Cli.Arguments
import UnitAnalysis.Config.Toml
import UnitAnalysis.Document.Diagnostic
import UnitAnalysis.Json.Parser

/-!
# Running a command

A command reads files, prints to two streams and ends with an exit code, or stops at the first thing
that it cannot do. What is read is given beforehand and what is printed is the result, so running is
a function.
-/

set_option autoImplicit false

namespace UnitAnalysis

/-- What is found under a file name. -/
inductive FileState where
  /-- Nothing, or something that is no file. -/
  | absent
  /-- A file that cannot be read as text. -/
  | unreadable
  | content (text : String)
  deriving DecidableEq, Repr

/-- What a command can see of the world. -/
structure World where
  /-- The working directory. -/
  directory : String
  /-- What is found under each file name. -/
  file : String → FileState

/-- Why a command stops. -/
inductive RunError where
  /-- A file cannot be read. -/
  | unreadableFile (path : String)
  /-- A file is no unit. -/
  | invalidUnit (path : String)
  /-- A file is no configuration. -/
  | invalidConfig (path : String)
  /-- A configuration has a function whose type cannot be read. -/
  | intrinsic (name ty : String)
  /-- There is no such diagnostic code. -/
  | unknownCode (code : String)
  deriving DecidableEq, Repr

namespace RunError

/-- The kind of an error. -/
def kind : RunError → String
  | unreadableFile _ => "Io"
  | invalidUnit _ => "Ast"
  | invalidConfig _ => "Config"
  | intrinsic _ _ => "Intrinsic"
  | unknownCode _ => "UnknownCode"

/-- The wording of an error. -/
def message : RunError → String
  | unreadableFile path => "failed to read `" ++ path ++ "`"
  | invalidUnit path => "`" ++ path ++ "` is not a valid AST document"
  | invalidConfig path => "invalid configuration in `" ++ path ++ "`"
  | intrinsic name ty =>
    "intrinsic `" ++ name ++ "` has an unsupported return type `" ++ ty ++ "`"
  | unknownCode code => "unknown diagnostic code `" ++ code ++ "`"

end RunError

/-- What a command printed, and how it ended. -/
structure Outcome where
  /-- What went to the standard output. -/
  stdout : String := ""
  /-- What went to the standard error stream. -/
  stderr : String := ""
  /-- The exit code, or why the command stopped. -/
  result : Except RunError UInt8 := .ok 0

namespace Run

/-- The name of the configuration file that is looked for. -/
def configFile : String := "lumen.toml"

/-- Reads the text of a file. -/
def readText (w : World) (path : String) : Except RunError String :=
  match w.file path with
  | .content text => .ok text
  | _ => .error (.unreadableFile path)

/-- Reads a configuration file. -/
def loadConfig (w : World) (path : String) : Except RunError Config := do
  match Config.ofToml? (← readText w path) with
  | some c => return c
  | none => .error (.invalidConfig path)

/-- The configuration of a run: the file that was asked for, else the one in the working directory
if there is one, else the default. -/
def resolveConfig (w : World) : (asked : Option String) → Except RunError Config
  | some path => loadConfig w path
  | none =>
    let path := w.directory ++ "/" ++ configFile
    if w.file path = .absent then .ok {} else loadConfig w path

/-- The last part of a file name without its extension. -/
def fileStem (path : String) : String :=
  let name := (path.splitOn "/").getLast?.getD ""
  match (name.splitOn ".").dropLast with
  | [] => name
  | [""] => name
  | parts => String.intercalate "." parts

/-- Reads a unit. One without a name is called after its file. -/
def loadUnit (w : World) (path : String) : Except RunError SourceUnit := do
  let text ← readText w path
  match (Json.parse? text).bind fun j => (Document.sourceUnit j).run ⟨1⟩ with
  | some (u, _) => return if u.name.isEmpty then { u with name := fileStem path } else u
  | none => .error (.invalidUnit path)

/-- The numbers of errors and warnings. -/
structure Counts where
  /-- The number of errors. -/
  errors : Nat := 0
  /-- The number of warnings. -/
  warnings : Nat := 0
  deriving DecidableEq, Repr

/-- The text of diagnostics: one JSON object per line, or blocks under the name of the file. -/
def render (path : String) (isJson : Bool) (ds : List Diagnostic) : String :=
  if isJson then String.intercalate "\n" (ds.map Diagnostic.jsonText)
  else "==> " ++ path ++ "\n" ++ Diagnostics.text ds

/-- The last line of a check, and whether the check failed. -/
def summary (files : Nat) (c : Counts) (isStrict : Bool) : String × Bool :=
  let start := "Checked " ++ toString files ++ " file(s), "
  let warnings := toString c.warnings ++ " warning(s)"
  if c.errors > 0 || (isStrict && c.warnings > 0) then
    let errorPart := if c.errors > 0 then [toString c.errors ++ " error(s)"] else []
    let warningPart :=
      if c.warnings = 0 then []
      else if isStrict then [warnings ++ " [treated as errors with --strict]"]
      else [warnings]
    (start ++ "found " ++ String.intercalate ", " (errorPart ++ warningPart), true)
  else if c.warnings > 0 then (start ++ "no errors (" ++ warnings ++ ")", false)
  else (start ++ "no errors found", false)

/-- Adds a line to what was printed. -/
def print (o : Outcome) (isError : Bool) (line : String) : Outcome :=
  if isError then { o with stderr := o.stderr ++ line ++ "\n" }
  else { o with stdout := o.stdout ++ line ++ "\n" }

/-- Prints the diagnostics of a file, if there are any. JSON goes to the standard output. -/
def printDiagnostics (o : Outcome) (path : String) (isJson : Bool) (ds : List Diagnostic) :
    Outcome :=
  if ds.isEmpty then o else print o (!isJson) (render path isJson ds)

/-- Checks files one after the other, up to the first one that cannot be read. -/
def checkFiles (w : World) (config : Config) (isJson : Bool) (o : Outcome) (c : Counts) :
    List String → Outcome × Counts
  | [] => (o, c)
  | path :: paths =>
    match loadUnit w path with
    | .error e => ({ o with result := .error e }, c)
    | .ok u =>
      let ds := (analyze config u).diagnostics
      let counts : Counts :=
        { errors := c.errors + Diagnostics.errorCount ds
          warnings := c.warnings + Diagnostics.warningCount ds }
      checkFiles w config isJson (printDiagnostics o path isJson ds) counts paths

/-- The configuration of a check, in which all types can be read. -/
def checkConfig (w : World) (asked : Option String) : Except RunError Config := do
  let config ← resolveConfig w asked
  match config.intrinsicTypes with
  | .ok _ => return config
  | .error (name, ty) => .error (.intrinsic name ty)

/-- Prints the last line of a check and sets its exit code. -/
def finish (files : Nat) (isStrict : Bool) (o : Outcome) (c : Counts) : Outcome :=
  match o.result with
  | .error _ => o
  | .ok _ =>
    let (line, isFailed) := summary files c isStrict
    if isFailed then { print o true ("\n" ++ line) with result := .ok 1 }
    else print o false line

/-- Runs the command `check`. -/
def check (w : World) (files : List String) (isJson isStrict : Bool) (config : Option String) :
    Outcome :=
  match checkConfig w config with
  | .error e => { result := .error e }
  | .ok config =>
    let (o, c) := checkFiles w config isJson {} {} files
    finish files.length (isStrict || config.analysis.strict) o c

/-- The text of the command `explain`, in which the code may be in lower case letters and have
blanks around it. -/
def explanation (code : String) : Except RunError String :=
  let normal := (String.ofList (Text.trim code.toList)).map Char.toUpper
  match UnitAnalysis.explain normal with
  | some text => .ok (normal ++ ": " ++ text)
  | none => .error (.unknownCode code)

/-- Runs the command `explain`. -/
def explain (code : String) : Outcome :=
  match explanation code with
  | .ok text => print {} false text
  | .error e => { result := .error e }

/-- Runs a command. -/
def command (w : World) : Command → Outcome
  | .check files isJson isStrict config => check w files isJson isStrict config
  | .explain code => explain code

end Run

end UnitAnalysis

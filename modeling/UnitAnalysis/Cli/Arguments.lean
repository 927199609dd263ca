import UnitAnalysis.Cli.Log

/-!
# The command line

The command line is `lumen [OPTIONS] check [OPTIONS] FILES...` or `lumen [OPTIONS] explain [OPTIONS]
CODE`. Options for logging may stand before and after the name of the command. An option takes its
value from the next argument or after an equals sign, and `--` ends the options.

The arguments are read from left to right. A value is put down when it is read and judged only when
the next argument is understood, so a later argument that is not understood at all is reported
first.
-/

set_option autoImplicit false

namespace UnitAnalysis

/-- Why a command line is not run. -/
inductive UsageError where
  | missingRequiredArgument
  | unknownArgument
  | invalidSubcommand
  | invalidValue
  | argumentConflict
  | tooManyValues
  | missingSubcommand
  | displayHelp
  | displayVersion
  | displayHelpOnMissing
  deriving DecidableEq, Repr

/-- The name of an error. -/
def UsageError.name : UsageError → String
  | missingRequiredArgument => "MissingRequiredArgument"
  | unknownArgument => "UnknownArgument"
  | invalidSubcommand => "InvalidSubcommand"
  | invalidValue => "InvalidValue"
  | argumentConflict => "ArgumentConflict"
  | tooManyValues => "TooManyValues"
  | missingSubcommand => "MissingSubcommand"
  | displayHelp => "DisplayHelp"
  | displayVersion => "DisplayVersion"
  | displayHelpOnMissing => "DisplayHelpOnMissingArgumentOrSubcommand"

/-- What to do. -/
inductive Command where
  /-- Analyze files. -/
  | check (files : List String) (isJson isStrict : Bool) (config : Option String)
  /-- Explain a diagnostic code. -/
  | explain (code : String)
  deriving DecidableEq, Repr

/-- A command line that was understood. -/
structure Invocation where
  /-- What to do. -/
  command : Command
  /-- How much to log. -/
  logLevel : Option LogLevel := none
  /-- How to log. -/
  logFormat : Option LogFormat := none
  deriving DecidableEq, Repr

/-- The parts of a command line that have arguments of their own. -/
inductive Level where
  | top | check | explain
  deriving DecidableEq, Repr

/-- The options without a value. -/
inductive Flag where
  | json | strict
  deriving DecidableEq, Repr

/-- What a value is for. -/
inductive Slot where
  | logLevel | logFormat | config | positional
  deriving DecidableEq, Repr

/-- What an option is. -/
inductive OptionKind where
  | help
  | version
  | flag (f : Flag)
  | valued (s : Slot)
  deriving DecidableEq, Repr

/-- The option of a long name. -/
def Level.long? : Level → String → Option OptionKind
  | _, "help" => some .help
  | _, "log-level" => some (.valued .logLevel)
  | _, "log-format" => some (.valued .logFormat)
  | top, "version" => some .version
  | check, "json" => some (.flag .json)
  | check, "strict" => some (.flag .strict)
  | check, "config" => some (.valued .config)
  | _, _ => none

/-- The option of a letter. -/
def Level.short? : Level → Char → Option OptionKind
  | _, 'h' => some .help
  | top, 'V' => some .version
  | _, _ => none

/-- How many arguments that are no options one part of a command line takes. -/
def Level.takesPositional : Level → (given : Nat) → Bool
  | top, _ => false
  | check, _ => true
  | explain, given => given = 0

/-- What one part of a command line says so far. -/
structure Parsed where
  /-- The slot whose values are not judged yet, with these values. -/
  pending : Option (Slot × List String) := none
  /-- The flags. -/
  flags : List Flag := []
  /-- How much to log. -/
  logLevel : Option LogLevel := none
  /-- How to log. -/
  logFormat : Option LogFormat := none
  /-- The configuration file. -/
  config : Option String := none
  /-- The arguments that are no options, in order. -/
  positionals : List String := []

namespace Parsed

/-- Whether anything was given. -/
def isEmpty (p : Parsed) : Bool :=
  p.flags.isEmpty && p.logLevel.isNone && p.logFormat.isNone && p.config.isNone
    && p.positionals.isEmpty

/-- The number of arguments that are no options, with those that are not judged yet. -/
def positionalCount (p : Parsed) : Nat :=
  p.positionals.length + match p.pending with
    | some (.positional, values) => values.length
    | _ => 0

/-- Reads the value of an option that may be given once. That it was given before is reported
whatever the value is. -/
def once {α : Type} (before : Option α) (value : Option α) : Except UsageError (Option α) :=
  if before.isSome then .error .argumentConflict
  else if value.isNone then .error .invalidValue
  else .ok value

/-- A file name, which may not be empty. -/
def path? (s : String) : Option String :=
  if s.isEmpty then none else some s

/-- Puts values into their slot. -/
def store (level : Level) (p : Parsed) (slot : Slot) (values : List String) :
    Except UsageError Parsed :=
  match slot, values with
  | .positional, values =>
    if level = .check && values.any String.isEmpty then .error .invalidValue
    else .ok { p with positionals := p.positionals ++ values }
  | _, [] => .error .invalidValue
  | .logLevel, v :: _ => do
    return { p with logLevel := ← once p.logLevel (LogLevel.names.lookup v) }
  | .logFormat, v :: _ => do
    return { p with logFormat := ← once p.logFormat (LogFormat.names.lookup v) }
  | .config, v :: _ => do
    return { p with config := ← once p.config (path? v) }

/-- Judges the values that were put down. -/
def resolve (level : Level) (p : Parsed) : Except UsageError Parsed :=
  match p.pending with
  | none => .ok p
  | some (slot, values) => store level { p with pending := none } slot values

/-- Acts on an option without a value. -/
def react (level : Level) (p : Parsed) : OptionKind → Except UsageError Parsed
  | .help => do
    let _ ← p.resolve level
    .error .displayHelp
  | .version => do
    let _ ← p.resolve level
    .error .displayVersion
  | .flag f => do
    let p ← p.resolve level
    if f ∈ p.flags then .error .argumentConflict else return { p with flags := p.flags ++ [f] }
  | .valued slot => do
    let p ← p.resolve level
    return { p with pending := some (slot, []) }

/-- Acts on a long option, perhaps with a value after an equals sign. -/
def long (level : Level) (p : Parsed) (name : String) (value : Option String) :
    Except UsageError Parsed :=
  match level.long? name, value with
  | none, _ => .error .unknownArgument
  | some kind, none => p.react level kind
  | some (.valued slot), some v => do
    let p ← p.resolve level
    p.store level slot [v]
  | some _, some _ => .error .tooManyValues

/-- Acts on letters after a single dash. -/
def short (level : Level) (p : Parsed) : List Char → Except UsageError Parsed
  | [] => .ok p
  | c :: cs =>
    match level.short? c with
    | none => .error .unknownArgument
    | some kind => do
      let p ← p.react level kind
      short level p cs

/-- Whether the last option still waits for its value. -/
def isWaiting (p : Parsed) : Bool :=
  match p.pending with
  | some (.positional, _) => false
  | some (_, []) => true
  | _ => false

/-- Puts down the value of the last option. -/
def supply (p : Parsed) (v : String) : Parsed :=
  match p.pending with
  | some (slot, values) => { p with pending := some (slot, values ++ [v]) }
  | none => p

/-- Puts down an argument that is no option. -/
def push (level : Level) (p : Parsed) (v : String) : Except UsageError Parsed :=
  match p.pending with
  | some (.positional, values) =>
    if level = .check then .ok { p with pending := some (.positional, values ++ [v]) }
    else do
      let p ← p.resolve level
      return { p with pending := some (.positional, [v]) }
  | _ => do
    let p ← p.resolve level
    return { p with pending := some (.positional, [v]) }

end Parsed

/-- An argument as it looks on its own. -/
inductive Shape where
  /-- `--` -/
  | escape
  /-- `--name` or `--name=value` -/
  | long (name : String) (value : Option String)
  /-- `-abc` -/
  | short (letters : List Char)
  /-- Anything else, also a single dash. -/
  | plain

/-- How an argument looks. -/
def Shape.of (arg : String) : Shape :=
  match arg.toList with
  | ['-', '-'] => .escape
  | '-' :: '-' :: cs =>
    let name := String.ofList (cs.takeWhile fun c => c ≠ '=')
    match cs.dropWhile fun c => c ≠ '=' with
    | _ :: value => .long name (some (String.ofList value))
    | [] => .long name none
  | '-' :: c :: cs => .short (c :: cs)
  | _ => .plain

/-- Takes an argument that is no option. -/
def Parsed.place (level : Level) (p : Parsed) (arg : String) : Except UsageError Parsed :=
  if level.takesPositional p.positionalCount then p.push level arg
  else if level = .top then .error .invalidSubcommand
  else .error .unknownArgument

/-- Reads the arguments of a command. -/
def Parsed.arguments (level : Level) (p : Parsed) :
    (isTrailing : Bool) → List String → Except UsageError Parsed
  | _, [] => p.resolve level
  | true, arg :: args => do
    let p ← p.place level arg
    Parsed.arguments level p true args
  | false, arg :: args =>
    match Shape.of arg with
    | .escape => Parsed.arguments level p true args
    | .long name value => do
      let p ← p.long level name value
      Parsed.arguments level p false args
    | .short letters => do
      let p ← p.short level letters
      Parsed.arguments level p false args
    | .plain =>
      if p.isWaiting then Parsed.arguments level (p.supply arg) false args
      else do
        let p ← p.place level arg
        Parsed.arguments level p false args

/-- The command that its own arguments ask for. -/
def Parsed.command (level : Level) (p : Parsed) : Except UsageError Command :=
  match level, p.positionals with
  | .check, [] => .error .missingRequiredArgument
  | .check, files => .ok (.check files (.json ∈ p.flags) (.strict ∈ p.flags) p.config)
  | _, [] => .error .missingRequiredArgument
  | _, code :: _ => .ok (.explain code)

/-- Reads the command `help`, whose arguments name a command. -/
def helpCommand : List String → UsageError
  | [] => .displayHelp
  | [name] => if name ∈ ["check", "explain", "help"] then .displayHelp else .invalidSubcommand
  | _ => .invalidSubcommand

/-- The command of a name. -/
def Level.ofName? : String → Option Level
  | "check" => some .check
  | "explain" => some .explain
  | _ => none

/-- Puts the options before the name of a command together with the command. The options after the
name win. -/
def Invocation.assemble (level : Level) (before : Parsed) (args : List String) :
    Except UsageError Invocation := do
  let after ← Parsed.arguments level {} false args
  let command ← after.command level
  let before ← before.resolve .top
  return {
    command
    logLevel := after.logLevel.or before.logLevel
    logFormat := after.logFormat.or before.logFormat }

/-- What is wrong with a command line that names no command. -/
def Parsed.withoutCommand (p : Parsed) : UsageError :=
  match p.resolve .top with
  | .error e => e
  | .ok p => if p.isEmpty then .displayHelpOnMissing else .missingSubcommand

/-- What is wrong with an argument after `--` where a command is missing. -/
def strayArgument (arg : String) : UsageError :=
  if arg ∈ ["check", "explain", "help"] then .unknownArgument else .invalidSubcommand

/-- Reads the arguments up to the name of a command. -/
def Parsed.topArguments (p : Parsed) : List String → Except UsageError Invocation
  | [] => .error p.withoutCommand
  | arg :: args =>
    match Shape.of arg with
    | .escape =>
      match args with
      | [] => .error p.withoutCommand
      | stray :: _ => .error (strayArgument stray)
    | .long name value => do
      let p ← p.long .top name value
      Parsed.topArguments p args
    | .short letters => do
      let p ← p.short .top letters
      Parsed.topArguments p args
    | .plain =>
      if p.isWaiting then Parsed.topArguments (p.supply arg) args
      else if arg = "help" then .error (helpCommand args)
      else
        match Level.ofName? arg with
        | some level => Invocation.assemble level p args
        | none => .error .invalidSubcommand

/-- Reads the arguments of the program. -/
def Invocation.ofArguments (args : List String) : Except UsageError Invocation :=
  Parsed.topArguments {} args

end UnitAnalysis

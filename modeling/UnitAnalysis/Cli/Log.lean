/-!
# Logging options

How much is logged and in which form. A choice on the command line wins over one in the environment,
and an environment that names no form says nothing.
-/

set_option autoImplicit false

namespace UnitAnalysis

/-- The forms of log lines. -/
inductive LogFormat where
  | text | json
  deriving DecidableEq, Repr

/-- The amounts of log lines, from the least to the greatest. -/
inductive LogLevel where
  | error | warn | info | debug | trace
  deriving DecidableEq, Repr

/-- The forms of log lines, by name. -/
def LogFormat.names : List (String × LogFormat) :=
  [("text", .text), ("json", .json)]

/-- The amounts of log lines, by name. -/
def LogLevel.names : List (String × LogLevel) :=
  [("error", .error), ("warn", .warn), ("info", .info), ("debug", .debug), ("trace", .trace)]

/-- The way a form is written. -/
def LogFormat.name : LogFormat → String
  | text => "text"
  | json => "json"

/-- The way an amount is written. -/
def LogLevel.name : LogLevel → String
  | error => "error"
  | warn => "warn"
  | info => "info"
  | debug => "debug"
  | trace => "trace"

/-- What the log is made from. -/
structure LogOptions where
  /-- The form. -/
  format : LogFormat := .text
  /-- The amount, if it was chosen. -/
  level : Option LogLevel := none
  deriving DecidableEq, Repr

namespace LogOptions

/-- The form that a text names, in upper or lower case letters. -/
def formatOfText? (s : String) : Option LogFormat :=
  LogFormat.names.lookup (s.map Char.toLower)

/-- The options from the environment and the command line. -/
def resolve (environment : Option String) (format : Option LogFormat) (level : Option LogLevel) :
    LogOptions :=
  { format := (format.or (environment.bind formatOfText?)).getD .text, level }

end LogOptions

end UnitAnalysis

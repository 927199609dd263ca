import UnitAnalysis.Diagnostic.Code
import UnitAnalysis.Span

/-!
# Diagnostics

A diagnostic is a message about a place in the source, with a code, a severity, and notes and
suggestions that help to mend it. Diagnostics are collected in the order in which they arise; none
of them ends the analysis. This module also has the text that is shown to people.
-/

set_option autoImplicit false

namespace UnitAnalysis

/-- How bad a problem is. -/
inductive Severity where
  | error | warning
  deriving DecidableEq, Repr

/-- The word for a severity. -/
def Severity.text : Severity → String
  | error => "error"
  | warning => "warning"

/-- A remark on a diagnostic, perhaps about another place. -/
structure Note where
  /-- The remark. -/
  message : String
  /-- The place that it is about. -/
  span : Option Span := none
  deriving DecidableEq, Repr

/-- A way to mend a problem. -/
structure Suggestion where
  /-- What to do. -/
  title : String
  /-- The text to put in, when that is all there is to do. -/
  replacement : Option String := none
  deriving DecidableEq, Repr

/-- A problem that was found. -/
structure Diagnostic where
  /-- The code of the kind of problem. -/
  code : String
  /-- How bad it is. -/
  severity : Severity
  /-- What is wrong. -/
  message : String := ""
  /-- Where it is wrong. -/
  span : Span := {}
  /-- Remarks. -/
  notes : List Note := []
  /-- Ways to mend it. -/
  suggestions : List Suggestion := []
  deriving DecidableEq, Repr

namespace Diagnostic

/-- Whether it is an error. -/
def isError (d : Diagnostic) : Bool :=
  d.severity = .error

/-- Whether it is a warning. -/
def isWarning (d : Diagnostic) : Bool :=
  d.severity = .warning

/-- The severity, code and message on one line. -/
def headline (d : Diagnostic) : String :=
  d.severity.text ++ "[" ++ d.code ++ "]: " ++ d.message

/-- A note on a line of its own, with its place when that is known. -/
def noteLine (n : Note) : String :=
  match n.span with
  | some span =>
    if span.isKnown then "   = note: " ++ n.message ++ " (at " ++ span.text ++ ")\n"
    else "   = note: " ++ n.message ++ "\n"
  | none => "   = note: " ++ n.message ++ "\n"

/-- The full text: headline, place when it is known, notes, and titles of the suggestions. -/
def text (d : Diagnostic) : String :=
  let place := if d.span.isKnown then "  --> " ++ d.span.text ++ "\n" else ""
  d.headline ++ "\n" ++ place ++ String.join (d.notes.map noteLine)
    ++ String.join (d.suggestions.map fun s => "   = help: " ++ s.title ++ "\n")

end Diagnostic

namespace Diagnostics

/-- The number of errors. -/
def errorCount (ds : List Diagnostic) : Nat :=
  ds.countP Diagnostic.isError

/-- The number of warnings. -/
def warningCount (ds : List Diagnostic) : Nat :=
  ds.countP Diagnostic.isWarning

/-- The diagnostics with a code. -/
def withCode (code : String) (ds : List Diagnostic) : List Diagnostic :=
  ds.filter fun d => d.code = code

/-- The texts of all diagnostics, with an empty line between them. -/
def text (ds : List Diagnostic) : String :=
  String.intercalate "\n" (ds.map Diagnostic.text)

end Diagnostics

end UnitAnalysis

import UnitAnalysis.Diagnostic.Basic
import UnitAnalysis.Document.Reader
import UnitAnalysis.Document.Writer
import UnitAnalysis.Json.Printer

/-!
# Diagnostics as documents

The JSON form of a diagnostic has its fields in a fixed order and leaves out notes and suggestions
when there are none. A note without a place has no field for it, and one with an all-default place
has.
-/

set_option autoImplicit false

namespace UnitAnalysis

/-- A field for something that may be absent, left out when it is. -/
def optionField {α : Type} (name : String) (write : α → Json) : Option α → List (String × Json)
  | some a => [(name, write a)]
  | none => []

/-- A field for a list, left out when the list is empty. -/
def listField {α : Type} (name : String) (write : α → Json) : List α → List (String × Json)
  | [] => []
  | items => [(name, .arr (items.map write))]

/-- The JSON form of a note. -/
def Note.toJson (n : Note) : Json :=
  .obj (("message", .str n.message) :: optionField "span" Span.toJson n.span)

/-- The JSON form of a suggestion. -/
def Suggestion.toJson (s : Suggestion) : Json :=
  .obj (("title", .str s.title) :: optionField "replacement" .str s.replacement)

/-- The JSON form of a diagnostic. -/
def Diagnostic.toJson (d : Diagnostic) : Json :=
  .obj ([("code", .str d.code), ("severity", .str d.severity.text), ("message", .str d.message),
    ("span", d.span.toJson)] ++ listField "notes" Note.toJson d.notes
    ++ listField "suggestions" Suggestion.toJson d.suggestions)

/-- The JSON text of a diagnostic. -/
def Diagnostic.jsonText (d : Diagnostic) : String :=
  d.toJson.render

/-- The JSON text of a list of diagnostics. -/
def Diagnostics.jsonText (ds : List Diagnostic) : String :=
  (Json.arr (ds.map Diagnostic.toJson)).render

namespace Document

/-- The severities, by name. -/
def severities : List (String × Severity) :=
  [("error", .error), ("warning", .warning)]

/-- Reads a note. -/
def note : Json → Read Note :=
  object fun fields => do
    return {
      message := ← required "message" text fields
      span := ← optional "span" span fields }

/-- Reads a suggestion. -/
def suggestion : Json → Read Suggestion :=
  object fun fields => do
    return {
      title := ← required "title" text fields
      replacement := ← optional "replacement" text fields }

/-- Reads a diagnostic. -/
def diagnostic : Json → Read Diagnostic :=
  object fun fields => do
    return {
      code := ← required "code" text fields
      severity := ← required "severity" (choice false severities) fields
      message := ← required "message" text fields
      span := ← required "span" span fields
      notes := ← defaulted "notes" (pure []) (list note) fields
      suggestions := ← defaulted "suggestions" (pure []) (list suggestion) fields }

end Document

end UnitAnalysis

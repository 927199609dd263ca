import UnitAnalysis.Document.Config
import UnitAnalysis.Toml.Parser

/-!
# Configuration files

A configuration file is a TOML document with a table `analysis` and a table `intrinsics`, both of
which may be missing. A key that a configuration does not have is refused. The choices about the
analysis may also be listed in an array, in the order of their declaration.
-/

set_option autoImplicit false

namespace UnitAnalysis

namespace Toml

/-- The entries of a table of whatever form. -/
def entries? : Toml → Option Entries
  | .table _ entries => some entries
  | _ => none

/-- Whether a value has nothing in it. -/
def isEmptyContainer : Toml → Bool
  | .array [] => true
  | .table _ [] => true
  | _ => false

/-- A truth value. -/
def truth? : Toml → Option Bool
  | .truth b => some b
  | _ => none

/-- A text. -/
def text? : Toml → Option String
  | .text s => some s
  | _ => none

/-- A level: its name, or a table with the name as its only key and nothing under it. -/
def level? : Toml → Option MismatchLevel
  | .text s => Document.mismatchLevels.lookup s
  | .table _ [(s, v)] => if v.isEmptyContainer then Document.mismatchLevels.lookup s else none
  | _ => none

/-- Reads an entry, or takes a default when it is missing. -/
def defaulted {α : Type} (key : String) (default : α) (read : Toml → Option α)
    (entries : Entries) : Option α :=
  match Table.find key entries with
  | some v => read v
  | none => some default

/-- Reads the choices about the analysis. -/
def options? : Toml → Option Options
  | .table _ entries =>
    if entries.all fun e => e.1 ∈ ["strict", "strict_comparisons", "async_return_mismatch"] then do
      return {
        strict := ← defaulted "strict" false truth? entries
        strictComparisons := ← defaulted "strict_comparisons" false truth? entries
        asyncReturnMismatch := ← defaulted "async_return_mismatch" .warning level? entries }
    else none
  | .array [] => some {}
  | .array [s] => do return { strict := ← s.truth? }
  | .array [s, c] => do return { strict := ← s.truth?, strictComparisons := ← c.truth? }
  | .array (s :: c :: a :: _) => do
    return {
      strict := ← s.truth?, strictComparisons := ← c.truth?, asyncReturnMismatch := ← a.level? }
  | _ => none

/-- Reads further functions. -/
def intrinsics? (v : Toml) : Option (List (String × String)) := do
  let pairs ← (← v.entries?).mapM fun (name, v) => v.text?.map fun s => (name, s)
  return (Table.ofList pairs).sorted

end Toml

/-- Reads a configuration file. -/
def Config.ofToml? (text : String) : Option Config := do
  let entries ← Toml.parse? text
  if entries.all fun e => e.1 ∈ ["analysis", "intrinsics"] then
    return {
      analysis := ← Toml.defaulted "analysis" {} Toml.options? entries
      intrinsics := ← Toml.defaulted "intrinsics" [] Toml.intrinsics? entries }
  else none

end UnitAnalysis

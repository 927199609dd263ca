import UnitAnalysis.Config.Basic
import UnitAnalysis.Document.Reader

/-!
# The JSON form of a configuration

Every field of a configuration may be left out, and a field that a configuration does not have is
refused.
-/

set_option autoImplicit false

namespace UnitAnalysis

/-- The way a level is written. -/
def MismatchLevel.text : MismatchLevel → String
  | warning => "warning"
  | error => "error"

/-- The JSON form of the choices about the analysis. -/
def Options.toJson (o : Options) : Json :=
  .obj [("strict", .bool o.strict), ("strict_comparisons", .bool o.strictComparisons),
    ("async_return_mismatch", .str o.asyncReturnMismatch.text)]

/-- The JSON form of a configuration. -/
def Config.toJson (c : Config) : Json :=
  .obj [("analysis", c.analysis.toJson),
    ("intrinsics", .obj (c.intrinsics.map fun (name, ty) => (name, .str ty)))]

namespace Document

/-- The levels, by name. -/
def mismatchLevels : List (String × MismatchLevel) :=
  [("warning", .warning), ("error", .error)]

/-- Reads an object that has no other fields than those that are known. -/
def closed {α : Type} (known : List String) (read : List (String × Json) → Read α) :
    Json → Read α :=
  object fun fields =>
    if fields.all fun f => f.1 ∈ known then read fields else Read.ofOption none

/-- Reads the choices about the analysis. -/
def options : Json → Read Options :=
  closed ["strict", "strict_comparisons", "async_return_mismatch"] fun fields => do
    return {
      strict := ← defaulted "strict" (pure false) truth fields
      strictComparisons := ← defaulted "strict_comparisons" (pure false) truth fields
      asyncReturnMismatch :=
        ← defaulted "async_return_mismatch" (pure .warning) (choice false mismatchLevels) fields }

/-- Reads further functions. The last one of a name counts. -/
def intrinsics : Json → Read (List (String × String)) :=
  object fun fields => do
    let texts ← all text (fields.map Prod.snd)
    return (Table.ofList ((fields.map Prod.fst).zip texts)).sorted

/-- Reads a configuration. -/
def config : Json → Read Config :=
  closed ["analysis", "intrinsics"] fun fields => do
    return {
      analysis := ← defaulted "analysis" (pure {}) options fields
      intrinsics := ← defaulted "intrinsics" (pure []) intrinsics fields }

end Document

end UnitAnalysis

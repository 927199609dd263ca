import UnitAnalysis.Diagnostic.Basic
import UnitAnalysis.Table

/-!
# Configuration

The choices that a user makes about the analysis: how strict it is, and which functions exist
besides those that every unit can call.
-/

set_option autoImplicit false

namespace UnitAnalysis

/-- How bad it is that an asynchronous function returns another type than it declares. -/
inductive MismatchLevel where
  | warning | error
  deriving DecidableEq, Repr

/-- The severity that a level stands for. -/
def MismatchLevel.severity : MismatchLevel → Severity
  | warning => .warning
  | error => .error

/-- The choices about the analysis itself. -/
structure Options where
  /-- Whether warnings make a check fail. -/
  strict : Bool := false
  /-- Whether values of types that do not fit together may not be compared. -/
  strictComparisons : Bool := false
  /-- How bad the wrong result of an asynchronous function is. -/
  asyncReturnMismatch : MismatchLevel := .warning
  deriving DecidableEq, Repr

/-- A configuration. -/
structure Config where
  /-- The choices about the analysis itself. -/
  analysis : Options := {}
  /-- The names of further functions, each with the text of its result type, by increasing names. -/
  intrinsics : List (String × String) := []
  deriving DecidableEq, Repr

end UnitAnalysis

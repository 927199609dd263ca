import Mathlib.Data.List.Nodup
import UnitAnalysis.Diagnostic.Problem

/-!
# Codes of diagnostics

Every code has a text of its own, so a diagnostic tells by the text of its code which problem it
is about.
-/

set_option autoImplicit false

namespace UnitAnalysis

namespace Code

/-- No code is left out of the list of all codes. -/
theorem mem_all (c : Code) : c ∈ all := by
  cases c <;> decide

/-- No two codes of the list are shown alike. -/
theorem nodup_map_text_all : (all.map text).Nodup := by
  decide

/-- Different codes have different texts. -/
theorem text_injective : Function.Injective text := fun c c' h =>
  List.inj_on_of_nodup_map nodup_map_text_all c.mem_all c'.mem_all h

end Code

/-- The code that a diagnostic shows is that of the problem. -/
theorem Finding.toDiagnostic_code_eq_iff {f : Finding} {c : Code} :
    f.toDiagnostic.code = c.text ↔ f.problem.code = c :=
  Code.text_injective.eq_iff

end UnitAnalysis

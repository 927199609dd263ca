import UnitAnalysis.Span

/-!
# Written types

A type as it stands in the source, before its names are looked up.
-/

set_option autoImplicit false

namespace UnitAnalysis

/-- A written type. -/
inductive TypeExpr where
  /-- A name with its arguments: `Int`, `Shape`, `List<T>`. -/
  | named (span : Span) (name : String) (args : List TypeExpr)
  /-- `T?` -/
  | optional (span : Span) (inner : TypeExpr)
  /-- `[T]` -/
  | array (span : Span) (element : TypeExpr)
  /-- `(A, B)` -/
  | tuple (span : Span) (elements : List TypeExpr)
  /-- `(A, B) -> R` -/
  | function (span : Span) (params : List TypeExpr) (ret : TypeExpr)
  deriving Repr

/-- The place of a written type. -/
def TypeExpr.span : TypeExpr → Span
  | named span _ _ => span
  | optional span _ => span
  | array span _ => span
  | tuple span _ => span
  | function span _ _ => span

instance : Inhabited TypeExpr := ⟨.named {} "" []⟩

/-- A type parameter with the traits that its argument must implement. -/
structure TypeParam where
  /-- The name of the parameter. -/
  name : String
  /-- The traits, as they are written. -/
  bounds : List String := []
  deriving DecidableEq, Repr

end UnitAnalysis

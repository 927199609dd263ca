import UnitAnalysis.Check.Unit
import UnitAnalysis.Config.TypeName
import UnitAnalysis.Symbols.Visit
import UnitAnalysis.Trait.Conformance

/-!
# Analysis of a unit

The analysis builds the symbol table, registers the traits and then their implementations, and
checks all bodies. It always comes to an end and always gives the whole table; what is wrong with
the unit stands in the diagnostics, in the order in which it was found.
-/

set_option autoImplicit false

namespace UnitAnalysis

/-- What the analysis found out about a unit. -/
structure Analysis where
  /-- The symbol table, with the types that names received. -/
  table : SymbolTable
  /-- The types of expressions and blocks. -/
  types : Table NodeId Ty
  /-- The traits and their implementations. -/
  registry : Registry
  /-- What was found wrong. -/
  findings : List Finding

namespace Analysis

/-- What is shown to the user. -/
def diagnostics (a : Analysis) : List Diagnostic :=
  a.findings.map Finding.toDiagnostic

/-- Whether code can be generated: nothing is wrong but for warnings. -/
def canGenerate (a : Analysis) : Bool :=
  a.findings.all fun f => f.problem.severity ≠ .error

/-- The global symbol of a name. -/
def global? (a : Analysis) (name : String) : Option Symbol :=
  a.table.scopes.lookup .global name

end Analysis

/-- A unit that is ready to be checked: all names are declared and no expression has a type. -/
structure Prepared where
  /-- What the check of script statements can see. -/
  context : Context
  /-- What the check starts from. -/
  session : Session

/-- Builds the symbol table of a unit and registers its traits and implementations. -/
def SourceUnit.prepare (options : Options) (intrinsics : List (String × TypeExpr))
    (u : SourceUnit) : Prepared :=
  let b := Builder.ofUnit intrinsics u
  let (registry, found) := Registry.ofLists b.traits b.impls
  { context := { table := b.table, registry, options }
    session := { scopes := b.table.scopes, findings := b.findings ++ found } }

/-- What is known after a check. -/
def Prepared.analysis (p : Prepared) (s : Session) : Analysis :=
  { table := { p.context.table with scopes := s.scopes }
    types := s.types
    registry := p.context.registry
    findings := s.findings }

/-- Analyzes a unit. Further functions whose types cannot be read are passed over. -/
def analyze (config : Config) (u : SourceUnit) : Analysis :=
  let p := u.prepare config.analysis config.readableIntrinsics
  p.analysis ((Check.unit p.context u).run p.session).2

end UnitAnalysis

import UnitAnalysis.Declared.Resolve
import UnitAnalysis.Scope
import UnitAnalysis.Trait.Registry

/-!
# The symbol table and its construction

A `SymbolTable` is what is known of a unit before any expression has a type: its scopes and which
node opened which, its declared types, the resolved types of annotations and the resolved signatures
of functions. It is built step by step; `Build` is a step, which changes the state of the
construction and may report problems.
-/

set_option autoImplicit false

namespace UnitAnalysis

/-- What is known of a unit before its expressions have types. -/
structure SymbolTable where
  /-- The scopes with their symbols. -/
  scopes : Arena := {}
  /-- The scope that each node opened. -/
  scopeMap : Table NodeId ScopeId := {}
  /-- The declared types. -/
  decls : DeclIndex := {}
  /-- The resolved type of each annotated node. -/
  annotations : Table NodeId Ty := {}
  /-- The resolved signature of each function and method. -/
  functions : Table NodeId Signature := {}
  /-- The results of the functions that need no declaration. -/
  intrinsics : Table String Ty := {}

namespace SymbolTable

instance : Inhabited SymbolTable := ⟨{}⟩

/-- The scope that a node opened, or another one when it opened none. -/
def scopeFor (t : SymbolTable) (id : NodeId) (fallback : ScopeId) : ScopeId :=
  (t.scopeMap.get? id).getD fallback

end SymbolTable

/-- The calls of a walk on a pattern: one on each pattern in it, all in the scope of the whole. -/
def Pattern.visits (scope : ScopeId) (p : Pattern) : List Visit :=
  p.ids.map fun id => ⟨.pattern, id, scope⟩

/-- The state of a construction. -/
structure Builder where
  /-- The table so far. -/
  table : SymbolTable := {}
  /-- The traits, in the order of their declarations. -/
  traits : List Trait := []
  /-- The implementations, in the order of their declarations. -/
  impls : List Implementation := []
  /-- The declarations that lost their name to an earlier one. -/
  shadowed : List NodeId := []
  /-- What was found wrong so far. -/
  findings : List Finding := []
  /-- The way of the walk through the bodies so far. -/
  visits : Array Visit := #[]

/-- A step of a construction. -/
abbrev Build := StateM Builder

namespace Build

/-- Reports problems. -/
def report (found : List Finding) : Build Unit :=
  modify fun b => { b with findings := b.findings ++ found }

/-- Notes a call of the walk. -/
def visit (v : Visit) : Build Unit :=
  modify fun b => { b with visits := b.visits.push v }

/-- Notes several calls of the walk. -/
def visitAll (vs : List Visit) : Build Unit :=
  modify fun b => { b with visits := b.visits ++ vs }

/-- Changes the table. -/
def modifyTable (f : SymbolTable → SymbolTable) : Build Unit :=
  modify fun b => { b with table := f b.table }

/-- Resolves a written type. -/
def resolve (g : Generics) (e : TypeExpr) : Build Ty := do
  let (t, found) := e.resolve (← get).table.decls g
  report found
  return t

/-- Resolves several written types. -/
def resolveAll (g : Generics) : List TypeExpr → Build (List Ty)
  | [] => return []
  | e :: es => do
    let t ← resolve g e
    return t :: (← resolveAll g es)

/-- Resolves a written type, when there is one. -/
def resolveOption (g : Generics) : Option TypeExpr → Build (Option Ty)
  | none => return none
  | some e => return some (← resolve g e)

/-- Remembers the type of an annotated node. -/
def annotate (id : NodeId) (t : Ty) : Build Unit :=
  modifyTable fun table => { table with annotations := table.annotations.insert id t }

/-- Remembers the signature of a function. -/
def recordSignature (s : Signature) : Build Unit :=
  modifyTable fun table => { table with functions := table.functions.insert s.origin s }

/-- Opens a scope for a node. -/
def enter (parent : ScopeId) (kind : ScopeKind) (id : NodeId) : Build ScopeId := do
  let (scope, scopes) := (← get).table.scopes.enter parent kind
  modifyTable fun table => { table with scopes, scopeMap := table.scopeMap.insert id scope }
  return scope

/-- Defines a symbol, unless its name is taken, and says whether it did. -/
def tryDefine (scope : ScopeId) (symbol : Symbol) : Build (Except ScopeError Unit) := do
  match (← get).table.scopes.define scope symbol with
  | .ok scopes =>
    modifyTable fun table => { table with scopes }
    return .ok ()
  | .error e => return .error e

theorem tryDefine_run_of_ok {b : Builder} {scope : ScopeId} {symbol : Symbol} {scopes : Arena}
    (h : b.table.scopes.define scope symbol = .ok scopes) :
    (tryDefine scope symbol).run b = (.ok (), { b with table := { b.table with scopes } }) := by
  simp only [tryDefine, StateT.run_bind, StateT.run_get, pure_bind, h]
  rfl

theorem tryDefine_run_of_error {b : Builder} {scope : ScopeId} {symbol : Symbol} {e : ScopeError}
    (h : b.table.scopes.define scope symbol = .error e) :
    (tryDefine scope symbol).run b = (.error e, b) := by
  simp only [tryDefine, StateT.run_bind, StateT.run_get, pure_bind, h]
  rfl

/-- Defines a symbol. A name that is taken is reported at `site`. -/
def define (scope : ScopeId) (symbol : Symbol) (site : Span) : Build Bool := do
  match ← tryDefine scope symbol with
  | .ok () => return true
  | .error (.redefinition name first) =>
    report [⟨.duplicateDefinition name first, site⟩]
    return false
  | .error .leftGlobal => return false

/-- The type parameters and `Self` inside the declaration of a type. -/
def typeGenerics (ix : DeclIndex) (name : String) (params : List TypeParam) : Generics :=
  let g := Generics.extend {} params
  match ix.get? name with
  | some d => g.withAlias "Self" d.selfType
  | none => g

/-- The type of values of a declaration. -/
def selfType (ix : DeclIndex) (name : String) : Ty :=
  match ix.get? name with
  | some d => d.selfType
  | none => .named name

end Build

end UnitAnalysis

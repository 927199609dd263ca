import UnitAnalysis.Check.Infer

/-!
# Checking a unit

The statements of the script come first, in order, so that the bodies see the types of the global
names; then the bodies and the first values of fields, declaration by declaration.
-/

set_option autoImplicit false

namespace UnitAnalysis

namespace Check

/-- The frame of a function. -/
def frameOf (table : SymbolTable) (f : FunctionDecl) : Frame :=
  { name := f.name, ret := (table.functions.get? f.node.id).bind fun s => s.ret,
    isAsync := f.isAsync }

/-- The place of the result of a function. -/
def resultSpan (f : FunctionDecl) : Span :=
  match f.body.result with
  | some e => e.span
  | none => f.node.span

section Walk

variable {m : Type → Type} [Monad m] (w : Steps m) (ctx : Context)

/-- Checks a statement of the script. -/
def walkScript : Stmt → m Unit
  | .letBind node pattern _ _ value => do
    let t ← walkExpr w ctx .global value
    w.inScope .global (bindLet ctx .global node pattern t value.span)
  | .expr _ value => do
    let _ ← walkExpr w ctx .global value

/-- Checks the body of a function, and its type against the written result. -/
def walkFunction (parent : ScopeId) (f : FunctionDecl) : m Unit := do
  let frame := frameOf ctx.table f
  let t ← inside w (.enterFunction frame)
    (walkBlock w ctx (ctx.table.scopeFor f.node.id parent) f.body)
  w.plain (report (resultFindings ctx.options frame t (resultSpan f)))

/-- Checks the first value of a field, if it has one. -/
def walkInitializer (scope : ScopeId) (owner : String) (f : FieldDecl) : m Unit := do
  match f.initializer with
  | some e =>
    let found ← walkExpr w ctx scope e
    let declared := (ctx.table.annotations.get? f.node.id).getD .any
    w.plain (report (if declared.accepts found then []
      else [⟨.initializerMismatch owner f.name declared found, e.span⟩]))
  | none => return ()

/-- Checks a class. -/
def walkClass (c : ClassDecl) : m Unit := do
  let scope := ctx.table.scopeFor c.node.id .global
  c.fields.forM (walkInitializer w ctx scope c.name)
  c.methods.forM (walkFunction w ctx scope)

/-- Checks a statement of the script, and passes over other declarations. -/
def walkDeclScript : Decl → m Unit
  | .script s => walkScript w ctx s
  | _ => return ()

/-- Checks a declaration, and passes over the statements of the script. -/
def walkDeclBodies : Decl → m Unit
  | .function f => walkFunction w ctx .global f
  | .classLike c => walkClass w ctx c
  | .struct s => s.fields.forM (walkInitializer w ctx .global s.name)
  | .spark s => s.fields.forM (walkInitializer w ctx .global s.name)
  | .impl i => i.methods.forM (walkFunction w ctx .global)
  | .data _ => return ()
  | .trait _ => return ()
  | .interface _ => return ()
  | .script _ => return ()

/-- Checks a unit. -/
def walkUnit (u : SourceUnit) : m Unit := do
  u.decls.forM (walkDeclScript w ctx)
  u.decls.forM (walkDeclBodies w ctx)

end Walk

/-- Checks a statement of the script. -/
def script : Context → Stmt → Check Unit := walkScript direct

/-- Checks the body of a function, and its type against the written result. -/
def function : Context → ScopeId → FunctionDecl → Check Unit := walkFunction direct

/-- Checks the first value of a field, if it has one. -/
def initializer : Context → ScopeId → String → FieldDecl → Check Unit := walkInitializer direct

/-- Checks a class. -/
def classLike : Context → ClassDecl → Check Unit := walkClass direct

/-- Checks a statement of the script, and passes over other declarations. -/
def declScript : Context → Decl → Check Unit := walkDeclScript direct

/-- Checks a declaration, and passes over the statements of the script. -/
def declBodies : Context → Decl → Check Unit := walkDeclBodies direct

/-- Checks a unit. -/
def unit : Context → SourceUnit → Check Unit := walkUnit direct

end Check

end UnitAnalysis

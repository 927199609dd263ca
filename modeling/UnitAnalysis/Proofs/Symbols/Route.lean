import UnitAnalysis.Proofs.Syntax.Route
import UnitAnalysis.Symbols.Visit

/-!
# The walk along routes

The third round of a construction walks through the bodies of a unit. Its code has a branch for each
form of expressions, but all of them walk along a route: `visitExpr_eq` and `visitBlock_eq`.
-/

set_option autoImplicit false

namespace UnitAnalysis

/-- Each construct has the scope that a table has for it. -/
def scopeRules (table : SymbolTable) : Rules ScopeId where
  enter scope o := table.scopeFor o.id scope
  skip scope := scope

namespace Build

/-- Gives the names of a construct to its scope. -/
def bindNames (g : Generics) (scope : ScopeId) : Binder → Build Unit
  | .letBind node pattern ty isMutable => defineLet g scope node pattern ty isMutable
  | .arm node pattern => definePattern g scope false none node.span pattern
  | .lambda node params _ => defineLambdaParams g scope node.span params
  | .forLoop node pattern => definePattern g scope false none node.span pattern
  | .catchClause node name ty => defineException g scope node name ty
  | .concurrent _ bindings => defineConcurrent scope bindings

/-- Opens the scopes on a route. -/
def visitRoute (g : Generics) (scope : ScopeId) : Route → Build Unit
  | .done => return ()
  | .expr _ e rest => do
    visitExpr g scope e
    visitRoute g scope rest
  | .block kind b rest => do
    visitBlock g scope kind b
    visitRoute g scope rest
  | .opening b inner rest => do
    let inside ← enter scope b.opening.kind b.opening.id
    bindNames g inside b
    visitRoute g inside inner
    visitRoute g scope rest
  | .stmt node value rest => do
    visitExpr g scope value
    let next := (scopeRules (← get).table).after scope (.expr node value)
    visitRoute g next rest

variable (g : Generics) (scope : ScopeId)

@[simp] theorem walkExpr_direct (e : Expr) : walkExpr direct g scope e = visitExpr g scope e := rfl

@[simp] theorem walkBlock_direct (kind : ScopeKind) (b : Block) :
    walkBlock direct g scope kind b = visitBlock g scope kind b := rfl

/-- Expressions. -/
theorem visitRoute_exprs (es : List Expr) (rest : Route) :
    visitRoute g scope (.exprs es rest) =
      walkExprs direct g scope es >>= fun _ => visitRoute g scope rest := by
  induction es with
  | nil => rfl
  | cons e es ih => simp_all [Route.exprs, visitRoute, walkExprs]

/-- Initializers are their values. -/
theorem walkInits_eq (fields : List FieldInit) :
    walkInits direct g scope fields = walkExprs direct g scope (fields.map FieldInit.value) := by
  induction fields with
  | nil => rfl
  | cons f fields ih =>
    cases f
    simp [walkInits, walkExprs, ih]

/-- Bindings are their values. -/
theorem walkBindings_eq (bindings : List ConcurrentBinding) :
    walkBindings direct g scope bindings =
      walkExprs direct g scope (bindings.map ConcurrentBinding.value) := by
  induction bindings with
  | nil => rfl
  | cons b bindings ih =>
    cases b
    simp [walkBindings, walkExprs, ih]

/-- Match arms. -/
theorem visitRoute_arms (l : List MatchArm) :
    visitRoute g scope (.arms l) = walkArms direct g scope l := by
  unfold Route.arms
  induction l with
  | nil => rfl
  | cons arm l ih =>
    obtain ⟨node, pattern, guard, body⟩ := arm
    cases guard <;> simp [visitRoute, visitRoute_exprs, walkExprs, walkArms, bindNames,
      Binder.opening, Opening.kind, Opening.id, ih]

/-- Handlers. -/
theorem visitRoute_catches (l : List CatchClause) (rest : Route) :
    visitRoute g scope (.catches l rest) =
      walkCatches direct g scope l >>= fun _ => visitRoute g scope rest := by
  unfold Route.catches
  induction l with
  | nil => rfl
  | cons c l ih =>
    obtain ⟨node, name, ty, body⟩ := c
    simp [visitRoute, walkCatches, bindNames, Binder.opening, Opening.kind, Opening.id, ih]

/-- Statements. -/
theorem visitRoute_stmts (l : List Stmt) (rest : Route) :
    visitRoute g scope (.stmts l rest) =
      walkStmts direct g scope l >>= fun last => visitRoute g last rest := by
  induction l generalizing scope with
  | nil => rfl
  | cons s l ih =>
    cases s with
    | letBind node pattern ty isMutable value =>
      simp [Route.stmts, visitRoute, walkStmts, bindNames, Binder.opening, Opening.kind,
        Opening.id, ih]
    | expr node value =>
      have hcode : walkStmts direct g scope (.expr node value :: l) =
          visitExpr g scope value >>= fun _ => get >>= fun b =>
            walkStmts direct g ((scopeRules b.table).after scope (.expr node value)) l := by
        cases value <;> rfl
      simp [Route.stmts, visitRoute, hcode, ih]

/-- The walk through an expression comes by the expression and goes along its route. -/
theorem visitExpr_eq (e : Expr) :
    visitExpr g scope e =
      visit ⟨.expr, e.id, scope⟩ >>= fun _ => visitRoute g scope e.route := by
  unfold visitExpr walkExpr
  refine congrArg _ (funext fun _ => ?_)
  cases e with
  | ifElse _ _ _ other =>
    cases other <;> simp [Expr.route, visitRoute, visitRoute_exprs, walkExprs]
  | ret _ value => cases value <;> simp [Expr.route, visitRoute, visitRoute_exprs, walkExprs]
  | tryCatch _ _ _ cleanup => cases cleanup <;> simp [Expr.route, visitRoute, visitRoute_catches]
  | _ =>
    simp [Expr.route, visitRoute, visitRoute_exprs, walkExprs, visitRoute_arms, walkInits_eq,
      walkBindings_eq, bindNames, Binder.opening, Opening.kind, Opening.id]

/-- The walk through a block opens its scope and goes along its route there. -/
theorem visitBlock_eq (kind : ScopeKind) (b : Block) :
    visitBlock g scope kind b = visit ⟨.block, b.id, scope⟩ >>= fun _ =>
      enter scope kind b.id >>= fun inner => visitRoute g inner b.route := by
  unfold visitBlock walkBlock
  obtain ⟨node, stmts, result⟩ := b
  cases result <;> simp [Block.route, visitRoute_stmts, visitRoute_exprs, visitRoute, walkExprs,
    Block.id]

/-- The walk through the bodies comes after the first two rounds. -/
theorem unit_eq (intrinsics : List (String × TypeExpr)) (u : SourceUnit) :
    unit intrinsics u = declare intrinsics u >>= fun _ => u.decls.forM visitDecl := by
  unfold unit walkUnit visitDecl
  rfl

end Build

end UnitAnalysis

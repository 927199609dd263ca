import Mathlib.Data.List.Perm.Subperm
import UnitAnalysis.Proofs.Syntax.Walk

/-!
# Routes through bodies

There are many forms of expressions, but a walk through a body does few things. It comes by
expressions and blocks in the same place, it opens scopes, which receive names before the walk goes
on inside, and it goes on after a statement. The route of an expression or block lists these things
in order. `Route.Induction` has a case for each of them, so what is shown for routes is shown for
all forms of expressions at once.
-/

set_option autoImplicit false

namespace UnitAnalysis

/-- A construct inside a body that opens a scope, with what the scope receives. -/
inductive Binder where
  | letBind (node : Node) (pattern : Pattern) (ty : Option TypeExpr) (isMutable : Bool)
  | arm (node : Node) (pattern : Pattern)
  | lambda (node : Node) (params : List LambdaParam) (isAsync : Bool)
  | forLoop (node : Node) (pattern : Pattern)
  | catchClause (node : Node) (name : String) (ty : Option TypeExpr)
  | concurrent (node : Node) (bindings : List ConcurrentBinding)

namespace Binder

/-- The construct, without written types. -/
def opening : Binder → Opening
  | letBind node pattern _ _ => .letBind node pattern
  | arm node pattern => .arm node pattern
  | lambda node params isAsync => .lambda node params isAsync
  | forLoop node pattern => .forLoop node pattern
  | catchClause node name _ => .catchClause node name
  | concurrent node bindings => .concurrent node bindings

/-- The pattern that the names come from, if there is one. -/
def patterns : Binder → List Pattern
  | letBind _ pattern _ _ | arm _ pattern | forLoop _ pattern => [pattern]
  | lambda _ _ _ | catchClause _ _ _ | concurrent _ _ => []

/-- The nodes that get types when the scope receives its names, but for that of the construct. -/
def partIds : Binder → List NodeId
  | lambda _ params _ => params.map fun p => p.node.id
  | b => b.patterns.flatMap Pattern.ids

/-- The node of the construct and those of its parts. -/
def ids (b : Binder) : List NodeId :=
  b.opening.id :: b.partIds

/-- The sites of its pattern. -/
def sites {α : Type} (b : Binder) (place : α) : List (Site α) :=
  b.patterns.map (.pattern place)

end Binder

/-- What a walk through a body does from some point on. -/
inductive Route where
  | done
  /-- An expression. It may be a target that cannot be assigned to, which is passed over by some. -/
  | expr (isSkipped : Bool) (e : Expr) (rest : Route)
  | block (kind : ScopeKind) (b : Block) (rest : Route)
  /-- A construct opens a scope. The walk goes on inside and then outside. -/
  | opening (b : Binder) (inner rest : Route)
  /-- An expression that is a statement, with the rest of its block. -/
  | stmt (node : Node) (value : Expr) (rest : Route)

namespace Route

/-- Expressions in the same place, and then the rest. -/
def exprs (es : List Expr) (rest : Route) : Route :=
  es.foldr (.expr false) rest

/-- Match arms, each with a scope of its own. -/
def arms (l : List MatchArm) : Route :=
  l.foldr (fun arm => .opening (.arm arm.node arm.pattern)
    (exprs (arm.guard.toList ++ [arm.body]) .done)) .done

/-- Handlers, each with a scope of its own, and then the rest. -/
def catches (l : List CatchClause) (rest : Route) : Route :=
  l.foldr (fun c => .opening (.catchClause c.node c.name c.ty) (.block .block c.body .done)) rest

/-- Statements, and then the rest of their block. -/
def stmts : List Stmt → Route → Route
  | [], last => last
  | .letBind node pattern ty isMutable value :: rest, last =>
    .expr false value (.opening (.letBind node pattern ty isMutable) (stmts rest last) .done)
  | .expr node value :: rest, last => .stmt node value (stmts rest last)

end Route

/-- The route through a block, in the scope of the block. -/
def Block.route (b : Block) : Route :=
  .stmts b.stmts (.exprs b.result.toList .done)

open Route in
/-- The route through the parts of an expression. -/
def Expr.route : Expr → Route
  | .literal _ _ | .ident _ _ | .breakLoop _ | .continueLoop _ => done
  | .binary _ _ left right => exprs [left, right] done
  | .unary _ _ operand => exprs [operand] done
  | .call _ callee args => exprs (callee :: args) done
  | .methodCall _ receiver _ _ args => exprs (receiver :: args) done
  | .fieldAccess _ object _ => exprs [object] done
  | .index _ object position => exprs [object, position] done
  | .ifElse _ cond thenBranch other =>
    exprs [cond] (.block .block thenBranch (exprs other.toList done))
  | .matchOn _ scrutinee l => exprs [scrutinee] (arms l)
  | .block _ body | .race _ body => .block .block body done
  | .lambda node params isAsync body =>
    .opening (.lambda node params isAsync) (.block .block body done) done
  | .whileLoop _ cond body => exprs [cond] (.block .loop body done)
  | .forLoop node pattern iterable body =>
    exprs [iterable] (.opening (.forLoop node pattern) (.block .block body done) done)
  | .ret _ value => exprs value.toList done
  | .assign _ target value => .expr (!target.isTarget) target (exprs [value] done)
  | .arrayLit _ elements | .tupleLit _ elements => exprs elements done
  | .structLit _ _ fields => exprs (fields.map FieldInit.value) done
  | .tryCatch _ body l cleanup =>
    .block .block body (catches l (cleanup.toList.foldr (.block .block) done))
  | .throw _ value | .await _ value => exprs [value] done
  | .concurrent node bindings =>
    exprs (bindings.map ConcurrentBinding.value) (.opening (.concurrent node bindings) done done)
  | .timeout _ duration body => exprs [duration] (.block .block body done)

/-! ## Induction -/

namespace Route

/-- All expressions and blocks on a route are smaller than a number says. -/
def Below (n : Nat) : Route → Prop
  | done => True
  | expr _ e rest => sizeOf e < n ∧ rest.Below n
  | block _ b rest => sizeOf b < n ∧ rest.Below n
  | opening _ inner rest => inner.Below n ∧ rest.Below n
  | stmt _ value rest => sizeOf value < n ∧ rest.Below n

variable {n : Nat} {rest : Route}

theorem below_exprs {es : List Expr} :
    (exprs es rest).Below n ↔ (∀ e ∈ es, sizeOf e < n) ∧ rest.Below n := by
  unfold exprs
  induction es with
  | nil => simp
  | cons e es ih => simp [Below, ih, and_assoc]

theorem below_arms {l : List MatchArm} (h : sizeOf l < n) : (arms l).Below n := by
  unfold arms
  induction l with
  | nil => trivial
  | cons arm arms ih =>
    obtain ⟨node, pattern, guard, body⟩ := arm
    cases guard <;> grind [Below, below_exprs]

theorem below_catches {l : List CatchClause} (h : sizeOf l < n) (hrest : rest.Below n) :
    (catches l rest).Below n := by
  unfold catches
  induction l with
  | nil => exact hrest
  | cons c l ih =>
    obtain ⟨node, name, ty, body⟩ := c
    grind [Below]

theorem below_stmts {l : List Stmt} (h : sizeOf l < n) (hrest : rest.Below n) :
    (stmts l rest).Below n := by
  induction l with
  | nil => exact hrest
  | cons s l ih => cases s <;> grind [Below, stmts]

end Route

theorem Block.below_route (b : Block) : b.route.Below (sizeOf b) := by
  obtain ⟨node, stmts, result⟩ := b
  refine Route.below_stmts (by grind) (Route.below_exprs.2 ⟨?_, trivial⟩)
  cases result <;> grind

open Route in
theorem Expr.below_route (e : Expr) : e.route.Below (sizeOf e) := by
  cases e with
  | ifElse _ _ _ other => cases other <;> grind [route, Below, below_exprs]
  | ret _ value => cases value <;> grind [route, Below, below_exprs]
  | tryCatch _ _ _ cleanup => cases cleanup <;> grind [route, Below, below_catches]
  | matchOn _ _ _ => grind [route, Below, below_exprs, below_arms]
  | structLit _ _ fields =>
    refine below_exprs.2 ⟨List.forall_mem_map.2 fun f hf => ?_, trivial⟩
    have hlt := List.sizeOf_lt_of_mem hf
    cases f
    grind
  | concurrent _ bindings =>
    refine below_exprs.2 ⟨List.forall_mem_map.2 fun b hb => ?_, trivial, trivial⟩
    have hlt := List.sizeOf_lt_of_mem hb
    cases b
    grind
  | _ => grind [route, Below, below_exprs, → List.sizeOf_lt_of_mem]

/-- What is to be shown of routes so that something holds of all expressions and blocks. -/
structure Route.Induction (E : Expr → Prop) (B : Block → Prop) (P : Route → Prop) : Prop where
  ofExpr : ∀ e : Expr, P e.route → E e
  ofBlock : ∀ b : Block, P b.route → B b
  done : P .done
  expr : ∀ isSkipped e rest, E e → P rest → P (.expr isSkipped e rest)
  block : ∀ kind b rest, B b → P rest → P (.block kind b rest)
  opening : ∀ b inner rest, P inner → P rest → P (.opening b inner rest)
  stmt : ∀ node value rest, E value → P rest → P (.stmt node value rest)

namespace Route.Induction

variable {E : Expr → Prop} {B : Block → Prop} {P : Route → Prop}

variable (h : Induction E B P)

include h

theorem of_below {n : Nat} (hE : ∀ e : Expr, sizeOf e < n → E e)
    (hB : ∀ b : Block, sizeOf b < n → B b) (r : Route) (hr : r.Below n) : P r := by
  induction r with
  | done => exact h.done
  | expr isSkipped e rest ih => exact h.expr _ _ _ (hE e hr.1) (ih hr.2)
  | block kind b rest ih => exact h.block _ _ _ (hB b hr.1) (ih hr.2)
  | opening b inner rest ih ih' => exact h.opening _ _ _ (ih hr.1) (ih' hr.2)
  | stmt node value rest ih => exact h.stmt _ _ _ (hE value hr.1) (ih hr.2)

/-- By induction on the size, over expressions and blocks at once. -/
theorem all_below (n : Nat) :
    (∀ e : Expr, sizeOf e < n → E e) ∧ ∀ b : Block, sizeOf b < n → B b := by
  induction n with
  | zero =>
    exact ⟨fun _ he => absurd he (Nat.not_lt_zero _), fun _ hb => absurd hb (Nat.not_lt_zero _)⟩
  | succ n ih =>
    have hroute (r : Route) (m : Nat) (hm : m < n + 1) (hr : r.Below m) : P r :=
      h.of_below (fun e he => ih.1 e (by omega)) (fun b hb => ih.2 b (by omega)) r hr
    exact ⟨fun e he => h.ofExpr e (hroute _ _ he e.below_route),
      fun b hb => h.ofBlock b (hroute _ _ hb b.below_route)⟩

theorem toExpr (e : Expr) : E e :=
  (h.all_below _).1 e (Nat.lt_succ_self _)

theorem toBlock (b : Block) : B b :=
  (h.all_below _).2 b (Nat.lt_succ_self _)

theorem toRoute (r : Route) : P r := by
  induction r with
  | done => exact h.done
  | expr isSkipped e rest ih => exact h.expr _ _ _ (h.toExpr e) ih
  | block kind b rest ih => exact h.block _ _ _ (h.toBlock b) ih
  | opening b inner rest ih ih' => exact h.opening _ _ _ ih ih'
  | stmt node value rest ih => exact h.stmt _ _ _ (h.toExpr value) ih

end Route.Induction

/-! ## Sites -/

section Sites

variable {α : Type} (R : Rules α)

/-- The sites on a route. -/
def Route.sites (a : α) : Route → List (Site α)
  | done => []
  | expr isSkipped e rest => e.sites R (if isSkipped then R.skip a else a) ++ rest.sites a
  | block kind b rest => b.sites R kind a ++ rest.sites a
  | opening b inner rest =>
    .opening a b.opening :: (b.sites (R.enter a b.opening) ++ inner.sites (R.enter a b.opening)) ++
      rest.sites a
  | stmt node value rest => value.sites R a ++ rest.sites (R.after a (.expr node value))

variable (a : α)

theorem Route.sites_exprs (es : List Expr) (rest : Route) :
    (exprs es rest).sites R a = Expr.sitesAll R a es ++ rest.sites R a := by
  induction es with
  | nil => rfl
  | cons e es ih => simp_all [exprs, Route.sites, Expr.sitesAll]

theorem FieldInit.sitesAll_eq (fields : List FieldInit) :
    FieldInit.sitesAll R a fields = Expr.sitesAll R a (fields.map FieldInit.value) := by
  induction fields with
  | nil => rfl
  | cons f fields ih =>
    cases f
    simp [FieldInit.sitesAll, Expr.sitesAll, ih]

theorem ConcurrentBinding.sitesAll_eq (bindings : List ConcurrentBinding) :
    ConcurrentBinding.sitesAll R a bindings =
      Expr.sitesAll R a (bindings.map ConcurrentBinding.value) := by
  induction bindings with
  | nil => rfl
  | cons b bindings ih =>
    cases b
    simp [ConcurrentBinding.sitesAll, Expr.sitesAll, ih]

theorem Route.sites_arms (l : List MatchArm) : (arms l).sites R a = MatchArm.sitesAll R a l := by
  unfold arms
  induction l with
  | nil => rfl
  | cons arm l ih =>
    obtain ⟨node, pattern, guard, body⟩ := arm
    cases guard <;> simp [Route.sites, sites_exprs, MatchArm.sitesAll, Expr.sitesAll, Binder.sites,
      Binder.patterns, Binder.opening, ih]

theorem Route.sites_catches (l : List CatchClause) (rest : Route) :
    (catches l rest).sites R a = CatchClause.sitesAll R a l ++ rest.sites R a := by
  unfold catches
  induction l with
  | nil => rfl
  | cons c l ih =>
    obtain ⟨node, name, ty, body⟩ := c
    simp [Route.sites, CatchClause.sitesAll, Binder.sites, Binder.patterns, Binder.opening, ih]

theorem Route.sites_stmts (l : List Stmt) (rest : Route) :
    (stmts l rest).sites R a = Stmt.sitesAll R a l ++ rest.sites R (l.foldl R.after a) := by
  induction l generalizing a with
  | nil => rfl
  | cons s l ih =>
    cases s <;> simp [Route.sites, stmts, Stmt.sitesAll, Rules.after, Binder.sites,
      Binder.patterns, Binder.opening, ih]

/-- The sites of an expression are the expression and those on its route. -/
theorem Expr.sites_eq (e : Expr) : e.sites R a = .expr a e :: e.route.sites R a := by
  cases e with
  | ifElse _ _ _ other =>
    cases other <;> simp [Expr.sites, route, Route.sites, Route.sites_exprs, Expr.sitesAll]
  | ret _ value =>
    cases value <;> simp [Expr.sites, route, Route.sites, Route.sites_exprs, Expr.sitesAll]
  | tryCatch _ _ _ cleanup =>
    cases cleanup <;> simp [Expr.sites, route, Route.sites, Route.sites_catches]
  | assign _ target _ =>
    cases htarget : target.isTarget <;>
      simp [Expr.sites, route, Route.sites, Route.sites_exprs, Expr.sitesAll, htarget]
  | _ =>
    simp [Expr.sites, route, Route.sites, Route.sites_exprs, Expr.sitesAll, Route.sites_arms,
      FieldInit.sitesAll_eq, ConcurrentBinding.sitesAll_eq, Binder.sites, Binder.patterns,
      Binder.opening]

/-- The sites of a block are the block and those on its route, in its own region. -/
theorem Block.sites_eq (kind : ScopeKind) (b : Block) :
    b.sites R kind a =
      .block a b :: .opening a (.block kind b) :: b.route.sites R (R.enter a (.block kind b)) := by
  obtain ⟨node, stmts, result⟩ := b
  cases result <;> simp [Block.sites, route, Route.sites_stmts, Route.sites_exprs, Expr.sitesAll,
    Route.sites]

end Sites

/-! ## Identities -/

/-- The identities of the nodes on a route, given those that count of each construct. -/
def Route.idsBy (own : Binder → List NodeId) : Route → List NodeId
  | done => []
  | expr _ e rest => e.ids ++ rest.idsBy own
  | block _ b rest => b.ids ++ rest.idsBy own
  | opening b inner rest => own b ++ (inner.idsBy own ++ rest.idsBy own)
  | stmt _ value rest => value.ids ++ rest.idsBy own

/-- The identities of the nodes on a route. A construct that is an expression has the identity of
the expression. -/
abbrev Route.ids (r : Route) : List NodeId :=
  r.idsBy Binder.ids

theorem Route.ids_opening (b : Binder) (inner rest : Route) :
    (opening b inner rest).ids = b.ids ++ inner.ids ++ rest.ids :=
  (List.append_assoc ..).symm

/-- The identities of the nodes on a route but for those of the constructs themselves. -/
abbrev Route.partIds (r : Route) : List NodeId :=
  r.idsBy Binder.partIds

section Counting

attribute [local simp] Binder.ids Binder.partIds Binder.patterns Binder.opening Opening.id Expr.ids
  Expr.id Expr.node Expr.idsAll Expr.route Route.idsBy List.count_cons

variable {own : Binder → List NodeId} (id : NodeId)

@[local simp] theorem Route.count_exprs (es : List Expr) (rest : Route) :
    ((exprs es rest).idsBy own).count id = (Expr.idsAll es ++ rest.idsBy own).count id := by
  induction es with
  | nil => rfl
  | cons e es ih => simp_all [exprs]

@[local simp] theorem FieldInit.count_idsAll (fields : List FieldInit) :
    (FieldInit.idsAll fields).count id = (Expr.idsAll (fields.map FieldInit.value)).count id := by
  induction fields with
  | nil => rfl
  | cons f fields ih =>
    cases f
    simp [FieldInit.idsAll, ih]

theorem ConcurrentBinding.count_le_idsAll (bindings : List ConcurrentBinding) :
    (Expr.idsAll (bindings.map ConcurrentBinding.value)).count id ≤
      (ConcurrentBinding.idsAll bindings).count id := by
  induction bindings with
  | nil => exact Nat.zero_le _
  | cons b bindings ih =>
    cases b
    simp [ConcurrentBinding.idsAll]
    omega

section Own

variable (hown : ∀ b, (own b).count id ≤ b.ids.count id)

include hown

theorem Route.count_arms_le (l : List MatchArm) :
    ((arms l).idsBy own).count id ≤ (MatchArm.idsAll l).count id := by
  unfold arms
  induction l with
  | nil => exact Nat.zero_le _
  | cons arm l ih =>
    obtain ⟨node, pattern, guard, body⟩ := arm
    have harm := hown (.arm node pattern)
    cases guard <;> simp_all [MatchArm.idsAll] <;> omega

theorem Route.count_catches_le (l : List CatchClause) (rest : Route) :
    ((catches l rest).idsBy own).count id ≤ (CatchClause.idsAll l ++ rest.idsBy own).count id := by
  unfold catches
  induction l with
  | nil => exact Nat.le_refl _
  | cons c l ih =>
    obtain ⟨node, name, ty, body⟩ := c
    have hc := hown (.catchClause node name ty)
    simp_all [CatchClause.idsAll]
    omega

theorem Route.count_stmts_le (l : List Stmt) (rest : Route) :
    ((stmts l rest).idsBy own).count id ≤ (Stmt.idsAll l ++ rest.idsBy own).count id := by
  induction l with
  | nil => exact Nat.le_refl _
  | cons s l ih =>
    cases s with
    | letBind node pattern ty isMutable value =>
      have hs := hown (.letBind node pattern ty isMutable)
      simp_all [stmts, Stmt.idsAll]
      omega
    | expr node value =>
      simp_all [stmts, Stmt.idsAll]
      omega

theorem Block.count_route_le (b : Block) :
    (b.id :: b.route.idsBy own).count id ≤ b.ids.count id := by
  obtain ⟨node, l, result⟩ := b
  have hl := Route.count_stmts_le id hown l (.exprs result.toList .done)
  cases result <;> simp_all [Block.ids, Block.route, Block.id]

end Own

theorem Expr.count_route_le (e : Expr) :
    e.route.ids.count id ≤ e.ids.count id ∧ (e.id :: e.route.partIds).count id ≤ e.ids.count id := by
  have hparts (b : Binder) : b.partIds.count id ≤ b.ids.count id :=
    (List.sublist_cons_self _ _).count_le id
  have harms := Route.count_arms_le id fun _ => Nat.le_refl _
  have harms' := Route.count_arms_le id hparts
  have hcatches := Route.count_catches_le id fun _ => Nat.le_refl _
  have hcatches' := Route.count_catches_le id hparts
  have hbindings := ConcurrentBinding.count_le_idsAll id
  cases e with
  | ifElse _ _ _ other => cases other <;> simp
  | ret _ value => cases value <;> simp
  | tryCatch _ _ _ cleanup => cases cleanup <;> simp <;> grind [Route.idsBy]
  | _ => simp <;> grind

end Counting

theorem subperm_of_count_le {l m : List NodeId} (h : ∀ id, l.count id ≤ m.count id) : l.Subperm m :=
  List.subperm_ext_iff.2 fun id _ => h id

theorem nodup_of_subperm {l m : List NodeId} (h : l.Subperm m) (hm : m.Nodup) : l.Nodup := by
  obtain ⟨k, hperm, hsub⟩ := h
  exact hperm.nodup_iff.1 (hm.sublist hsub)

/-- The nodes on the route of an expression are nodes of it, none listed more often. -/
theorem Expr.ids_route_subperm (e : Expr) : e.route.ids.Subperm e.ids :=
  subperm_of_count_le fun id => (e.count_route_le id).1

/-- So are the expression and the nodes on its route that are not constructs. -/
theorem Expr.partIds_route_subperm (e : Expr) : (e.id :: e.route.partIds).Subperm e.ids :=
  subperm_of_count_le fun id => (e.count_route_le id).2

theorem Block.ids_route_subperm (b : Block) : (b.id :: b.route.ids).Subperm b.ids :=
  subperm_of_count_le fun id => b.count_route_le id fun _ => Nat.le_refl _

theorem Block.partIds_route_subperm (b : Block) : (b.id :: b.route.partIds).Subperm b.ids :=
  subperm_of_count_le fun id => b.count_route_le id fun _ => (List.sublist_cons_self _ _).count_le id

end UnitAnalysis

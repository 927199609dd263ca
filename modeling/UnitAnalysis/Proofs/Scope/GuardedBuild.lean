import UnitAnalysis.Proofs.Order.Visit
import UnitAnalysis.Proofs.Scope.Guarded
import UnitAnalysis.Proofs.Symbols.Globals

/-!
# A guarded construction

The construction of a symbol table, with every index of a scope asked for before it is used. A scope
that was opened is left again at the end of its construct, and the way out has to come by the scope
that the construct stands in. A block is left from the scope of its last statement, which a `let` or
a `concurrent` may have opened; after a `concurrent` that scope is read off the table, where an
identity that occurs again may have been written over.

`Builder.Above` is the invariant: scopes are in order, remembered scopes are there, and the scopes
of some earlier time are where they were. `walkExpr_safe` and its companions, one for each function
of the walk, say that under it the walk with guarded steps raises no fault and does what the walk
with direct steps does.
-/

set_option autoImplicit false

namespace UnitAnalysis

/-- A step of a guarded construction. -/
abbrev GuardedBuild := Guarded Builder

namespace GuardedBuild

open Guarded (plain ask)

/-- Every scope has to be there when it is used. A scope that is opened has to come after the one
around it, and the way out of a scope has to come by its target. -/
def steps : Build.Steps GuardedBuild where
  plain := plain
  inScope scope x := do
    ask fun b => b.table.scopes.require scope
    plain x
  enter parent kind id := do
    let scope ← plain (Build.enter parent kind id)
    ask fun b => b.table.scopes.requireAfter parent scope
    return scope
  leave scope target := ask fun b => b.table.scopes.leave scope target

/-- All rounds over a unit, with these steps. -/
def unit : List (String × TypeExpr) → SourceUnit → GuardedBuild Unit :=
  Build.walkUnit steps

/-! ## What the construction keeps -/

end GuardedBuild

namespace Builder

/-- Scopes are in order, those that nodes remember are there, and the scopes of `a` are where they
were. -/
structure Above (a : Arena) (b : Builder) : Prop where
  ordered : b.table.scopes.Ordered
  rooted : b.Rooted
  grows : a.Grows b.table.scopes

namespace Above

variable {a a' : Arena} {b b' : Builder} {scope : ScopeId}

/-- Growth is transitive. -/
theorem mono (h : b.Above a') (hgrows : a.Grows a') : b.Above a :=
  { h with grows := hgrows.trans h.grows }

/-- What is above some scopes is above its own scopes. -/
theorem self (h : b.Above a) : b.Above b.table.scopes :=
  { h with grows := .refl _ }

/-- Definitions move no scope. -/
theorem defines {names : List String} {visits : List Visit} (h : b.Above a)
    (hdefines : Builder.Defines scope names visits b b') : b'.Above a where
  ordered := h.ordered.defines hdefines.scopes
  rooted := h.rooted.of_sameScopes ⟨hdefines.scopeMap, hdefines.scopes.size⟩
  grows := h.grows.trans hdefines.scopes.extends.grows

/-- A scope is opened below one that is there. -/
theorem enter {parent : ScopeId} (h : b.Above a) (hparent : parent.index < a.size)
    (kind : ScopeKind) (id : NodeId) : ((Build.enter parent kind id).run b).2.Above a where
  ordered := h.ordered.enter (h.grows.lt_size hparent) kind
  rooted := rooted_enter h.rooted parent kind id
  grows := h.grows.trans (b.table.scopes.extends_enter parent kind parent).grows

end Above

end Builder

namespace GuardedBuild

open Build
open Builder (Above)

variable {a a' : Arena} {scope parent inner : ScopeId}

/-- A guarded step of the walk raises no fault and does what the plain step does. -/
def Safe (a : Arena) (x : GuardedBuild Unit) (y : Build Unit) : Prop :=
  Faultless (Above a) x y fun _ => Above a

/-- Doing nothing. -/
theorem Safe.pure : Safe a (Pure.pure ()) (Pure.pure ()) :=
  Faultless.pure fun _ h => h

/-- Definitions move no scope. -/
theorem keeps_of_defines {α : Type} {x : Build α} (scope : ScopeId)
    (hx : ∀ ix, ∃ names visits, x.Defines ix scope names visits) : Keeps (Above a) x := by
  refine ⟨fun b hb => ?_⟩
  obtain ⟨names, visits, hdefines⟩ := hx b.table.decls
  exact hb.defines (hdefines.run b rfl)

/-- Logging a visit. -/
theorem safe_visit (v : Visit) : Safe a (steps.plain (Build.visit v)) (Build.visit v) :=
  Faultless.plain (keeps_of_defines .global fun _ => ⟨_, _, defines_visit v⟩)

/-- A step in a scope. -/
theorem safe_inScope {x : Build Unit} (hscope : scope.index < a.size)
    (hx : Keeps (Above a) x) : Safe a (steps.inScope scope x) x := by
  refine Faultless.asked (fun b hb => ?_) (Faultless.plain hx)
  exact if_pos (hb.grows.lt_size hscope)

/-- A step that gives names to a scope that is there. -/
theorem safe_defines {x : Build Unit} (hscope : scope.index < a.size)
    (hx : ∀ ix, ∃ names visits, x.Defines ix scope names visits) :
    Safe a (steps.inScope scope x) x :=
  safe_inScope hscope (keeps_of_defines scope hx)

/-- What follows on the opening of a scope starts from an arena in which the scope is there. -/
theorem faultless_enter {β : Type} {f : ScopeId → GuardedBuild β} {g : ScopeId → Build β}
    {R : β → Builder → Prop} (hparent : parent.index < a.size) (kind : ScopeKind) (id : NodeId)
    (h : ∀ a' inner, a.Grows a' → a'.Leads inner parent →
      Faultless (Above a') (f inner) (g inner) R) :
    Faultless (Above a) (steps.enter parent kind id >>= f) (enter parent kind id >>= g) R := by
  have henter : Faultless (Above a) (steps.enter parent kind id) (Build.enter parent kind id)
      fun inner b =>
        b.Above a ∧ parent.index < inner.index ∧ b.table.scopes.Leads inner parent := by
    refine Faultless.checked (.plain ⟨fun b hb => ?_⟩) fun inner b hb => ?_
    · have hlt := hb.grows.lt_size hparent
      exact ⟨hb.enter hparent kind id, hlt, Arena.leads_enter hlt kind⟩
    · obtain ⟨-, hbelow, hleads⟩ := hb
      exact (if_pos hleads.lt_size).trans (if_pos hbelow)
  -- from here on, the scopes to stay above are those with the new one
  refine henter.bind fun inner => .of_states fun b hb => ?_
  obtain ⟨habove, -, hleads⟩ := hb
  exact (h _ inner habove.grows hleads).from_state habove.self

/-- A scope that leads to its target can be left. -/
theorem leave_eq_ok {b : Builder} (hb : b.Above a) (hleads : a.Leads inner scope) :
    b.table.scopes.leave inner scope = .ok () :=
  (hb.ordered.leave_eq_ok_iff (hb.grows.lt_size hleads.lt_size)).2 (hleads.grows hb.grows)

/-- Where a scope is left, nothing else happens. -/
theorem safe_leave (hgrows : a.Grows a') (hleads : a'.Leads inner scope) :
    Faultless (Above a') (steps.leave inner scope) (direct.leave inner scope)
      fun _ => Above a :=
  .ask (fun _ hb => leave_eq_ok hb hleads) fun _ hb => hb.mono hgrows

/-- The scope that the table has for a `concurrent` after the walk came by lies directly below the
scope of the walk, whatever the table had for its identity before. -/
theorem exit_scopeFor_concurrent (g : Generics) (scope : ScopeId) (node : Node)
    (bindings : List ConcurrentBinding) (b : Builder) :
    let table := ((Build.visitExpr g scope (.concurrent node bindings)).run b).2.table
    table.scopes.exit (table.scopeFor node.id scope) = .ok scope := by
  let before := ((walkBindings direct g scope bindings).run
    ((Build.visit ⟨.expr, node.id, scope⟩).run b).2).2
  let entered := ((Build.enter scope .block node.id).run before).2
  have hrun : ((Build.visitExpr g scope (.concurrent node bindings)).run b).2 =
      ((Build.defineConcurrent ⟨before.table.scopes.size⟩ bindings).run entered).2 := by
    unfold Build.visitExpr walkExpr
    rfl
  have hdefines := (defines_defineConcurrent ⟨before.table.scopes.size⟩ bindings).run
    entered rfl
  have hscope : entered.table.scopeMap.get? node.id = some ⟨before.table.scopes.size⟩ :=
    Table.get?_insert_self _ _ _
  have hparent : entered.table.scopes.enclosing ⟨before.table.scopes.size⟩ =
      scope :: before.table.scopes.enclosing scope :=
    Arena.enclosing_enter_self ..
  simp only [hrun, SymbolTable.scopeFor, hdefines.scopeMap, hscope, Option.getD_some, Arena.exit,
    hdefines.scopes.enclosing, hparent, List.head?_cons]

/-- The walk goes on where the check goes on. -/
theorem walkStmts_expr {m : Type → Type} [Monad m] (w : Build.Steps m) (g : Generics)
    (scope : ScopeId) (node : Node) (value : Expr) (rest : List Stmt) :
    walkStmts w g scope (.expr node value :: rest) =
      (walkExpr w g scope value >>= fun _ => w.plain get >>= fun b =>
        walkStmts w g (Check.scopeAfter b.table scope (.expr node value)) rest) := by
  cases value <;> rfl

/-- The scope in which a block goes on after a statement leads to the scope of the statement. -/
theorem faultless_scopeAfter {g : Generics} {value : Expr} (hscope : scope.index < a.size)
    (node : Node) (hvalue : Safe a (walkExpr steps g scope value) (walkExpr direct g scope value)) :
    Faultless (Above a) (walkExpr steps g scope value) (walkExpr direct g scope value) fun _ b =>
      b.Above a ∧
        b.table.scopes.Leads (Check.scopeAfter b.table scope (.expr node value)) scope := by
  refine ⟨hvalue.run, ⟨fun b hb => ?_⟩⟩
  have hafter := hvalue.meets.run b hb
  refine ⟨hafter, ?_⟩
  cases value with
  | concurrent node' bindings =>
    exact hafter.ordered.leads_of_exit (exit_scopeFor_concurrent g scope node' bindings b)
  | _ => exact .refl (hafter.grows.lt_size hscope)

/-! ## The walk through bodies -/

section Bodies

variable {g : Generics}

mutual

/-- Expressions. -/
theorem walkExpr_safe {a : Arena} {scope : ScopeId} (hscope : scope.index < a.size) (e : Expr) :
    Safe a (walkExpr steps g scope e) (walkExpr direct g scope e) := by
  unfold walkExpr
  refine (safe_visit _).bind fun _ => ?_
  match e with
  | .literal _ _ | .ident _ _ | .breakLoop _ | .continueLoop _ | .ret _ none => exact Safe.pure
  | .binary _ _ left right | .index _ left right | .assign _ left right =>
    exact (walkExpr_safe hscope left).bind fun _ => walkExpr_safe hscope right
  | .unary _ _ e | .fieldAccess _ e _ | .ret _ (some e) | .throw _ e | .await _ e =>
    exact walkExpr_safe hscope e
  | .call _ e args | .methodCall _ e _ _ args =>
    exact (walkExpr_safe hscope e).bind fun _ => walkExprs_safe hscope args
  | .ifElse _ cond thenBranch none =>
    exact (walkExpr_safe hscope cond).bind fun _ =>
      ((walkBlock_safe hscope .block thenBranch).bind fun _ => Safe.pure)
  | .ifElse _ cond thenBranch (some other) =>
    exact (walkExpr_safe hscope cond).bind fun _ =>
      ((walkBlock_safe hscope .block thenBranch).bind fun _ => (walkExpr_safe hscope other))
  | .matchOn _ scrutinee arms =>
    exact (walkExpr_safe hscope scrutinee).bind fun _ => walkArms_safe hscope arms
  | .block _ body | .race _ body => exact walkBlock_safe hscope .block body
  | .lambda node params _ body =>
    refine faultless_enter hscope .lambda node.id fun a' inner hgrows hleads => ?_
    refine (safe_defines hleads.lt_size fun _ => ⟨_, _, defines_defineLambdaParams ..⟩).bind
      fun _ => ?_
    exact (walkBlock_safe hleads.lt_size .block body).bind fun _ => safe_leave hgrows hleads
  | .whileLoop _ cond body =>
    exact (walkExpr_safe hscope cond).bind fun _ => walkBlock_safe hscope .loop body
  | .forLoop node pattern iterable body =>
    refine (walkExpr_safe hscope iterable).bind fun _ => ?_
    refine faultless_enter hscope .loop node.id fun a' inner hgrows hleads => ?_
    refine (safe_defines hleads.lt_size fun _ => ⟨_, _, defines_definePattern ..⟩).bind fun _ => ?_
    exact (walkBlock_safe hleads.lt_size .block body).bind fun _ => safe_leave hgrows hleads
  | .arrayLit _ elements | .tupleLit _ elements => exact walkExprs_safe hscope elements
  | .structLit _ _ fields => exact walkInits_safe hscope fields
  | .tryCatch _ body catches none =>
    exact (walkBlock_safe hscope .block body).bind fun _ =>
      (walkCatches_safe hscope catches).bind fun _ => Safe.pure
  | .tryCatch _ body catches (some cleanup) =>
    exact (walkBlock_safe hscope .block body).bind fun _ =>
      ((walkCatches_safe hscope catches).bind fun _ => (walkBlock_safe hscope .block cleanup))
  | .concurrent node bindings =>
    refine (walkBindings_safe hscope bindings).bind fun _ => ?_
    refine faultless_enter hscope .block node.id fun a' inner hgrows hleads => ?_
    exact (safe_defines hleads.lt_size fun _ => ⟨_, _, defines_defineConcurrent ..⟩).mono
      (fun _ h => h) fun _ _ h => h.mono hgrows
  | .timeout _ duration body =>
    exact (walkExpr_safe hscope duration).bind fun _ => walkBlock_safe hscope .block body

/-- Several expressions. -/
theorem walkExprs_safe {a : Arena} {scope : ScopeId} (hscope : scope.index < a.size)
    (es : List Expr) : Safe a (walkExprs steps g scope es) (walkExprs direct g scope es) := by
  match es with
  | [] => exact Safe.pure
  | e :: es => exact (walkExpr_safe hscope e).bind fun _ => walkExprs_safe hscope es

/-- Initializers. -/
theorem walkInits_safe {a : Arena} {scope : ScopeId} (hscope : scope.index < a.size)
    (fields : List FieldInit) :
    Safe a (walkInits steps g scope fields) (walkInits direct g scope fields) := by
  match fields with
  | [] => exact Safe.pure
  | ⟨_, _, value⟩ :: fields =>
    exact (walkExpr_safe hscope value).bind fun _ => walkInits_safe hscope fields

/-- Concurrent bindings. -/
theorem walkBindings_safe {a : Arena} {scope : ScopeId} (hscope : scope.index < a.size)
    (bs : List ConcurrentBinding) :
    Safe a (walkBindings steps g scope bs) (walkBindings direct g scope bs) := by
  match bs with
  | [] => exact Safe.pure
  | ⟨_, _, value⟩ :: bs =>
    exact (walkExpr_safe hscope value).bind fun _ => walkBindings_safe hscope bs

/-- Match arms. -/
theorem walkArms_safe {a : Arena} {scope : ScopeId} (hscope : scope.index < a.size)
    (arms : List MatchArm) :
    Safe a (walkArms steps g scope arms) (walkArms direct g scope arms) := by
  match arms with
  | [] => exact Safe.pure
  | ⟨node, pattern, none, body⟩ :: arms =>
    refine faultless_enter hscope .matchArm node.id fun a' inner hgrows hleads => ?_
    refine (safe_defines hleads.lt_size fun _ => ⟨_, _, defines_definePattern ..⟩).bind fun _ => ?_
    exact (walkExpr_safe hleads.lt_size body).bind fun _ =>
      (safe_leave hgrows hleads).bind fun _ => walkArms_safe hscope arms
  | ⟨node, pattern, some guard, body⟩ :: arms =>
    refine faultless_enter hscope .matchArm node.id fun a' inner hgrows hleads => ?_
    refine (safe_defines hleads.lt_size fun _ => ⟨_, _, defines_definePattern ..⟩).bind fun _ => ?_
    exact (walkExpr_safe hleads.lt_size guard).bind fun _ =>
      (walkExpr_safe hleads.lt_size body).bind fun _ =>
        (safe_leave hgrows hleads).bind fun _ => walkArms_safe hscope arms

/-- Handlers. -/
theorem walkCatches_safe {a : Arena} {scope : ScopeId} (hscope : scope.index < a.size)
    (catches : List CatchClause) :
    Safe a (walkCatches steps g scope catches) (walkCatches direct g scope catches) := by
  match catches with
  | [] => exact Safe.pure
  | ⟨node, name, ty, body⟩ :: catches =>
    refine faultless_enter hscope .catchClause node.id fun a' inner hgrows hleads => ?_
    refine (safe_defines hleads.lt_size fun _ => ⟨_, _, defines_defineException ..⟩).bind fun _ => ?_
    exact (walkBlock_safe hleads.lt_size .block body).bind fun _ =>
      (safe_leave hgrows hleads).bind fun _ => walkCatches_safe hscope catches

/-- Blocks. -/
theorem walkBlock_safe {a : Arena} {parent : ScopeId} (hparent : parent.index < a.size)
    (kind : ScopeKind) (b : Block) :
    Safe a (walkBlock steps g parent kind b) (walkBlock direct g parent kind b) := by
  unfold walkBlock
  refine (safe_visit _).bind fun _ => ?_
  match b with
  | ⟨node, stmts, result⟩ =>
    refine faultless_enter hparent kind node.id fun a' scope hgrows hleads => ?_
    refine (walkStmts_faultless hleads.lt_size stmts).bind fun last => .of_states fun b hb => ?_
    obtain ⟨habove, hlast⟩ := hb
    -- the block is left from the scope of its last statement, by way of its own scope
    have hgrows' := hgrows.trans habove.grows
    have hleave := hlast.trans (hleads.grows habove.grows)
    refine Faultless.from_state ?_ habove.self
    match result with
    | none => exact Safe.pure.bind fun _ => safe_leave hgrows' hleave
    | some e => exact (walkExpr_safe hlast.lt_size e).bind fun _ => safe_leave hgrows' hleave

/-- The scope after some statements leads to the scope before them. -/
theorem walkStmts_faultless {a : Arena} {scope : ScopeId} (hscope : scope.index < a.size)
    (stmts : List Stmt) :
    Faultless (Above a) (walkStmts steps g scope stmts) (walkStmts direct g scope stmts)
      fun last b => b.Above a ∧ b.table.scopes.Leads last scope := by
  match stmts with
  | [] => exact .pure fun b hb => ⟨hb, .refl (hb.grows.lt_size hscope)⟩
  | .letBind node pattern ty isMutable value :: rest =>
    refine (walkExpr_safe hscope value).bind fun _ => ?_
    refine faultless_enter hscope .block node.id fun a' inner hgrows hleads => ?_
    refine (safe_defines hleads.lt_size fun _ => ⟨_, _, defines_defineLet ..⟩).bind fun _ => ?_
    refine (walkStmts_faultless hleads.lt_size rest).mono (fun _ h => h) fun last b hb => ?_
    exact ⟨hb.1.mono hgrows, hb.2.trans (hleads.grows hb.1.grows)⟩
  | .expr node value :: rest =>
    rw [walkStmts_expr, walkStmts_expr]
    refine (faultless_scopeAfter hscope node (walkExpr_safe hscope value)).bind fun _ => ?_
    refine .look fun b hb => ?_
    obtain ⟨habove, hleads⟩ := hb
    refine Faultless.from_state ?_ habove.self
    refine (walkStmts_faultless hleads.lt_size rest).mono (fun _ h => h) fun last c hc => ?_
    exact ⟨hc.1.mono habove.grows, hc.2.trans (hleads.grows hc.1.grows)⟩

end

/-! ## Declarations -/

/-- Functions. -/
theorem walkFunction_safe (hparent : parent.index < a.size) (self : Option Ty)
    (f : FunctionDecl) :
    Safe a (walkFunction steps g parent self f) (walkFunction direct g parent self f) := by
  refine faultless_enter hparent _ f.node.id fun a' scope hgrows hleads => ?_
  have hbody (types : List Ty) : Faultless (Above a')
      (steps.inScope scope (Build.defineParams scope f.node.span f.params types) >>= fun _ =>
        walkBlock steps (g.extend f.typeParams) scope .block f.body >>= fun _ =>
          steps.leave scope parent)
      (Build.defineParams scope f.node.span f.params types >>= fun _ =>
        walkBlock direct (g.extend f.typeParams) scope .block f.body >>= fun _ =>
          direct.leave scope parent) fun _ => Above a := by
    refine (safe_defines hleads.lt_size fun _ => ⟨_, _, defines_defineParams ..⟩).bind fun _ => ?_
    exact (walkBlock_safe hleads.lt_size .block f.body).bind fun _ => safe_leave hgrows hleads
  cases self with
  | none => exact Faultless.look fun b hb => (hbody _).from_state hb
  | some t =>
    refine (safe_defines hleads.lt_size fun _ => ⟨_, _, defines_defineSelf ..⟩).bind fun _ => ?_
    exact Faultless.look fun b hb => (hbody _).from_state hb

/-- Methods. -/
theorem walkMethods_safe (hparent : parent.index < a.size) (self : Ty) (fs : List FunctionDecl) :
    Safe a (walkMethods steps g parent self fs) (walkMethods direct g parent self fs) := by
  induction fs with
  | nil => exact Safe.pure
  | cons f fs ih => exact (walkFunction_safe hparent (some self) f).bind fun _ => ih

/-- Fields. -/
theorem walkInitializers_safe (hscope : scope.index < a.size) (fields : List FieldDecl) :
    Safe a (walkInitializers steps g scope fields) (walkInitializers direct g scope fields) := by
  induction fields with
  | nil => exact Safe.pure
  | cons f fs ih =>
    unfold walkInitializers
    cases f.initializer with
    | none => exact ih
    | some e => exact (walkExpr_safe hscope e).bind fun _ => ih

end Bodies

section Declarations

variable (hglobal : ScopeId.global.index < a.size)

include hglobal

/-- Classes. -/
theorem walkClass_safe (c : ClassDecl) : Safe a (walkClass steps c) (walkClass direct c) := by
  refine .look fun b hb => Faultless.from_state ?_ hb
  refine faultless_enter hglobal .classBody c.node.id fun a' scope hgrows hleads => ?_
  refine (safe_defines hleads.lt_size fun _ => ⟨_, _, defines_defineFields ..⟩).bind fun _ => ?_
  refine (safe_defines hleads.lt_size fun _ => ⟨_, _, defines_defineMethods ..⟩).bind fun _ => ?_
  refine (walkInitializers_safe hleads.lt_size c.fields).bind fun _ => ?_
  exact (walkMethods_safe hleads.lt_size _ c.methods).bind fun _ => safe_leave hgrows hleads

/-- Structs. -/
theorem walkStruct_safe (s : StructDecl) : Safe a (walkStruct steps s) (walkStruct direct s) :=
  .look fun _ hb => (walkInitializers_safe hglobal s.fields).from_state hb

/-- Implementations. -/
theorem walkImpl_safe (i : ImplDecl) : Safe a (walkImpl steps i) (walkImpl direct i) :=
  .look fun _ hb => (walkMethods_safe hglobal _ i.methods).from_state hb

/-- Scripts. -/
theorem walkScript_safe (s : Stmt) : Safe a (walkScript steps s) (walkScript direct s) := by
  cases s with
  | letBind node pattern ty isMutable value =>
    refine (walkExpr_safe hglobal value).bind fun _ => ?_
    refine (safe_inScope hglobal ?_).bind fun _ =>
      safe_defines hglobal fun _ => ⟨_, _, defines_defineLet ..⟩
    exact .modify fun b hb => { hb with rooted := Builder.rooted_remember hb.rooted node.id }
  | expr _ value => exact walkExpr_safe hglobal value

/-- Declarations. -/
theorem walkDecl_safe (d : Decl) : Safe a (walkDecl steps d) (walkDecl direct d) := by
  cases d with
  | function f => exact walkFunction_safe hglobal none f
  | classLike c => exact walkClass_safe hglobal c
  | struct s | spark s => exact walkStruct_safe hglobal s
  | data _ | trait _ | interface _ => exact Safe.pure
  | impl i => exact walkImpl_safe hglobal i
  | script s => exact walkScript_safe hglobal s

end Declarations

/-- Units. -/
theorem unit_safe (intrinsics : List (String × TypeExpr)) (u : SourceUnit) :
    Safe {} (unit intrinsics u) (Build.unit intrinsics u) := by
  have hglobal : ScopeId.global.index < ({} : Arena).size := Nat.one_pos
  rw [Build.unit_eq]
  refine (safe_inScope hglobal ⟨fun b hb => ?_⟩).bind fun _ =>
    .forM fun d _ => walkDecl_safe hglobal d
  have hdeclares := (Build.declare_declares intrinsics u).run b hb.ordered.global_lt
  exact
    { ordered := hb.ordered.defines hdeclares.scopes
      rooted := hb.rooted.of_sameScopes ⟨hdeclares.scopeMap, hdeclares.scopes.size⟩
      grows := hb.grows.trans hdeclares.scopes.extends.grows }

/-- The guarded construction of a unit raises no fault and builds what the construction builds, with
scopes in order and remembered scopes that are there. -/
theorem ofUnit_faultless (intrinsics : List (String × TypeExpr)) (u : SourceUnit) :
    (unit intrinsics u).run {} = .ok ((), Builder.ofUnit intrinsics u) ∧
      (Builder.ofUnit intrinsics u).Above {} := by
  have hempty : Above {} {} := ⟨Arena.ordered_empty, Builder.rooted_empty, .refl _⟩
  refine ⟨((unit_safe intrinsics u).run {} hempty).trans (congrArg _ ?_),
    (unit_safe intrinsics u).meets.run {} hempty⟩
  unfold Builder.ofUnit
  generalize (Build.unit intrinsics u).run {} = built
  rfl

end GuardedBuild

end UnitAnalysis

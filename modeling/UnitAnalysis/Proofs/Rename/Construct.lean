import UnitAnalysis.Proofs.Rename.Declare
import UnitAnalysis.Proofs.Symbols.Route

/-!
# Scopes of bodies do not depend on identities

The bodies of a unit with renamed nodes get the same scopes with the same names in them. Only the
table that remembers which node opened which scope has other keys.
-/

set_option autoImplicit false

namespace UnitAnalysis

open Function (Injective)

variable {f : NodeId → NodeId}

/-! ## Routes -/

/-- A construct with all its nodes renamed. -/
def Binder.rename (f : NodeId → NodeId) : Binder → Binder
  | letBind node pattern ty isMutable => letBind (node.rename f) (pattern.rename f) ty isMutable
  | arm node pattern => arm (node.rename f) (pattern.rename f)
  | lambda node params isAsync =>
    lambda (node.rename f) (params.map (LambdaParam.rename f)) isAsync
  | forLoop node pattern => forLoop (node.rename f) (pattern.rename f)
  | catchClause node name ty => catchClause (node.rename f) name ty
  | concurrent node bindings => concurrent (node.rename f) (ConcurrentBinding.renameAll f bindings)

/-- A renamed construct has the renamed identity. -/
theorem Binder.id_rename (b : Binder) : (b.rename f).opening.id = f b.opening.id := by
  cases b <;> rfl

/-- A renamed construct opens a scope of the same kind. -/
theorem Binder.kind_rename (b : Binder) : (b.rename f).opening.kind = b.opening.kind := by
  cases b <;> rfl

namespace Route

/-- A route with all its nodes renamed. -/
def rename (f : NodeId → NodeId) : Route → Route
  | done => done
  | expr isSkipped e rest => expr isSkipped (e.rename f) (rest.rename f)
  | block kind b rest => block kind (b.rename f) (rest.rename f)
  | opening b inner rest => opening (b.rename f) (inner.rename f) (rest.rename f)
  | stmt node value rest => stmt (node.rename f) (value.rename f) (rest.rename f)

/-- Expressions on a renamed route. -/
theorem rename_exprs (es : List Expr) (rest : Route) :
    (exprs es rest).rename f = exprs (Expr.renameAll f es) (rest.rename f) := by
  induction es with
  | nil => rfl
  | cons e es ih => simp_all [exprs, rename, Expr.renameAll]

/-- Match arms on a renamed route. -/
theorem rename_arms (l : List MatchArm) : (arms l).rename f = arms (MatchArm.renameAll f l) := by
  unfold arms
  induction l with
  | nil => rfl
  | cons arm l ih =>
    obtain ⟨node, pattern, guard, body⟩ := arm
    cases guard <;>
      simp [rename, rename_exprs, Expr.renameAll, MatchArm.renameAll, Binder.rename, ih]

/-- Handlers on a renamed route. -/
theorem rename_catches (l : List CatchClause) (rest : Route) :
    (catches l rest).rename f = catches (CatchClause.renameAll f l) (rest.rename f) := by
  unfold catches
  induction l with
  | nil => rfl
  | cons c l ih =>
    obtain ⟨node, name, ty, body⟩ := c
    simp [rename, CatchClause.renameAll, Binder.rename, ih]

/-- Statements on a renamed route. -/
theorem rename_stmts (l : List Stmt) (rest : Route) :
    (stmts l rest).rename f = stmts (Stmt.renameAll f l) (rest.rename f) := by
  induction l with
  | nil => rfl
  | cons s l ih => cases s <;> simp [stmts, rename, Stmt.renameAll, Binder.rename, ih]

end Route

/-- The renamed values of a struct literal. -/
theorem FieldInit.map_value_renameAll (fields : List FieldInit) :
    (FieldInit.renameAll f fields).map FieldInit.value =
      Expr.renameAll f (fields.map FieldInit.value) := by
  induction fields with
  | nil => rfl
  | cons field fields ih =>
    cases field
    simp [FieldInit.renameAll, Expr.renameAll, ih]

/-- The renamed values of a `concurrent` block. -/
theorem ConcurrentBinding.map_value_renameAll (bindings : List ConcurrentBinding) :
    (ConcurrentBinding.renameAll f bindings).map ConcurrentBinding.value =
      Expr.renameAll f (bindings.map ConcurrentBinding.value) := by
  induction bindings with
  | nil => rfl
  | cons b bindings ih =>
    cases b
    simp [ConcurrentBinding.renameAll, Expr.renameAll, ih]

/-- The route through a renamed block. -/
theorem Block.route_rename (b : Block) : (b.rename f).route = b.route.rename f := by
  obtain ⟨node, stmts, result⟩ := b
  cases result <;> simp [Block.route, Block.rename, Route.rename_stmts, Route.rename_exprs,
    Expr.renameAll, Route.rename]

/-- Renaming does not make a target. -/
theorem Expr.isTarget_rename (e : Expr) : (e.rename f).isTarget = e.isTarget := by
  cases e with
  | ifElse _ _ _ other => cases other <;> rfl
  | ret _ value => cases value <;> rfl
  | tryCatch _ _ _ cleanup => cases cleanup <;> rfl
  | _ => rfl

/-- The route through a renamed expression. -/
theorem Expr.route_rename (e : Expr) : (e.rename f).route = e.route.rename f := by
  cases e with
  | ifElse _ _ _ other =>
    cases other <;> simp [rename, route, Route.rename, Route.rename_exprs, renameAll]
  | ret _ value => cases value <;> simp [rename, route, Route.rename, Route.rename_exprs, renameAll]
  | tryCatch _ _ _ cleanup =>
    cases cleanup <;> simp [rename, route, Route.rename, Route.rename_catches]
  | _ =>
    simp [rename, route, Route.rename, Route.rename_exprs, renameAll, Route.rename_arms,
      Binder.rename, FieldInit.map_value_renameAll, ConcurrentBinding.map_value_renameAll,
      isTarget_rename]

/-! ## Patterns -/

/-- A step reports nothing but what a construction can report. -/
def BindStep.IsPlain : BindStep → Prop
  | bind _ _ _ => True
  | annotate _ _ => True
  | report finding => finding.code ∈ Build.codes

/-- Patterns report only what a construction can report. -/
theorem Pattern.isPlain_of_steps {ix : DeclIndex} {g : Generics} {declared : Option Ty}
    (p : Pattern) {step : BindStep} (h : step ∈ p.steps ix g declared) : step.IsPlain := by
  cases p.possible_steps ix g declared step h with
  | unresolved ty hf => exact ((reports_resolve ix g ty).mono (by decide)).code_mem _ hf
  | oneSided name span => simp [BindStep.IsPlain, Build.codes]
  | whole name node | part name node | typed name node ty | annotate ty hid => trivial

namespace Build

variable (hf : Injective f)

include hf

/-- The steps of a pattern. -/
theorem runSteps_lockstep (scope : ScopeId) (isMutable : Bool) (site : Span) (seen : List String)
    (steps : List BindStep) (h : ∀ step ∈ steps, step.IsPlain) :
    Lockstep f id (runSteps scope isMutable site seen steps)
      (runSteps scope isMutable site seen (steps.map (BindStep.rename f))) := by
  induction steps generalizing seen with
  | nil => exact .pure rfl
  | cons step rest ih =>
    have hrest := fun seen => ih seen fun s hs => h s (List.mem_cons_of_mem _ hs)
    cases step with
    | report finding =>
      have hcode : Reports codes [finding] := .one (h _ List.mem_cons_self)
      exact (Lockstep.report hcode).bind fun _ => hrest seen
    | annotate id t => exact (Lockstep.annotate hf ⟨id, {}⟩ t).bind fun _ => hrest seen
    | bind name node declared =>
      have hcode : Reports codes [⟨.duplicateBinding name, node.span⟩] :=
        .one (by simp [codes])
      exact .ite ((Lockstep.report hcode).bind fun _ => hrest seen)
        ((Lockstep.define scope _ site).bind fun _ => hrest (name :: seen))

/-- The names of a pattern. -/
theorem definePattern_lockstep (g : Generics) (scope : ScopeId) (isMutable : Bool)
    (declared : Option Ty) (site : Span) (p : Pattern) :
    Lockstep f id (definePattern g scope isMutable declared site p)
      (definePattern g scope isMutable declared site (p.rename f)) := by
  refine (Lockstep.visitAll _ _).bind fun _ => .look fun b b' hb => ?_
  rw [hb.decls.steps]
  exact runSteps_lockstep hf scope isMutable site [] _ fun _ => Pattern.isPlain_of_steps p

/-- The names of a `let`. -/
theorem defineLet_lockstep (g : Generics) (scope : ScopeId) (node : Node) (p : Pattern)
    (ty : Option TypeExpr) (isMutable : Bool) :
    Lockstep f id (defineLet g scope node p ty isMutable)
      (defineLet g scope (node.rename f) (p.rename f) ty isMutable) := by
  refine (Lockstep.resolveOption g ty).bind fun declared => ?_
  cases declared with
  | none => exact definePattern_lockstep hf g scope isMutable none node.span p
  | some t =>
    exact (Lockstep.annotate hf node t).bind fun _ =>
      definePattern_lockstep hf g scope isMutable (some t) node.span p

/-! ## Names of other constructs -/

/-- The parameters of a lambda. -/
theorem defineLambdaParams_lockstep (g : Generics) (scope : ScopeId) (site : Span)
    (ps : List LambdaParam) :
    Lockstep f id (defineLambdaParams g scope site ps)
      (defineLambdaParams g scope site (ps.map (LambdaParam.rename f))) := by
  induction ps with
  | nil => exact .pure rfl
  | cons p ps ih =>
    refine (Lockstep.resolveOption g p.ty).bind fun declared => ?_
    cases declared with
    | none => exact (Lockstep.define scope _ site).bind fun _ => ih
    | some t =>
      exact (Lockstep.annotate hf p.node t).bind fun _ =>
        (Lockstep.define scope _ site).bind fun _ => ih

/-- The name of a handler. -/
theorem defineException_lockstep (g : Generics) (scope : ScopeId) (node : Node) (name : String)
    (ty : Option TypeExpr) :
    Lockstep f id (defineException g scope node name ty)
      (defineException g scope (node.rename f) name ty) :=
  (Lockstep.resolveOption g ty).bind fun _ => (Lockstep.annotate hf node _).bind fun _ =>
    (Lockstep.define scope _ node.span).bind fun _ => .pure rfl

omit hf in
/-- The names of a `concurrent` block. -/
theorem defineConcurrent_lockstep (scope : ScopeId) (bs : List ConcurrentBinding) :
    Lockstep f id (defineConcurrent scope bs)
      (defineConcurrent scope (ConcurrentBinding.renameAll f bs)) := by
  induction bs with
  | nil => exact .pure rfl
  | cons b bs ih =>
    obtain ⟨node, name, value⟩ := b
    exact (Lockstep.tryDefine scope _).bind fun _ => ih

omit hf

/-! ## Bodies -/

/-- The names of a construct in a body. -/
theorem bindNames_lockstep (hf : Injective f) (g : Generics) (scope : ScopeId) (b : Binder) :
    Lockstep f id (bindNames g scope b) (bindNames g scope (b.rename f)) := by
  cases b with
  | letBind node pattern ty isMutable =>
    exact defineLet_lockstep hf g scope node pattern ty isMutable
  | arm node pattern | forLoop node pattern =>
    exact definePattern_lockstep hf g scope false none node.span pattern
  | lambda node params _ => exact defineLambdaParams_lockstep hf g scope node.span params
  | catchClause node name ty => exact defineException_lockstep hf g scope node name ty
  | concurrent node bindings => exact defineConcurrent_lockstep scope bindings

/-- The scope after a statement is the same. -/
theorem after_rename (hf : Injective f) (table : SymbolTable) (scope : ScopeId) (node : Node)
    (value : Expr) :
    (scopeRules (table.rename f)).after scope (.expr (node.rename f) (value.rename f)) =
      (scopeRules table).after scope (.expr node value) := by
  cases value with
  | concurrent node bindings => exact table.scopeFor_rename hf node.id scope
  | ifElse _ _ _ other => cases other <;> rfl
  | ret _ result => cases result <;> rfl
  | tryCatch _ _ _ cleanup => cases cleanup <;> rfl
  | _ => rfl

/-- A walk along a renamed route opens the same scopes. -/
theorem route_lockstep (hf : Injective f) : Route.Induction
    (fun e => ∀ g scope, Lockstep f id (visitExpr g scope e) (visitExpr g scope (e.rename f)))
    (fun b => ∀ g scope kind,
      Lockstep f id (visitBlock g scope kind b) (visitBlock g scope kind (b.rename f)))
    (fun r => ∀ g scope, Lockstep f id (visitRoute g scope r) (visitRoute g scope (r.rename f))) where
  ofExpr e hroute g scope := by
    rw [visitExpr_eq, visitExpr_eq, e.route_rename]
    exact (Lockstep.visit _ _).bind fun _ => hroute g scope
  ofBlock b hroute g scope kind := by
    rw [visitBlock_eq, visitBlock_eq, b.route_rename, b.id_rename]
    exact (Lockstep.visit _ _).bind fun _ => (Lockstep.enter hf scope kind ⟨b.id, {}⟩).bind
      fun inner => hroute g inner
  done _ _ := .pure rfl
  expr _ e rest he hrest g scope := (he g scope).bind fun _ => hrest g scope
  block kind b rest hb hrest g scope := (hb g scope kind).bind fun _ => hrest g scope
  opening b inner rest hinner hrest g scope := by
    rw [Route.rename, visitRoute, visitRoute, b.kind_rename, b.id_rename]
    exact (Lockstep.enter hf scope b.opening.kind ⟨b.opening.id, {}⟩).bind fun inside =>
      (bindNames_lockstep hf g inside b).bind fun _ => (hinner g inside).bind fun _ =>
        hrest g scope
  stmt node value rest hvalue hrest g scope := by
    refine (hvalue g scope).bind fun _ => .look fun b b' hb => ?_
    rw [hb.table, after_rename hf]
    exact hrest g _

/-- The walk through an expression. -/
theorem visitExpr_lockstep (hf : Injective f) (g : Generics) (scope : ScopeId) (e : Expr) :
    Lockstep f id (visitExpr g scope e) (visitExpr g scope (e.rename f)) :=
  (route_lockstep hf).toExpr e g scope

/-- The walk through a block. -/
theorem visitBlock_lockstep (hf : Injective f) (g : Generics) (scope : ScopeId) (kind : ScopeKind)
    (b : Block) : Lockstep f id (visitBlock g scope kind b) (visitBlock g scope kind (b.rename f)) :=
  (route_lockstep hf).toBlock b g scope kind

/-! ## Declarations -/

section

variable (hf : Injective f)

include hf

variable (scope : ScopeId)

/-- The parameters of a function. -/
theorem defineParams_lockstep (site : Span) (ps : List Param) (types : List Ty) :
    Lockstep f id (defineParams scope site ps types)
      (defineParams scope site (ps.map (Param.rename f)) types) := by
  induction ps generalizing types with
  | nil => exact .pure rfl
  | cons p ps ih =>
    exact (Lockstep.annotate hf p.node _).bind fun _ =>
      (Lockstep.define scope _ site).bind fun _ => ih types.tail

omit hf in
/-- The receiver of a method. -/
theorem defineSelf_lockstep (node : Node) (t : Ty) :
    Lockstep f id (defineSelf scope node t) (defineSelf scope (node.rename f) t) :=
  (Lockstep.define scope _ node.span).bind fun _ => .pure rfl

/-- The walk through a function. -/
theorem visitFunction_lockstep (g : Generics) (parent : ScopeId) (self : Option Ty)
    (d : FunctionDecl) :
    Lockstep f id (visitFunction g parent self d) (visitFunction g parent self (d.rename f)) := by
  refine (Lockstep.enter hf parent _ d.node).bind fun scope => ?_
  have hbody : Lockstep f id (insideFunction g none d scope)
      (insideFunction g none (d.rename f) scope) := by
    refine .look fun b b' hb => ?_
    rw [hb.signature hf d]
    cases b.table.functions.get? d.node.id <;>
      exact (defineParams_lockstep hf scope d.node.span d.params _).bind fun _ =>
        visitBlock_lockstep hf _ scope .block d.body
  cases self with
  | none => exact hbody
  | some t => exact (defineSelf_lockstep scope d.node t).bind fun _ => hbody

/-- The walk through methods. -/
theorem visitMethods_lockstep (g : Generics) (parent : ScopeId) (self : Ty)
    (ds : List FunctionDecl) :
    Lockstep f id (visitMethods g parent self ds)
      (visitMethods g parent self (ds.map (FunctionDecl.rename f))) := by
  induction ds with
  | nil => exact .pure rfl
  | cons d ds ih => exact (visitFunction_lockstep hf g parent (some self) d).bind fun _ => ih

/-- The walk through the first values of fields. -/
theorem visitInitializers_lockstep (g : Generics) (scope : ScopeId) (ds : List FieldDecl) :
    Lockstep f id (visitInitializers g scope ds)
      (visitInitializers g scope (ds.map (FieldDecl.rename f))) := by
  induction ds with
  | nil => exact .pure rfl
  | cons d ds ih =>
    obtain ⟨node, name, ty, isMutable, value⟩ := d
    cases value with
    | none => exact ih
    | some e => exact (visitExpr_lockstep hf g scope e).bind fun _ => ih

/-- The fields in the scope of a class. -/
theorem defineFields_lockstep (ds : List FieldDecl) :
    Lockstep f id (defineFields scope ds)
      (defineFields scope (ds.map (FieldDecl.rename f))) := by
  induction ds with
  | nil => exact .pure rfl
  | cons d ds ih =>
    refine .look fun b b' hb => ?_
    have ht : b'.table.annotations.get? (d.rename f).node.id =
        b.table.annotations.get? d.node.id := by
      rw [hb.table]
      exact b.table.annotation_rename hf d.node.id
    simp only [ht]
    exact (Lockstep.tryDefine scope _).bind fun _ => ih

/-- The methods in the scope of a class. -/
theorem defineMethods_lockstep (ds : List FunctionDecl) :
    Lockstep f id (defineMethods scope ds)
      (defineMethods scope (ds.map (FunctionDecl.rename f))) := by
  induction ds with
  | nil => exact .pure rfl
  | cons d ds ih =>
    refine .look fun b b' hb => ?_
    simp only [hb.signature hf d]
    cases b.table.functions.get? d.node.id <;>
      exact (Lockstep.tryDefine scope _).bind fun _ => ih

/-- The walk through a class. -/
theorem visitClass_lockstep (c : ClassDecl) :
    Lockstep f id (visitClass c) (visitClass (c.rename f)) := by
  refine .look fun b b' hb => ?_
  have hg : typeGenerics b'.table.decls (c.rename f).name (c.rename f).typeParams =
      typeGenerics b.table.decls c.name c.typeParams := hb.decls.typeGenerics ..
  have hself : selfType b'.table.decls (c.rename f).name = selfType b.table.decls c.name :=
    hb.decls.selfType _
  simp only [hg, hself]
  exact (Lockstep.enter hf .global .classBody c.node).bind fun scope =>
    (defineFields_lockstep hf scope c.fields).bind fun _ =>
      (defineMethods_lockstep hf scope c.methods).bind fun _ =>
        (visitInitializers_lockstep hf _ scope c.fields).bind fun _ =>
          visitMethods_lockstep hf _ scope _ c.methods

/-- The walk through a struct. -/
theorem visitStruct_lockstep (d : StructDecl) :
    Lockstep f id (visitStruct d) (visitStruct (d.rename f)) := by
  refine .look fun b b' hb => ?_
  have hg : typeGenerics b'.table.decls (d.rename f).name (d.rename f).typeParams =
      typeGenerics b.table.decls d.name d.typeParams := hb.decls.typeGenerics ..
  simp only [hg]
  exact visitInitializers_lockstep hf _ .global d.fields

/-- The walk through an implementation. -/
theorem visitImpl_lockstep (d : ImplDecl) :
    Lockstep f id (visitImpl d) (visitImpl (d.rename f)) := by
  refine .look fun b b' hb => ?_
  have hfind : b'.impls.find? (fun impl => impl.origin = (d.rename f).node.id) =
      (b.impls.find? fun impl => impl.origin = d.node.id).map (Implementation.rename f) := by
    have horigin : ∀ impl : Implementation, ((impl.rename f).origin = (d.rename f).node.id) =
        (impl.origin = d.node.id) := fun _ => propext hf.eq_iff
    simp only [hb.impls, List.find?_map, Function.comp_def, horigin]
  simp only [hfind]
  cases b.impls.find? fun impl => impl.origin = d.node.id <;>
    exact visitMethods_lockstep hf _ .global _ d.methods

/-- The walk through a statement of the script. -/
theorem visitScript_lockstep (s : Stmt) :
    Lockstep f id (visitScript s) (visitScript (s.rename f)) := by
  cases s with
  | letBind node pattern ty isMutable value =>
    have hglobal : Lockstep f id
        (modifyTable fun table => { table with
          scopeMap := table.scopeMap.insert node.id .global })
        (modifyTable fun table => { table with
          scopeMap := table.scopeMap.insert (node.rename f).id .global }) := by
      refine .modifyTable fun table => ?_
      simp [SymbolTable.rename, Node.rename, Table.mapKeys_insert hf]
    exact (visitExpr_lockstep hf {} .global value).bind fun _ => hglobal.bind fun _ =>
      defineLet_lockstep hf {} .global node pattern ty isMutable
  | expr _ value => exact visitExpr_lockstep hf {} .global value

/-- The walk through a declaration. -/
theorem visitDecl_lockstep (d : Decl) :
    Lockstep f id (visitDecl d) (visitDecl (d.rename f)) := by
  cases d with
  | function d => exact visitFunction_lockstep hf {} .global none d
  | classLike d => exact visitClass_lockstep hf d
  | struct d => exact visitStruct_lockstep hf d
  | spark d => exact visitStruct_lockstep hf d
  | impl d => exact visitImpl_lockstep hf d
  | script s => exact visitScript_lockstep hf s
  | _ => exact .pure rfl

/-- All rounds over a unit. -/
theorem unit_lockstep (intrinsics : List (String × TypeExpr)) (u : SourceUnit) :
    Lockstep f id (unit intrinsics u) (unit intrinsics (u.rename f)) := by
  have hdeclare : Lockstep f id (declare intrinsics u) (declare intrinsics (u.rename f)) :=
    (Lockstep.forM fun d _ => declareType_lockstep d).bind fun _ =>
      (seedIntrinsics_lockstep intrinsics).bind fun _ =>
        .forM fun d _ => declareMembers_lockstep hf d
  rw [unit_eq, unit_eq]
  exact hdeclare.bind fun _ => .forM fun d _ => visitDecl_lockstep hf d

end

end Build

end UnitAnalysis

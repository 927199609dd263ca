import UnitAnalysis.Proofs.Generic.Declare
import UnitAnalysis.Proofs.Order.Names
import UnitAnalysis.Proofs.Symbols.Route

/-!
# Type parameters in the scopes of bodies

The third round opens the scopes of bodies. A scope inside a function gets the type parameters of
the function, and what is bound there is bound with types that have no others.
-/

set_option autoImplicit false

namespace UnitAnalysis

variable {P : Provenance} {places : List (ScopeId × List String)} {params : List String}

/-! ## Patterns -/

/-- The types that a step gives to a name or a node. -/
def BindStep.types : BindStep → List Ty
  | bind _ _ declared => declared.toList
  | annotate _ t => [t]
  | report _ => []

/-- What a pattern binds is in bounds of what it matches. -/
theorem Pattern.within_steps {allowed : List String} {g : Generics} (ix : DeclIndex)
    (hg : g.Within allowed) (p : Pattern) {declared : Option Ty}
    (hdeclared : ∀ t ∈ declared, t.Within allowed) :
    ∀ step ∈ p.steps ix g declared, ∀ t ∈ step.types, t.Within allowed := by
  intro step hstep
  cases p.possible_steps ix g declared step hstep with
  | whole name node => exact fun t ht => hdeclared t (Option.mem_toList.1 ht)
  | typed name node ty | annotate ty hid => exact List.forall_mem_singleton.2 (hg.resolve ix ty)
  | part name node | unresolved ty hf | oneSided name span =>
    exact fun _ ht => (List.not_mem_nil ht).elim

namespace Build

/-- A step inside a scope that it opens. -/
theorem keeps_enter {α : Type} {parent : ScopeId} (hparent : (parent, params) ∈ places)
    {id : NodeId} {inner : List String} (hown : P.own id = inner) (hsub : params ⊆ inner)
    {kind : ScopeKind} {f : ScopeId → Build α}
    (hf : ∀ scope, Keeps P ((scope, inner) :: places) (f scope)) :
    Keeps P places (enter parent kind id >>= f) := by
  subst hown
  refine Meets.bind (meets_enter hparent hsub kind) fun scope => ?_
  exact Meets.mono (hf scope) (fun _ h => h) fun _ _ h => h.mono (List.subset_cons_self _ _)

section Names

variable {scope : ScopeId} (hscope : (scope, params) ∈ places)

include hscope

/-- The steps of a pattern. -/
theorem keeps_runSteps (isMutable : Bool) (site : Span) (seen : List String) (steps : List BindStep)
    (htypes : ∀ step ∈ steps, ∀ t ∈ step.types, t.Within (params ++ P.free))
    {ids : List NodeId} (hids : AnnotatesWithin ids steps) (hown : ∀ id ∈ ids, P.own id = params) :
    Keeps P places (runSteps scope isMutable site seen steps) := by
  induction steps generalizing seen with
  | nil => exact Keeps.pure ()
  | cons step rest ih =>
    obtain ⟨hstep, hrest⟩ := List.forall_mem_cons.1 htypes
    have ih seen := ih seen hrest fun id t ht => hids id t (List.mem_cons_of_mem _ ht)
    cases step with
    | report finding => exact (keeps_report _).bind fun _ => ih seen
    | annotate id t =>
      have ht := hstep t (List.mem_singleton_self t)
      rw [← hown id (hids id t List.mem_cons_self)] at ht
      exact (keeps_annotate ht).bind fun _ => ih seen
    | bind name node declared =>
      unfold runSteps
      split
      · exact (keeps_report _).bind fun _ => ih seen
      · have hty : (declared.getD .any).Within (params ++ P.free) :=
          Ty.Within.getD fun t ht => hstep t (Option.mem_toList.2 ht)
        exact (keeps_define hscope (fun _ => .of_value (by simp) hty) site).bind fun _ =>
          ih (name :: seen)

section Written

variable {g : Generics} (hg : g.Within (params ++ P.free))

include hg

/-- Patterns. -/
theorem keeps_definePattern (isMutable : Bool) {declared : Option Ty}
    (hdeclared : ∀ t ∈ declared, t.Within (params ++ P.free)) (site : Span) {p : Pattern}
    (hown : ∀ id ∈ p.ids, P.own id = params) :
    Keeps P places (definePattern g scope isMutable declared site p) := by
  refine (keeps_visitAll _).bind fun _ => Keeps.look fun b _ => ?_
  exact keeps_runSteps hscope isMutable site [] _ (p.within_steps b.table.decls hg hdeclared)
    (p.annotatesWithin_steps b.table.decls g declared) hown

/-- Bindings of a `let`. -/
theorem keeps_defineLet {node : Node} (hnode : P.own node.id = params) {p : Pattern}
    (hown : ∀ id ∈ p.ids, P.own id = params) (ty : Option TypeExpr) (isMutable : Bool) :
    Keeps P places (defineLet g scope node p ty isMutable) := by
  refine (gives_resolveOption keeps_report hg.resolve ty).bind fun declared hdeclared => ?_
  have hpattern := keeps_definePattern hscope hg isMutable hdeclared node.span hown
  cases declared with
  | none => exact hpattern
  | some t => exact (keeps_annotate (hnode ▸ hdeclared t rfl)).bind fun _ => hpattern

/-- Lambda parameters. -/
theorem keeps_defineLambdaParams (site : Span) {ps : List LambdaParam}
    (hown : ∀ p ∈ ps, P.own p.node.id = params) :
    Keeps P places (defineLambdaParams g scope site ps) := by
  induction ps with
  | nil => exact Keeps.pure ()
  | cons p ps ih =>
    obtain ⟨hp, hrest⟩ := List.forall_mem_cons.1 hown
    refine (gives_resolveOption keeps_report hg.resolve p.ty).bind fun declared hdeclared => ?_
    have hty : (declared.getD .any).Within (params ++ P.free) := Ty.Within.getD hdeclared
    cases declared with
    | none =>
      exact (keeps_define hscope (fun _ => .of_value (by simp) hty) site).bind fun _ => ih hrest
    | some t =>
      refine (keeps_annotate (hp ▸ hty)).bind fun _ => ?_
      exact (keeps_define hscope (fun _ => .of_value (by simp) hty) site).bind fun _ => ih hrest

/-- The name of a caught exception. -/
theorem keeps_defineException {node : Node} (hnode : P.own node.id = params) (name : String)
    (ty : Option TypeExpr) : Keeps P places (defineException g scope node name ty) := by
  refine (gives_resolveOption keeps_report hg.resolve ty).bind fun declared hdeclared => ?_
  have hty : (declared.getD .any).Within (params ++ P.free) := Ty.Within.getD hdeclared
  refine (keeps_annotate (hnode ▸ hty)).bind fun _ => ?_
  exact (keeps_define hscope (fun _ => .of_value (by simp) hty) _).bind fun _ => Keeps.pure ()

end Written

/-- Concurrent bindings. -/
theorem keeps_defineConcurrent (bs : List ConcurrentBinding) :
    Keeps P places (defineConcurrent scope bs) := by
  induction bs with
  | nil => exact Keeps.pure ()
  | cons b bs ih =>
    refine (keeps_tryDefine hscope fun _ => .of_value (by simp) ?_).bind fun _ => ih
    exact Ty.within_prim _

/-- Parameters. -/
theorem keeps_defineParams (site : Span) {ps : List Param}
    (hown : ∀ p ∈ ps, P.own p.node.id = params) {types : List Ty}
    (htypes : ∀ t ∈ types, t.Within (params ++ P.free)) :
    Keeps P places (defineParams scope site ps types) := by
  induction ps generalizing types with
  | nil => exact Keeps.pure ()
  | cons p ps ih =>
    obtain ⟨hp, hrest⟩ := List.forall_mem_cons.1 hown
    have hty : (types.head?.getD .any).Within (params ++ P.free) :=
      Ty.Within.getD fun t ht => htypes t (List.mem_of_mem_head? ht)
    refine (keeps_annotate (hp ▸ hty)).bind fun _ => ?_
    refine (keeps_define hscope (fun _ => .of_value (by simp) hty) _).bind fun _ => ?_
    exact ih hrest fun t ht => htypes t (List.mem_of_mem_tail ht)

end Names

/-! ## Bodies -/

variable {scope : ScopeId}

/-- A construct whose parts lie in a function gives the names of its scope types of the function. -/
theorem keeps_bindNames {g : Generics} (hg : g.Within (params ++ P.free))
    (hscope : (scope, params) ∈ places) {b : Binder}
    (hc : P.Covers params (.opening () b.opening :: b.sites ())) :
    Keeps P places (bindNames g scope b) := by
  have hnode : P.own b.opening.id = params := hc.opening
  cases b with
  | letBind node pattern ty isMutable =>
    exact keeps_defineLet hscope hg hnode hc.tail.head.own ty isMutable
  | arm node pattern | forLoop node pattern =>
    exact keeps_definePattern hscope hg false (by simp) node.span hc.tail.head.own
  | lambda node ps isAsync =>
    exact keeps_defineLambdaParams hscope hg node.span fun p hp =>
      hc.head.own p.node.id (List.mem_cons_of_mem _ (List.mem_map_of_mem hp))
  | catchClause node name ty => exact keeps_defineException hscope hg hnode name ty
  | concurrent node bindings => exact keeps_defineConcurrent hscope bindings

/-- The scope after a statement lies inside the function of the statement. -/
theorem obeys_after {b : Builder} (hb : b.Obeys P places)
    (hscope : (scope, params) ∈ places) (node : Node) {value : Expr}
    (hc : P.Covers params (value.sites blindRules ())) :
    b.Obeys P (((scopeRules b.table).after scope (.expr node value), params) :: places) := by
  cases value with
  | concurrent node' bindings =>
    -- The names of a `concurrent` statement stay visible after it.
    exact hb.scopeFor hscope (hc.expr.own _ List.mem_cons_self)
  | _ => exact hb.mono (List.cons_subset.2 ⟨hscope, List.Subset.refl _⟩)

variable (P) in
/-- The walk through a body, case by case. -/
theorem keeps_route : Route.Induction
    (fun e => ∀ {g params places scope}, g.Within (params ++ P.free) → (scope, params) ∈ places →
      P.Covers params (e.sites blindRules ()) → Keeps P places (visitExpr g scope e))
    (fun b => ∀ {g params places scope} kind, g.Within (params ++ P.free) →
      (scope, params) ∈ places → P.Covers params (b.sites blindRules kind ()) →
      Keeps P places (visitBlock g scope kind b))
    (fun r => ∀ {g params places scope}, g.Within (params ++ P.free) → (scope, params) ∈ places →
      P.Covers params (r.sites blindRules ()) → Keeps P places (visitRoute g scope r)) where
  ofExpr e hroute {g params places scope} hg hscope hc := by
    rw [visitExpr_eq]
    rw [e.sites_eq] at hc
    exact (keeps_visit _).bind fun _ => hroute hg hscope hc.tail
  ofBlock b hroute {g params places scope} kind hg hscope hc := by
    rw [visitBlock_eq]
    rw [b.sites_eq] at hc
    exact (keeps_visit _).bind fun _ => keeps_enter hscope hc.tail.opening (List.Subset.refl _)
      fun inner => hroute hg List.mem_cons_self hc.tail.tail
  done _ _ _ := Keeps.pure ()
  expr isSkipped e rest he hrest {g params places scope} hg hscope hc :=
    (he hg hscope (by cases isSkipped <;> exact hc.left)).bind fun _ => hrest hg hscope hc.right
  block kind b rest hb hrest {g params places scope} hg hscope hc :=
    (hb kind hg hscope hc.left).bind fun _ => hrest hg hscope hc.right
  opening b inner rest hinner hrest {g params places scope} hg hscope hc :=
    keeps_enter hscope hc.left.opening (List.Subset.refl _) fun inside =>
      (keeps_bindNames hg List.mem_cons_self
        (List.forall_mem_cons.2 ⟨hc.left.head, hc.left.tail.left⟩)).bind fun _ =>
          (hinner hg List.mem_cons_self hc.left.tail.right).bind fun _ =>
            hrest hg (List.mem_cons_of_mem _ hscope) hc.right
  stmt node value rest hvalue hrest {g params places scope} hg hscope hc :=
    (hvalue hg hscope hc.left).bind fun _ => Meets.look fun _ hb =>
      (Meets.from_state (hrest hg List.mem_cons_self hc.right)
        (obeys_after hb hscope node hc.left)).mono (fun _ h => h)
          fun _ _ h => h.mono (List.subset_cons_self _ _)

/-- Expressions. -/
theorem keeps_visitExpr {g : Generics} (hg : g.Within (params ++ P.free))
    (hscope : (scope, params) ∈ places) (e : Expr)
    (hc : P.Covers params (e.sites blindRules ())) : Keeps P places (visitExpr g scope e) :=
  (keeps_route P).toExpr e hg hscope hc

/-- Blocks. -/
theorem keeps_visitBlock {g : Generics} (hg : g.Within (params ++ P.free))
    (hscope : (scope, params) ∈ places) (kind : ScopeKind) (b : Block)
    (hc : P.Covers params (b.sites blindRules kind ())) :
    Keeps P places (visitBlock g scope kind b) :=
  (keeps_route P).toBlock b kind hg hscope hc

/-! ## Declarations -/

section Members

variable {g : Generics} {parent : ScopeId} (hg : g.Within P.free)
  (hparent : (parent, []) ∈ places)

include hg hparent

/-- Functions. -/
theorem keeps_visitFunction {self : Option Ty} (hself : ∀ t ∈ self, t.Within P.free)
    {f : FunctionDecl} (hf : P.CoversFunction f) :
    Keeps P places (visitFunction g parent self f) := by
  have hown := hf.own f.node.id List.mem_cons_self
  have hg' : (g.extend f.typeParams).Within (f.paramNames ++ P.free) :=
    (hg.mono (List.subset_append_right _ _)).extend (List.subset_append_left _ _)
  refine keeps_enter hparent hown (List.nil_subset _) fun scope => ?_
  have hrest : Keeps P ((scope, f.paramNames) :: places) (insideFunction g none f scope) := by
    refine Keeps.look fun b hb => Keeps.bind (keeps_defineParams List.mem_cons_self _ ?_ ?_)
      fun _ => keeps_visitBlock hg' List.mem_cons_self .block f.body hf.body
    · intro p hp
      exact hf.own p.node.id
        (List.mem_cons_of_mem _ (List.mem_append_left _ (List.mem_map_of_mem hp)))
    · intro t ht
      split at ht
      · next s hs =>
          obtain ⟨hs', hwithin⟩ := hb.functions hs
          rw [← hown, ← hs']
          exact (Ty.within_function.1 hwithin).1 t ht
      · cases ht
  cases self with
  | none => exact hrest
  | some t =>
    refine Keeps.bind (Keeps.bind (keeps_define List.mem_cons_self (fun _ => .of_free rfl ?_) _)
      fun _ => Keeps.pure ()) fun _ => hrest
    exact hself t rfl

/-- Methods. -/
theorem keeps_visitMethods {self : Ty} (hself : self.Within P.free) {fs : List FunctionDecl}
    (hfs : ∀ f ∈ fs, P.CoversFunction f) : Keeps P places (visitMethods g parent self fs) := by
  induction fs with
  | nil => exact Keeps.pure ()
  | cons f fs ih =>
    obtain ⟨hf, hrest⟩ := List.forall_mem_cons.1 hfs
    exact (keeps_visitFunction hg hparent (by simp [hself]) hf).bind fun _ => ih hrest

/-- Field initializers. -/
theorem keeps_visitInitializers {fs : List FieldDecl} (hfs : ∀ f ∈ fs, P.CoversField f) :
    Keeps P places (visitInitializers g parent fs) := by
  induction fs with
  | nil => exact Keeps.pure ()
  | cons f fs ih =>
    obtain ⟨hf, hrest⟩ := List.forall_mem_cons.1 hfs
    have hg' : g.Within ([] ++ P.free) := hg
    unfold visitInitializers walkInitializers
    cases hvalue : f.initializer with
    | none => exact ih hrest
    | some e => exact (keeps_visitExpr hg' hparent e (hf.value e hvalue).2).bind fun _ => ih hrest

omit hg

/-- Fields. -/
theorem keeps_defineFields {fs : List FieldDecl} (hfs : ∀ f ∈ fs, P.CoversField f) :
    Keeps P places (defineFields parent fs) := by
  induction fs with
  | nil => exact Keeps.pure ()
  | cons f fs ih =>
    obtain ⟨hf, hrest⟩ := List.forall_mem_cons.1 hfs
    refine Keeps.look fun b ⟨_, _, around, htable, _⟩ => ?_
    have hty : ((b.table.annotations.get? f.node.id).getD .any).Within P.free := by
      refine Ty.Within.getD fun t ht => ?_
      have h := htable.annotations f.node.id t ht
      rwa [hf.own] at h
    exact (keeps_tryDefine hparent fun _ => .of_free rfl hty).bind fun _ => ih hrest

/-- Names of methods. -/
theorem keeps_defineMethods {fs : List FunctionDecl} (hfs : ∀ f ∈ fs, P.CoversFunction f) :
    Keeps P places (defineMethods parent fs) := by
  induction fs with
  | nil => exact Keeps.pure ()
  | cons f fs ih =>
    obtain ⟨hf, hrest⟩ := List.forall_mem_cons.1 hfs
    refine Meets.look fun b hb => ?_
    have hown := hf.own f.node.id List.mem_cons_self
    refine Meets.bind (Meets.from_state (meets_tryDefine hparent _) ⟨?_, hb⟩) fun _ => ih hrest
    split
    · next s hs =>
        obtain ⟨hs', hwithin⟩ := hb.functions hs
        exact obeys_function hf (hs'.trans hown) hwithin hs [] rfl rfl rfl rfl
    · exact .of_free rfl (Ty.within_prim _)

end Members

section Unit

variable (hglobal : (ScopeId.global, []) ∈ places)

include hglobal

/-- Classes. -/
theorem keeps_visitClass {c : ClassDecl} (hparams : c.typeParams.map TypeParam.name ⊆ P.free)
    (hown : P.own c.node.id = []) (hfields : ∀ f ∈ c.fields, P.CoversField f)
    (hmethods : ∀ f ∈ c.methods, P.CoversFunction f) : Keeps P places (visitClass c) := by
  refine Keeps.look fun b hb => ?_
  have hix := hb.decls
  have hg := within_typeGenerics hix c.name hparams
  have hself := within_selfType hix c.name
  refine keeps_enter hglobal hown (List.Subset.refl _) fun scope => ?_
  refine (keeps_defineFields List.mem_cons_self hfields).bind fun _ => ?_
  refine (keeps_defineMethods List.mem_cons_self hmethods).bind fun _ => ?_
  refine (keeps_visitInitializers hg List.mem_cons_self hfields).bind fun _ => ?_
  exact keeps_visitMethods hg List.mem_cons_self hself hmethods

/-- Structs. -/
theorem keeps_visitStruct {s : StructDecl} (hparams : s.typeParams.map TypeParam.name ⊆ P.free)
    (hfields : ∀ f ∈ s.fields, P.CoversField f) : Keeps P places (visitStruct s) := by
  refine Keeps.look fun b hb => ?_
  have hg := within_typeGenerics (hb.decls) s.name hparams
  exact keeps_visitInitializers hg hglobal hfields

/-- Implementations. -/
theorem keeps_visitImpl {i : ImplDecl} (hparams : i.typeParams.map TypeParam.name ⊆ P.free)
    (hmethods : ∀ f ∈ i.methods, P.CoversFunction f) : Keeps P places (visitImpl i) := by
  refine Keeps.look fun b hb => ?_
  obtain ⟨-, himpls, -⟩ := hb
  have hg : (Generics.extend {} i.typeParams).Within P.free := Generics.within_empty.extend hparams
  have hwalk : ∀ target : Ty, target.Within P.free → Keeps P places
      (visitMethods ((Generics.extend {} i.typeParams).withAlias "Self" target) .global target
        i.methods) := fun target htarget =>
    keeps_visitMethods (hg.withAlias htarget) hglobal htarget hmethods
  cases hfind : b.impls.find? fun impl : Implementation => impl.origin = i.node.id with
  | none => exact hwalk .any (Ty.within_prim _)
  | some impl => exact hwalk impl.target (himpls impl (List.mem_of_find?_eq_some hfind)).1

/-- Script statements. -/
theorem keeps_visitScript {s : Stmt} (hs : P.CoversScript s) : Keeps P places (visitScript s) := by
  have hg : Generics.Within ([] ++ P.free) {} := Generics.within_empty
  have hown := hs.own
  have hsites := hs.sites
  cases s with
  | letBind node pattern ty isMutable value =>
    refine (keeps_visitExpr hg hglobal value hsites.left).bind fun _ => ?_
    have hremember : Keeps P places (modifyTable fun table =>
        { table with scopeMap := table.scopeMap.insert node.id .global }) := by
      refine keeps_modifyTable (fun t around ht hplaces => ?_) fun _ => rfl
      obtain ⟨hlt, haround⟩ := hplaces _ hglobal
      exact ht.remember hlt (haround.trans hown.symm)
    exact hremember.bind fun _ =>
      keeps_defineLet hglobal hg hown hsites.right.head.own ty isMutable
  | expr node value => exact keeps_visitExpr hg hglobal value hsites

/-- Declarations. -/
theorem keeps_visitDecl {d : Decl} (hd : P.CoversDecl d) : Keeps P places (visitDecl d) := by
  have hparams := hd.typeParams
  have hparts := hd.parts
  cases d with
  | function f => exact keeps_visitFunction Generics.within_empty hglobal (by simp) hparts
  | classLike c => exact keeps_visitClass hglobal hparams hparts.1 hparts.2.1 hparts.2.2
  | struct s | spark s => exact keeps_visitStruct hglobal hparams hparts
  | data _ | trait _ | interface _ => exact Keeps.pure ()
  | impl i => exact keeps_visitImpl hglobal hparams hparts
  | script s => exact keeps_visitScript hglobal hparts

/-- All rounds keep to a provenance that fits the declarations. -/
theorem keeps_unit (intrinsics : List (String × TypeExpr)) {u : SourceUnit}
    (hu : ∀ d ∈ u.decls, P.CoversDecl d) : Keeps P places (unit intrinsics u) := by
  rw [unit_eq]
  refine Keeps.bind ?_ fun _ => Meets.forM fun d hd => keeps_visitDecl hglobal (hu d hd)
  refine Keeps.bind (Meets.forM fun d hd => keeps_declareType hglobal (hu d hd)) fun _ => ?_
  refine Keeps.bind (keeps_seedIntrinsics hglobal intrinsics) fun _ => ?_
  exact Meets.forM fun d hd => keeps_declareMembers hglobal (hu d hd)

end Unit

end Build

/-- The construction begins with a global scope that has no symbols. -/
theorem Builder.obeys_empty (P : Provenance) : Builder.Obeys P [(.global, [])] {} := by
  have hsymbols (i : ScopeId) (name : String) : ({} : Arena).lookupLocal i name = none := by
    obtain ⟨_ | index⟩ := i <;> rfl
  have henclosing (i : ScopeId) : ({} : Arena).enclosing i = [] := by
    obtain ⟨_ | index⟩ := i <;> rfl
  refine ⟨by simp, by simp, fun _ => [], ⟨⟨?_, ?_⟩, ?_, ?_, ?_, ⟨?_, ?_⟩, ?_⟩, ?_⟩
  · exact fun name d hd => by cases hd
  · exact fun name v hv => by cases hv
  · exact fun name ret hret => by cases hret
  · exact fun id s hs => by cases hs
  · exact fun id ty hty => by cases hty
  · exact fun i name s hs => by cases (hsymbols i name).symm.trans hs
  · intro i j hj
    change j ∈ ({} : Arena).enclosing i at hj
    rw [henclosing] at hj
    cases hj
  · exact fun id i hi => by cases hi
  · exact List.forall_mem_singleton.2 ⟨Nat.one_pos, rfl⟩

/-- What is constructed for a unit obeys its provenance. -/
theorem Builder.obeys_ofUnit (intrinsics : List (String × TypeExpr)) {u : SourceUnit}
    (hids : u.ids.Nodup) :
    (Builder.ofUnit intrinsics u).Obeys u.provenance [(.global, [])] :=
  (Build.keeps_unit List.mem_cons_self intrinsics fun _ => SourceUnit.coversDecl hids).run _
    (Builder.obeys_empty _)

end UnitAnalysis

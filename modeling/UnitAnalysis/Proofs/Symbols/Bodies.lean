import UnitAnalysis.Proofs.Symbols.Follow

/-!
# The walk through bodies

The third round of the construction follows the sites of what it walks through: `visitExpr_follows`
and its companions, one for each kind of syntax, say so of every expression, block and list of
statements, and `visitDecl_follows` of a declaration.
-/

set_option autoImplicit false

namespace UnitAnalysis

namespace Build

variable {ix : DeclIndex} {scope : ScopeId} {ids : List NodeId}

/-- The scope after a statement is there. -/
theorem after_inside (node : Node) (value : Expr) {t : SymbolTable} (ht : t.Bounded)
    (hscope : scope.index < t.scopes.size) :
    ((scopeRules t).after scope (.expr node value)).index < t.scopes.size := by
  cases value with
  | concurrent node' bindings =>
    change (t.scopeFor node'.id scope).index < t.scopes.size
    unfold SymbolTable.scopeFor
    cases hid : t.scopeMap.get? node'.id with
    | none => exact hscope
    | some inner => exact ht node'.id inner hid
  | _ => exact hscope

/-- The scope after a statement depends only on the scopes that are remembered for its value. -/
theorem after_eq_of_agree (scope : ScopeId) (node : Node) (value : Expr) {t t' : SymbolTable}
    (h : Agree value.ids t t') :
    (scopeRules t).after scope (.expr node value) =
      (scopeRules t').after scope (.expr node value) := by
  cases value with
  | concurrent node' bindings =>
    change t.scopeFor node'.id scope = t'.scopeFor node'.id scope
    unfold SymbolTable.scopeFor
    rw [h node'.id List.mem_cons_self]
  | _ => rfl

/-- The sites on a route are the same in every scope, but for their places. -/
theorem uniform_route (b : Binder) (r : Route) :
    Builder.Uniform fun inner t => b.sites inner ++ r.sites (scopeRules t) inner :=
  fun _ _ _ => List.rel_append (b.sites_related trivial)
    (Route.related.toRoute r _ _ trivial .all)

/-- The walk through a body, case by case. -/
theorem route_follows : Route.Induction
    (fun e => ∀ g scope, (visitExpr g scope e).Follows ix scope [] e.ids fun t =>
      e.sites (scopeRules t) scope)
    (fun b => ∀ g scope kind, (visitBlock g scope kind b).Follows ix scope [] b.ids fun t =>
      b.sites (scopeRules t) kind scope)
    (fun r => ∀ g scope, (visitRoute g scope r).Follows ix scope [] r.ids fun t =>
      r.sites (scopeRules t) scope) where
  ofExpr e hroute g scope := by
    simp only [visitExpr_eq, e.sites_eq]
    exact ((Follows.visit_expr scope e).bind fun _ => hroute g scope).weaken e.ids_route_subperm
  ofBlock b hroute g scope kind := by
    simp only [visitBlock_eq, b.sites_eq]
    exact ((Follows.visit_block scope b).bind fun _ => .opening (.block kind b)
      (fun inner t => b.route.sites (scopeRules t) inner)
      (fun _ _ _ => Route.related.toRoute b.route _ _ trivial .all)
      fun inner => hroute g inner).weaken b.ids_route_subperm
  done _ _ := .pure _
  expr isSkipped e rest he hrest g scope := by
    cases isSkipped <;> exact (he g scope).bind fun _ => hrest g scope
  block kind b rest hb hrest g scope := (hb g scope kind).bind fun _ => hrest g scope
  opening b inner rest hinner hrest g scope := by
    refine ((Follows.opening b.opening _ (uniform_route b inner) fun inside =>
      .define (b.sites inside) (defines_bindNames g inside b) ?_ fun _ => hinner g inside).bind
        fun _ => hrest g scope).weaken ?_
    · cases b <;> rfl
    · rw [Route.ids_opening]
      exact (((List.sublist_append_right b.partIds inner.ids).cons_cons _).append_right _).subperm
  stmt node value rest hvalue hrest g scope :=
    .next (fun t => (scopeRules t).after scope (.expr node value))
      (fun inner t => rest.sites (scopeRules t) inner)
      (fun _ _ _ => Route.related.toRoute rest _ _ trivial .all) (hvalue g scope)
      (fun _ => after_inside node value) (fun _ _ => after_eq_of_agree scope node value)
      fun inner => hrest g inner

/-- Expressions. -/
theorem visitExpr_follows (g : Generics) (scope : ScopeId) (e : Expr) :
    (visitExpr g scope e).Follows ix scope [] e.ids fun t => e.sites (scopeRules t) scope :=
  route_follows.toExpr e g scope

/-- Blocks. -/
theorem visitBlock_follows (g : Generics) (scope : ScopeId) (kind : ScopeKind) (b : Block) :
    (visitBlock g scope kind b).Follows ix scope [] b.ids fun t =>
      b.sites (scopeRules t) kind scope :=
  route_follows.toBlock b g scope kind

/-! ## Declarations -/

end Build

/-- The names that a statement of the script makes global. -/
def Stmt.globals (patternNames : Pattern → List String) : Stmt → List String
  | letBind _ pattern _ _ _ => patternNames pattern
  | expr _ _ => []

/-- The names that a declaration makes global when its bodies are walked through. -/
def Decl.scriptNames (patternNames : Pattern → List String) : Decl → List String
  | script s => s.globals patternNames
  | _ => []

namespace Build

variable {ix : DeclIndex}

/-- The walk through a function or method follows its sites. -/
theorem visitFunction_follows (g : Generics) (parent : ScopeId) (self : Option Ty)
    (f : FunctionDecl) :
    (visitFunction g parent self f).Follows ix parent [] f.ids fun t =>
      f.sites (scopeRules t) parent self.isSome := by
  have hids : (f.node.id :: f.body.ids).Subperm f.ids :=
    ((List.sublist_append_right _ f.body.ids).cons_cons f.node.id).subperm
  cases self with
  | none =>
    exact (Follows.opening (.function f false)
      (fun inner t => f.body.sites (scopeRules t) .block inner)
      (fun _ _ _ => f.body.sites_related trivial .all) fun inner =>
        .get_bind fun _ => .define [] (defines_defineParams ..) rfl fun _ =>
          visitBlock_follows _ inner .block f.body).weaken hids
  | some self =>
    exact (Follows.opening (.function f true)
      (fun inner t => f.body.sites (scopeRules t) .block inner)
      (fun _ _ _ => f.body.sites_related trivial .all) fun inner =>
        (Follows.of_defines [] (defines_defineSelf ..) rfl).bind fun _ =>
          .get_bind fun _ => .define [] (defines_defineParams ..) rfl fun _ =>
            visitBlock_follows _ inner .block f.body).weaken hids

/-- Methods. -/
theorem visitMethods_follows (g : Generics) (parent : ScopeId) (self : Ty)
    (methods : List FunctionDecl) :
    (visitMethods g parent self methods).Follows ix parent [] (methods.flatMap FunctionDecl.ids)
      fun t => methods.flatMap (FunctionDecl.sites (scopeRules t) parent true) := by
  induction methods with
  | nil => exact .pure _
  | cons f fs ih => exact (visitFunction_follows g parent (some self) f).bind fun _ => ih

/-- Field initializers. -/
theorem visitInitializers_follows (g : Generics) (scope : ScopeId) (fields : List FieldDecl) :
    (visitInitializers g scope fields).Follows ix scope [] (fields.flatMap FieldDecl.ids)
      fun t => fields.flatMap (FieldDecl.sites (scopeRules t) scope) := by
  induction fields with
  | nil => exact .pure _
  | cons f fs ih =>
    obtain ⟨node, name, ty, isMutable, initializer⟩ := f
    cases initializer with
    | none => exact ih.weaken .cons_self
    | some e =>
      exact ((visitExpr_follows g scope e).bind fun _ => ih).weaken .cons_self

/-- Classes. -/
theorem visitClass_follows (c : ClassDecl) :
    (visitClass c).Follows ix .global [] (Decl.ids (.classLike c)) fun t =>
      c.sites (scopeRules t) .global := by
  unfold visitClass
  refine .get_bind fun b => ?_
  exact .opening (.classBody c)
    (fun inner t => c.fields.flatMap (FieldDecl.sites (scopeRules t) inner) ++
      c.methods.flatMap (FunctionDecl.sites (scopeRules t) inner true))
    (fun _ _ _ => List.rel_append
      (forall₂_flatMap c.fields fun f _ => f.sites_related trivial .all)
      (forall₂_flatMap c.methods fun f _ => f.sites_related trivial .all)) fun inner =>
        (Follows.of_defines [] (defines_defineFields inner c.fields) rfl).bind fun _ =>
          .define [] (defines_defineMethods inner c.methods) rfl fun _ =>
            (visitInitializers_follows _ inner c.fields).bind fun _ =>
              visitMethods_follows _ inner _ c.methods

/-- Remembering the global scope. -/
theorem remember_follows (id : NodeId) :
    (modifyTable fun table => { table with scopeMap := table.scopeMap.insert id .global }).Follows
      ix .global [] [id] fun _ => [] := by
  refine ⟨fun b hb => ⟨(Arena.Defines.refl _ _).extends, rfl, rfl, fun other hother => ?_, ?_, rfl,
    fun _ => ⟨rfl, by simp [constructs, openings]⟩, ?_⟩⟩
  · exact Table.get?_insert_of_ne _ (Ne.symm (List.ne_of_not_mem_cons hother)) _
  · exact fun hbounded => Table.forall_get?_insert hb.inside hbounded
  · exact fun _ _ _ => ⟨(List.append_nil _).symm, rfl, by simp [openings]⟩

/-- The walk through a statement of the script follows its sites. Its names become global. -/
theorem visitScript_follows (s : Stmt) :
    (visitScript s).Follows ix .global (s.globals (Pattern.defined ix)) (Stmt.idsAll [s]) fun t =>
      s.scriptSites (scopeRules t) .global := by
  cases s with
  | letBind node pattern ty isMutable value =>
    exact ((visitExpr_follows {} .global value).bind fun _ =>
      (remember_follows node.id).bind fun _ =>
        .of_defines [.pattern .global pattern]
          (defines_bindNames {} .global (.letBind node pattern ty isMutable)) rfl).weaken
      (subperm_of_count_le fun id => by simp [Stmt.idsAll, List.count_cons])
  | expr node value =>
    exact (visitExpr_follows {} .global value).weaken
      ((List.sublist_append_left value.ids []).cons node.id).subperm

/-- Declarations. -/
theorem visitDecl_follows (d : Decl) :
    (visitDecl d).Follows ix .global (d.scriptNames (Pattern.defined ix)) d.ids fun t =>
      d.sites (scopeRules t) .global := by
  cases d with
  | function f => exact visitFunction_follows {} .global none f
  | classLike c => exact visitClass_follows c
  | struct s | spark s =>
    exact (Follows.get_bind fun _ => visitInitializers_follows _ .global s.fields).weaken
      .cons_self
  | data d | trait t | interface t => exact (Follows.pure ()).weaken List.nil_subperm
  | impl i =>
    exact (Follows.get_bind fun _ => visitMethods_follows _ .global _ i.methods).weaken
      .cons_self
  | script s => exact visitScript_follows s

/-- The third round over a unit follows its sites. -/
theorem visitDecls_follows (u : SourceUnit) :
    (u.decls.forM visitDecl).Follows ix .global
      (u.decls.flatMap (Decl.scriptNames (Pattern.defined ix))) (u.decls.flatMap Decl.ids) fun t =>
      u.sites (scopeRules t) .global :=
  .forM u.decls visitDecl_follows

end Build

end UnitAnalysis

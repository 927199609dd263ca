import Mathlib.Data.List.Nodup
import UnitAnalysis.Proofs.Syntax.Identity
import UnitAnalysis.Proofs.Table

/-!
# Where type parameters may occur

Which type parameters may occur in the type of a node can be told from the syntax alone. Inside a
function those are its own. Everywhere they are those that the types, traits and implementations of
the unit declare, because a name of a type stands for the type with its parameters. The type
parameters of a function are put away by every call of it, so they get out only when the function is
named without being called.

A `Provenance` lays this down for the nodes of a unit, and `Provenance.Covers` says that it fits a
list of sites.
-/

set_option autoImplicit false

namespace UnitAnalysis

/-! ## Names that stand for values -/

/-- The name, when an expression is one. -/
def Expr.name? : Expr → Option String
  | ident _ name => some name
  | _ => none

/-- The expressions directly in an expression whose values it uses. A name that is called is not
one of them. -/
def Expr.operands : Expr → List Expr
  | .binary _ _ left right => [left, right]
  | .unary _ _ operand => [operand]
  | .call _ (.ident _ _) args => args
  | .call _ callee args => callee :: args
  | .methodCall _ receiver _ _ args => receiver :: args
  | .fieldAccess _ object _ => [object]
  | .index _ object position => [object, position]
  | .ifElse _ cond _ elseBranch => cond :: elseBranch.toList
  | .matchOn _ scrutinee arms => scrutinee :: arms.flatMap fun arm => arm.body :: arm.guard.toList
  | .whileLoop _ cond _ => [cond]
  | .forLoop _ _ iterable _ => [iterable]
  | .ret _ value => value.toList
  | .assign _ target value => [target, value]
  | .arrayLit _ elements => elements
  | .tupleLit _ elements => elements
  | .structLit _ _ fields => fields.map fun f => f.value
  | .throw _ value => [value]
  | .await _ value => [value]
  | .concurrent _ bindings => bindings.map fun b => b.value
  | .timeout _ duration _ => [duration]
  | .literal _ _ | .ident _ _ | .block _ _ | .lambda _ _ _ _ | .breakLoop _ | .continueLoop _
  | .tryCatch _ _ _ _ | .race _ _ => []

/-- The expression of a statement. -/
def Stmt.value : Stmt → Expr
  | letBind _ _ _ _ value => value
  | expr _ value => value

/-- The expressions directly in a site whose values it uses. -/
def Site.operands {α : Type} : Site α → List Expr
  | expr _ e => e.operands
  | block _ b => b.stmts.map Stmt.value ++ b.result.toList
  | _ => []

/-- The name, when a site shows one. -/
def Site.name? {α : Type} : Site α → Option String
  | expr _ e => e.name?
  | _ => none

namespace Decl

/-- The expressions directly in a declaration. -/
def operands : Decl → List Expr
  | classLike c => c.fields.filterMap FieldDecl.initializer
  | struct s => s.fields.filterMap FieldDecl.initializer
  | spark s => s.fields.filterMap FieldDecl.initializer
  | script s => [s.value]
  | function _ | data _ | trait _ | interface _ | impl _ => []

/-- The type parameters of a type, a trait or an implementation. -/
def typeParams : Decl → List TypeParam
  | classLike c => c.typeParams
  | struct s => s.typeParams
  | spark s => s.typeParams
  | data d => d.typeParams
  | trait t => t.typeParams
  | interface t => t.typeParams
  | impl i => i.typeParams
  | function _ | script _ => []

end Decl

/-- The names of the type parameters of a function. -/
def FunctionDecl.paramNames (f : FunctionDecl) : List String :=
  f.typeParams.map TypeParam.name

/-- The nodes of a function, each with the type parameters of the function. -/
def FunctionDecl.labels (f : FunctionDecl) : List (NodeId × List String) :=
  f.ids.map fun id => (id, f.paramNames)

/-- The nodes of a declaration, each with the type parameters of the function around it. -/
def Decl.labels : Decl → List (NodeId × List String)
  | function f => f.labels
  | classLike c =>
    (c.node.id, []) ::
      ((c.fields.flatMap FieldDecl.ids).map (fun id => (id, [])) ++
        c.methods.flatMap FunctionDecl.labels)
  | impl i => (i.node.id, []) :: i.methods.flatMap FunctionDecl.labels
  | d => d.ids.map fun id => (id, [])

namespace SourceUnit

/-- The names of a unit that stand for values, and not only for what is called. -/
def valueNames (u : SourceUnit) : List String :=
  ((u.sites blindRules ()).flatMap Site.operands ++ u.decls.flatMap Decl.operands).filterMap
    Expr.name?

/-- The type parameters of the function or method around a node. Elsewhere there are none. -/
def paramsAround (u : SourceUnit) (id : NodeId) : List String :=
  (Table.find id (u.decls.flatMap Decl.labels)).getD []

/-- The type parameters that can get everywhere: those of the types, traits and implementations, and
those of the functions and methods whose names stand for values. -/
def freeParams (u : SourceUnit) : List String :=
  u.decls.flatMap (fun d => d.typeParams.map TypeParam.name) ++
    (u.functions.filter fun f => f.name ∈ u.valueNames).flatMap FunctionDecl.paramNames

end SourceUnit

/-! ## Provenance -/

/-- Which type parameters may occur in the types of which nodes. -/
structure Provenance where
  /-- The type parameters that may occur everywhere. -/
  free : List String
  /-- The type parameters that may occur at a node beside these. -/
  own : NodeId → List String
  /-- The names that stand for values. -/
  named : List String
  /-- The names that are only called, as nodes. Their types are those of the functions, and no bounds
  are laid down for them. -/
  callees : List NodeId

/-- The name that a site shows, when it is only called. -/
def Site.callee? {α : Type} (named : List String) (site : Site α) : Option NodeId :=
  match site with
  | expr _ e => if ∃ name ∈ e.name?, name ∉ named then some e.id else none
  | _ => none

/-- Where the type parameters of a unit may occur. -/
def SourceUnit.provenance (u : SourceUnit) : Provenance where
  free := u.freeParams
  own := u.paramsAround
  named := u.valueNames
  callees := (u.sites blindRules ()).filterMap (Site.callee? u.valueNames)

namespace Provenance

/-- A provenance fits a site inside a function with the given type parameters. -/
structure Allows (P : Provenance) (params : List String) (site : Site Unit) : Prop where
  own : ∀ id ∈ site.ids, P.own id = params
  callee : ∀ id ∈ site.nodeIds, id ∈ P.callees → ∃ name ∈ site.name?, name ∉ P.named
  called : ∀ id ∈ site.nodeIds, id ∉ P.callees → ∀ name ∈ site.name?, name ∈ P.named
  operands : ∀ c ∈ site.operands, ∀ name ∈ c.name?, name ∈ P.named

/-- A provenance fits all of some sites. -/
def Covers (P : Provenance) (params : List String) (sites : List (Site Unit)) : Prop :=
  ∀ site ∈ sites, P.Allows params site

/-- An expression is no name, or a name that stands for a value. -/
def Reads (P : Provenance) (e : Expr) : Prop :=
  ∀ name ∈ e.name?, name ∈ P.named

/-- A provenance fits a function. -/
structure CoversFunction (P : Provenance) (f : FunctionDecl) : Prop where
  own : ∀ id ∈ f.ids, P.own id = f.paramNames
  named : f.name ∈ P.named → f.paramNames ⊆ P.free
  body : P.Covers f.paramNames (f.body.sites blindRules .block ())

/-- A provenance fits a field. -/
structure CoversField (P : Provenance) (f : FieldDecl) : Prop where
  own : P.own f.node.id = []
  value : ∀ e ∈ f.initializer, P.Reads e ∧ P.Covers [] (e.sites blindRules ())

/-- A provenance fits a statement of the script. -/
structure CoversScript (P : Provenance) (s : Stmt) : Prop where
  own : P.own s.node.id = []
  value : P.Reads s.value
  sites : P.Covers [] (s.scriptSites blindRules ())

/-- A provenance fits what there is in a declaration. -/
def CoversParts (P : Provenance) : Decl → Prop
  | .function f => P.CoversFunction f
  | .classLike c =>
    P.own c.node.id = [] ∧ (∀ f ∈ c.fields, P.CoversField f) ∧ ∀ f ∈ c.methods, P.CoversFunction f
  | .struct s => ∀ f ∈ s.fields, P.CoversField f
  | .spark s => ∀ f ∈ s.fields, P.CoversField f
  | .impl i => ∀ f ∈ i.methods, P.CoversFunction f
  | .script s => P.CoversScript s
  | .data _ => True
  | .trait _ => True
  | .interface _ => True

/-- A provenance fits a declaration. -/
structure CoversDecl (P : Provenance) (d : Decl) : Prop where
  typeParams : d.typeParams.map TypeParam.name ⊆ P.free
  parts : P.CoversParts d

namespace Covers

variable {P : Provenance} {params : List String} {site : Site Unit} {sites more : List (Site Unit)}

/-- The sites after the first. -/
theorem tail (h : P.Covers params (site :: sites)) : P.Covers params sites :=
  fun s hs => h s (List.mem_cons_of_mem _ hs)

/-- The first sites. -/
theorem left (h : P.Covers params (sites ++ more)) : P.Covers params sites :=
  fun s hs => h s (List.mem_append_left _ hs)

/-- The last sites. -/
theorem right (h : P.Covers params (sites ++ more)) : P.Covers params more :=
  fun s hs => h s (List.mem_append_right _ hs)

/-- The first site. -/
theorem head (h : P.Covers params (site :: sites)) : P.Allows params site :=
  h site List.mem_cons_self

/-- A scope opened there binds the same parameters. -/
theorem opening {o : Opening} (h : P.Covers params (.opening () o :: sites)) :
    P.own o.id = params :=
  h.head.own o.id o.id_mem_ids

/-- An operand is read as the provenance says. -/
theorem operand {e c : Expr} (h : P.Covers params (.expr () e :: sites))
    (hc : c ∈ e.operands := by simp [Expr.operands]) : P.Reads c :=
  h.head.operands c hc

end Covers

/-- The sites of an expression begin with it. -/
theorem Covers.expr {P : Provenance} {params : List String} {e : Expr}
    (h : P.Covers params (e.sites blindRules ())) : P.Allows params (.expr () e) :=
  h _ (by unfold Expr.sites; exact List.mem_cons_self)

/-- The sites of a block begin with it. -/
theorem Covers.block {P : Provenance} {params : List String} {b : Block} {kind : ScopeKind}
    (h : P.Covers params (b.sites blindRules kind ())) : P.Allows params (.block () b) :=
  h _ (by unfold Block.sites; exact List.mem_cons_self)

/-- An expression whose value is used has bounds laid down for it. -/
theorem Reads.not_mem_callees {P : Provenance} {params : List String} {e : Expr} (h : P.Reads e)
    (hallows : P.Allows params (.expr () e)) : e.id ∉ P.callees := by
  intro hmem
  obtain ⟨name, hname, hcalled⟩ := hallows.callee e.id List.mem_cons_self hmem
  exact hcalled (h name hname)

end Provenance

/-! ## The provenance of a unit -/

/-- A function labels each of its ids once. -/
theorem FunctionDecl.map_fst_labels (f : FunctionDecl) : f.labels.map Prod.fst = f.ids := by
  simp [labels, Function.comp_def]

/-- A declaration labels each of its ids once. -/
theorem Decl.map_fst_labels (d : Decl) : d.labels.map Prod.fst = d.ids := by
  cases d with
  | function f => exact f.map_fst_labels
  | classLike c =>
    simp [labels, Decl.ids, List.map_flatMap, FunctionDecl.map_fst_labels, Function.comp_def]
  | impl i => simp [labels, Decl.ids, List.map_flatMap, FunctionDecl.map_fst_labels]
  | _ => simp [labels, Function.comp_def]

namespace SourceUnit

variable {u : SourceUnit}

/-- With distinct ids a label is the answer. -/
theorem paramsAround_of_mem (hids : u.ids.Nodup) {d : Decl} (hd : d ∈ u.decls) {id : NodeId}
    {params : List String} (h : (id, params) ∈ d.labels) : u.paramsAround id = params := by
  have hkeys : ((u.decls.flatMap Decl.labels).map Prod.fst).Nodup := by
    simp only [List.map_flatMap, Decl.map_fst_labels]
    exact (List.nodup_cons.1 hids).2
  unfold paramsAround
  rw [(Table.find_eq_some_iff hkeys).2 (List.mem_flatMap.2 ⟨d, hd, h⟩), Option.getD_some]

/-- Callees are the names that stand for no value. -/
theorem mem_callees {id : NodeId} : id ∈ u.provenance.callees ↔
    ∃ e name, .expr () e ∈ u.sites blindRules () ∧ e.id = id ∧ e.name? = some name ∧
      name ∉ u.valueNames := by
  simp only [provenance, List.mem_filterMap]
  constructor
  · rintro ⟨site, hsite, heq⟩
    cases site with
    | expr place e =>
      simp only [Site.callee?, Option.ite_none_right_eq_some, Option.some.injEq] at heq
      obtain ⟨⟨name, hname, hcalled⟩, hid⟩ := heq
      exact ⟨e, name, hsite, hid, hname, hcalled⟩
    | _ => cases heq
  · rintro ⟨e, name, hsite, hid, hname, hcalled⟩
    exact ⟨_, hsite, by simp [Site.callee?, hname, hcalled, hid]⟩

/-- The provenance of a unit fits each of its sites, as far as names go. -/
theorem allows_of_mem (hids : u.ids.Nodup) {site : Site Unit}
    (hsite : site ∈ u.sites blindRules ()) {params : List String}
    (hown : ∀ id ∈ site.ids, u.paramsAround id = params) : u.provenance.Allows params site where
  own := hown
  callee id hid hmem := by
    obtain ⟨e, name, he, rfl, hname, hcalled⟩ := mem_callees.1 hmem
    obtain rfl := site_unique hids hsite he hid List.mem_cons_self
    exact ⟨name, hname, hcalled⟩
  called id hid hmem name hname := by
    by_contra hcalled
    cases site with
    | expr place e =>
      obtain rfl := List.mem_singleton.1 hid
      exact hmem (mem_callees.2 ⟨e, name, hsite, rfl, hname, hcalled⟩)
    | _ => cases hname
  operands c hc name hname :=
    List.mem_filterMap.2
      ⟨c, List.mem_append_left _ (List.mem_flatMap.2 ⟨site, hsite, hc⟩), hname⟩

/-- Operands are read. -/
theorem reads_of_mem {d : Decl} (hd : d ∈ u.decls) {e : Expr} (he : e ∈ d.operands) :
    u.provenance.Reads e :=
  fun _ hname => List.mem_filterMap.2
    ⟨e, List.mem_append_right _ (List.mem_flatMap.2 ⟨d, hd, he⟩), hname⟩

section Parts

variable (hids : u.ids.Nodup) {d : Decl} (hd : d ∈ u.decls)

include hids hd

/-- Sites of a declaration are covered where its ids have one label. -/
theorem covers_of_subset {sites : List (Site Unit)} (hsub : sites ⊆ d.sites blindRules ())
    {ids : List NodeId} (hmade : MadeOf sites ids) {params : List String}
    (hown : ∀ id ∈ ids, u.paramsAround id = params) : u.provenance.Covers params sites :=
  fun site hsite => allows_of_mem hids (List.mem_flatMap.2 ⟨d, hd, hsub hsite⟩) fun id hid =>
    hown id (hmade site hsite hid)

/-- Functions are covered. -/
theorem coversFunction {f : FunctionDecl} (hf : f ∈ d.functions) (hlabels : f.labels ⊆ d.labels)
    (isMethod : Bool) (hsites : f.sites blindRules () isMethod ⊆ d.sites blindRules ()) :
    u.provenance.CoversFunction f := by
  have hown : ∀ id ∈ f.ids, u.paramsAround id = f.paramNames := fun id hid =>
    paramsAround_of_mem hids hd (hlabels (List.mem_map_of_mem hid))
  refine ⟨hown, fun hnamed name hname => ?_, ?_⟩
  · have hmem : f ∈ u.functions.filter fun f => f.name ∈ u.valueNames :=
      List.mem_filter.2 ⟨List.mem_flatMap.2 ⟨d, hd, hf⟩, decide_eq_true hnamed⟩
    exact List.mem_append_right _ (List.mem_flatMap.2 ⟨f, hmem, hname⟩)
  · refine covers_of_subset hids hd (fun site hsite => hsites (List.mem_cons_of_mem _ hsite))
      (f.body.madeOf blindRules .block ()) fun id hid => hown id ?_
    exact List.mem_cons_of_mem _ (List.mem_append_right _ hid)

/-- Fields are covered. -/
theorem coversField {f : FieldDecl} (hlabels : f.ids.map (fun id => (id, [])) ⊆ d.labels)
    (hvalue : ∀ e ∈ f.initializer, e ∈ d.operands)
    (hsites : f.sites blindRules () ⊆ d.sites blindRules ()) : u.provenance.CoversField f := by
  have hown : ∀ id ∈ f.ids, u.paramsAround id = [] := fun id hid =>
    paramsAround_of_mem hids hd (hlabels (List.mem_map_of_mem hid))
  refine ⟨hown f.node.id List.mem_cons_self, fun e he => ⟨reads_of_mem hd (hvalue e he), ?_⟩⟩
  have hf : f.initializer = some e := he
  have hmade := f.madeOf blindRules ()
  unfold FieldDecl.sites at hmade hsites
  rw [hf] at hmade hsites
  exact covers_of_subset hids hd hsites hmade hown

/-- The provenance of a unit fits its declarations. -/
theorem coversDecl : u.provenance.CoversDecl d := by
  refine ⟨fun name hname => List.mem_append_left _ (List.mem_flatMap.2 ⟨d, hd, hname⟩), ?_⟩
  cases d with
  | function f =>
    exact coversFunction hids hd (List.mem_singleton_self f) (List.Subset.refl _) false
      (List.Subset.refl _)
  | classLike c =>
    refine ⟨paramsAround_of_mem hids hd List.mem_cons_self, fun f hf => ?_, fun f hf => ?_⟩
    · refine coversField hids hd (fun p hp => ?_) (fun e he => ?_) fun site hsite => ?_
      · obtain ⟨id, hid, rfl⟩ := List.mem_map.1 hp
        exact List.mem_cons_of_mem _ (List.mem_append_left _
          (List.mem_map_of_mem (List.mem_flatMap.2 ⟨f, hf, hid⟩)))
      · exact List.mem_filterMap.2 ⟨f, hf, he⟩
      · exact List.mem_cons_of_mem _ (List.mem_append_left _
          (List.mem_flatMap.2 ⟨f, hf, hsite⟩))
    · refine coversFunction hids hd hf (fun p hp => ?_) true fun site hsite => ?_
      · exact List.mem_cons_of_mem _ (List.mem_append_right _ (List.mem_flatMap.2 ⟨f, hf, hp⟩))
      · exact List.mem_cons_of_mem _ (List.mem_append_right _
          (List.mem_flatMap.2 ⟨f, hf, hsite⟩))
  | struct s | spark s =>
    intro f hf
    refine coversField hids hd (fun p hp => ?_) (fun e he => ?_) fun site hsite => ?_
    · obtain ⟨id, hid, rfl⟩ := List.mem_map.1 hp
      exact List.mem_map_of_mem (List.mem_cons_of_mem _ (List.mem_flatMap.2 ⟨f, hf, hid⟩))
    · exact List.mem_filterMap.2 ⟨f, hf, he⟩
    · exact List.mem_flatMap.2 ⟨f, hf, hsite⟩
  | impl i =>
    intro f hf
    refine coversFunction hids hd hf (fun p hp => ?_) true fun site hsite => ?_
    · exact List.mem_cons_of_mem _ (List.mem_flatMap.2 ⟨f, hf, hp⟩)
    · exact List.mem_flatMap.2 ⟨f, hf, hsite⟩
  | script s =>
    have hown : ∀ id ∈ Stmt.idsAll [s], u.paramsAround id = [] := fun id hid =>
      paramsAround_of_mem hids hd (List.mem_map_of_mem hid)
    refine ⟨hown s.node.id ?_, reads_of_mem hd (List.mem_singleton_self _), ?_⟩
    · cases s <;> exact List.mem_cons_self
    · exact covers_of_subset hids hd (List.Subset.refl _) (Decl.madeOf blindRules () (.script s))
        hown
  | data _ => trivial
  | trait _ => trivial
  | interface _ => trivial

end Parts

end SourceUnit

end UnitAnalysis

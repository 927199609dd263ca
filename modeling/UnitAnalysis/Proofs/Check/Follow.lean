import Mathlib.Data.List.Perm.Subperm
import UnitAnalysis.Check.Unit
import UnitAnalysis.Proofs.Check.Placement
import UnitAnalysis.Proofs.Scope.Names
import UnitAnalysis.Proofs.Syntax.Inherit

/-!
# What a check does to its session

A check walks through the bodies of a unit a second time. Where it stands is a `Standing`: the scope
and what is around the code. `standingRules` says how this is inherited; nothing stands inside a
target that cannot be assigned to, because the check does not look into it.

`Session.Follows` says what such a walk does between two sessions. Names get types but no scope gets
or loses a name, and only the scopes of the constructs on the way are written to. Only nodes with
identities that belong to the walk get a type, and all expressions and blocks that are looked at get
one. The walk comes out of all functions that it goes into. All its calls are on the listed sites,
and the problems of place that it reports are those of the listed sites, in some order.

What is written for a name inside a construct is read off a symbol that the rest of the check leaves
alone: the scope of the construct was filled before, and all that comes later belongs to other
constructs. So for every session that still has what the walk left behind, the type of a listed name
is the type of the symbol that the name stands for in that session.
-/

set_option autoImplicit false

namespace UnitAnalysis

/-- A name stands for the same symbol when no scope around it changed. -/
theorem Arena.lookup_congr {a a' : Arena} {scope : ScopeId} {name : String}
    (henclosing : a'.enclosing scope = a.enclosing scope)
    (h : ∀ c ∈ scope :: a.enclosing scope, a'.lookupLocal c name = a.lookupLocal c name) :
    a'.lookup scope name = a.lookup scope name :=
  congrArg (Option.map Prod.snd) (lookupWithScope_congr henclosing h)

/-- The type of the symbol that a name stands for, and `Any` where it stands for none. -/
def Arena.typeOf (a : Arena) (scope : ScopeId) (name : String) : Ty :=
  ((a.lookup scope name).map Symbol.ty).getD .any

/-! ## Standing -/

/-- Where a check stands. -/
structure Standing where
  /-- The scope. -/
  scope : ScopeId
  /-- What stands around the code. -/
  around : Surroundings
  deriving DecidableEq, Repr

/-- Where a check stands in the scope of a node. -/
def Standing.into (table : SymbolTable) (st : Standing) (id : NodeId) : Standing :=
  ⟨table.scopeFor id st.scope, st.around⟩

/-- What stands around the code inside a construct, given that around the construct. -/
def Opening.surroundings (table : SymbolTable) (w : Surroundings) : Opening → Surroundings
  | function f _ => w.enterFunction (Check.frameOf table f)
  | lambda _ _ isAsync => w.enterLambda isAsync
  | _ => w

/-- How standing is inherited. Nothing stands where the check does not look. -/
def standingRules (table : SymbolTable) : Rules (Option Standing) where
  enter standing o := standing.map fun st =>
    ⟨table.scopeFor o.id st.scope, o.surroundings table st.around⟩
  skip _ := none

/-- The type of a node in a table of types, and `Any` for a node without one. -/
def Ty.ofNode (types : Table NodeId Ty) (id : NodeId) : Ty :=
  (types.get? id).getD .any

/-- The type of what a `return` gives back. -/
def Ty.ofReturned (types : Table NodeId Ty) : Option Expr → Ty
  | some value => ofNode types value.id
  | none => .void

/-- The node of what a `return` gives back. -/
def Expr.returnedIds : Expr → List NodeId
  | .ret _ (some value) => [value.id]
  | _ => []

/-- The problems of place of an expression by itself, without those of its parts. -/
def Expr.placement (ctx : Context) (a : Arena) (types : Table NodeId Ty) (st : Standing) :
    Expr → List Finding
  | .ident node name => if a.Sees st.scope name then [] else [⟨.unresolvedName name, node.span⟩]
  | .ret node value =>
    Check.returnFindings ctx.options st.around (.ofReturned types value) node.span
  | .await node _ => Check.asyncFindings st.around .await node.span
  | .concurrent node _ => Check.asyncFindings st.around .concurrent node.span
  | .race node _ => Check.asyncFindings st.around .race node.span
  | .timeout node _ _ => Check.asyncFindings st.around .timeout node.span
  | _ => []

/-- The problem of the result of a function. -/
def FunctionDecl.placement (ctx : Context) (types : Table NodeId Ty) (f : FunctionDecl) :
    List Finding :=
  Check.resultFindings ctx.options (Check.frameOf ctx.table f) (.ofNode types f.body.id)
    (Check.resultSpan f)

theorem reports_functions (ctx : Context) (types : Table NodeId Ty) (fs : List FunctionDecl) :
    Reports [.returnTypeMismatch, .asyncReturnTypeMismatch]
      (fs.flatMap (FunctionDecl.placement ctx types)) :=
  .flatMap fun _ _ => Check.reports_resultFindings ..

namespace Site

/-- What is in force at a site. -/
def place {α : Type} : Site α → α
  | expr a _ => a
  | block a _ => a
  | pattern a _ => a
  | opening a _ => a

/-- The calls of a check on a site. -/
def calls : Site (Option Standing) → List Visit
  | expr (some st) e => [⟨.expr, e.id, st.scope⟩]
  | block (some st) b => [⟨.block, b.id, st.scope⟩]
  | pattern (some st) p => p.visits st.scope
  | _ => []

/-- The problems of place of a site. -/
def placement (ctx : Context) (a : Arena) (types : Table NodeId Ty) :
    Site (Option Standing) → List Finding
  | expr (some st) e => e.placement ctx a types st
  | _ => []

/-- The scope of a construct that is looked at. -/
def opened? (t : SymbolTable) : Site (Option Standing) → Option ScopeId
  | opening (some st) o => some (t.scopeFor o.id st.scope)
  | _ => none

/-- The nodes that have types once a site was looked at. What a `return` gives back has its type
before the `return` has. -/
def typedIds {α : Type} : Site α → List NodeId
  | expr _ e => e.id :: e.returnedIds
  | block _ b => [b.id]
  | _ => []

/-- The type of a name that is looked at is that of the symbol which it stands for. -/
def Agrees (s : Session) : Site (Option Standing) → Prop
  | expr (some st) (.ident node name) =>
    s.types.get? node.id = some (s.scopes.typeOf st.scope name)
  | _ => True

end Site

/-! ## The scopes of listed constructs -/

namespace SymbolTable

/-- A scope and the scopes around it. -/
def chain (t : SymbolTable) (scope : ScopeId) : List ScopeId :=
  scope :: t.scopes.enclosing scope

/-- The scopes of the listed constructs. -/
def opened (t : SymbolTable) (sites : List (Site (Option Standing))) : List ScopeId :=
  sites.filterMap (Site.opened? t)

/-- The scope of each listed construct lies directly below the scope in which the construct stands.
-/
def Nested (t : SymbolTable) (sites : List (Site (Option Standing))) : Prop :=
  ∀ st o, .opening (some st) o ∈ sites →
    t.scopes.enclosing (t.scopeFor o.id st.scope) = t.chain st.scope

variable {t : SymbolTable} {sites more : List (Site (Option Standing))}

theorem opened_append : t.opened (sites ++ more) = t.opened sites ++ t.opened more :=
  List.filterMap_append

theorem opened_cons_of_none {site : Site (Option Standing)} (h : site.opened? t = none) :
    t.opened (site :: sites) = t.opened sites :=
  List.filterMap_cons_none h

theorem Nested.mono (h : t.Nested more) (hsub : sites ⊆ more) : t.Nested sites :=
  fun st o ho => h st o (hsub ho)

theorem mem_opened {st : Standing} {o : Opening} (ho : .opening (some st) o ∈ sites) :
    t.scopeFor o.id st.scope ∈ t.opened sites :=
  List.mem_filterMap.2 ⟨_, ho, rfl⟩

/-- Around the scope of a listed construct there are the scopes around the construct. -/
theorem Nested.chain_subset (h : t.Nested sites) (st : Standing) (o : Opening)
    (ho : .opening (some st) o ∈ sites) :
    t.chain (t.scopeFor o.id st.scope) ⊆ t.chain st.scope ++ t.opened sites := by
  rw [chain, h st o ho]
  exact List.cons_subset.2 ⟨List.mem_append_right _ (mem_opened ho), List.subset_append_left _ _⟩

end SymbolTable

/-! ## Following a list of sites -/

namespace Session

/-- A later session still has what there was in some scopes and at some nodes. -/
structure Retains (scopes : List ScopeId) (ids : List NodeId) (s z : Session) : Prop where
  enclosing : ∀ c, z.scopes.enclosing c = s.scopes.enclosing c
  symbols : ∀ c ∈ scopes, ∀ name, z.scopes.lookupLocal c name = s.scopes.lookupLocal c name
  types : ∀ id ∈ ids, z.types.get? id = s.types.get? id

/-- A session in which a walk finds its nodes without types. -/
structure Fresh (ids : List NodeId) (s : Session) : Prop where
  nodup : ids.Nodup
  untyped : ∀ id ∈ ids, s.types.get? id = none

/-- A session in which a walk finds its nodes without types and its scopes apart: no construct has
the scope of another one or a scope around the place of the walk, and what is written beside belongs
to none of these. -/
structure Ready (t : SymbolTable) (place : ScopeId) (beside : List ScopeId) (ids : List NodeId)
    (sites : List (Site (Option Standing))) (s : Session) : Prop where
  fresh : s.Fresh ids
  framed : ∀ c, s.scopes.enclosing c = t.scopes.enclosing c
  opened : (t.opened sites).Nodup
  around : ∀ c ∈ t.chain place, c ∉ t.opened sites
  beside : ∀ c ∈ beside, c ∉ t.chain place ∧ c ∉ t.opened sites
  nested : t.Nested sites

/-- Whether a target that cannot be assigned to was reported. -/
def ReportsTarget (s : Session) : Prop :=
  ∃ f ∈ s.findings, f.problem = .invalidTarget

/-- What a walk at a place does that owns some identities. It writes to the scopes of the listed
constructs, and beside these to the scopes `beside`. Beside the problems of the sites it reports the
problems `own` of what it is on, by the types that its nodes have in the end. -/
structure Follows (ctx : Context) (a : Arena) (final : Table NodeId Ty) (place : ScopeId)
    (beside : List ScopeId) (ids : List NodeId) (own : List Finding)
    (sites : List (Site (Option Standing))) (s s' : Session) : Prop where
  scopes : Arena.Defines .global [] s.scopes s'.scopes
  symbols : ∀ c, c ∉ beside → c ∉ ctx.table.opened sites → ∀ name,
    s'.scopes.lookupLocal c name = s.scopes.lookupLocal c name
  types : ∀ id, id ∉ ids → s'.types.get? id = s.types.get? id
  around : s'.around = s.around
  findings : s.findings ⊆ s'.findings
  calls : ∀ v ∈ s'.visits, v ∈ s.visits ∨ v ∈ sites.flatMap Site.calls
  typed : s.Fresh ids → ∀ site ∈ sites, ∀ id ∈ site.typedIds,
    (s'.types.get? id).isSome ∨ site.place = none ∧ s'.ReportsTarget
  problems : s.Fresh ids → Arena.Defines .global [] a s.scopes →
    (∀ id ∈ ids, final.get? id = s'.types.get? id) →
    (placement s'.findings).Perm
      (placement s.findings ++ (own ++ sites.flatMap (Site.placement ctx a final)))
  agrees : s.Ready ctx.table place beside ids sites →
    ∀ z, Retains (ctx.table.chain place ++ ctx.table.opened sites) ids s' z →
      ∀ site ∈ sites, site.Agrees z

variable {ctx : Context} {a : Arena} {final : Table NodeId Ty} {place inner : ScopeId}
  {beside : List ScopeId} {ids ids' : List NodeId} {own own' : List Finding}
  {sites sites' : List (Site (Option Standing))} {s s' s'' : Session}

theorem ReportsTarget.mono (h : s.ReportsTarget) (hsub : s.findings ⊆ s'.findings) :
    s'.ReportsTarget :=
  let ⟨f, hf, hproblem⟩ := h
  ⟨f, hsub hf, hproblem⟩

namespace Fresh

theorem left (h : s.Fresh (ids ++ ids')) : s.Fresh ids :=
  ⟨(List.nodup_append.1 h.nodup).1, fun id hid => h.untyped id (List.mem_append_left _ hid)⟩

theorem apart (h : s.Fresh (ids ++ ids')) {id : NodeId} (hid : id ∈ ids) : id ∉ ids' :=
  fun hid' => (List.nodup_append.1 h.nodup).2.2 id hid id hid' rfl

/-- A walk through other nodes leaves nodes without types. -/
theorem right (h : s.Fresh (ids ++ ids'))
    (htypes : ∀ id, id ∉ ids → s'.types.get? id = s.types.get? id) : s'.Fresh ids' := by
  refine ⟨(List.nodup_append.1 h.nodup).2.1, fun id hid => ?_⟩
  rw [htypes id fun hmem => h.apart hmem hid]
  exact h.untyped id (List.mem_append_right _ hid)

theorem subperm (h : s.Fresh ids') (hids : ids.Subperm ids') : s.Fresh ids := by
  obtain ⟨l, hperm, hsub⟩ := hids
  exact ⟨hperm.nodup_iff.1 (h.nodup.sublist hsub), fun id hid =>
    h.untyped id (hsub.subset (hperm.mem_iff.2 hid))⟩

end Fresh

namespace Ready

theorem left (h : s.Ready ctx.table place beside (ids ++ ids') (sites ++ sites')) :
    s.Ready ctx.table place beside ids sites where
  fresh := h.fresh.left
  framed := h.framed
  opened := by
    have hopened := h.opened
    rw [SymbolTable.opened_append] at hopened
    exact (List.nodup_append.1 hopened).1
  around c hc hmem := by
    refine h.around c hc ?_
    rw [SymbolTable.opened_append]
    exact List.mem_append_left _ hmem
  beside c hc := by
    obtain ⟨hchain, hopened⟩ := h.beside c hc
    rw [SymbolTable.opened_append, List.mem_append, not_or] at hopened
    exact ⟨hchain, hopened.1⟩
  nested := h.nested.mono (List.subset_append_left _ _)

/-- After the first part of a walk the second part is ready, also at a place inside the first. -/
theorem right (h : s.Ready ctx.table place beside (ids ++ ids') (sites ++ sites'))
    (hfirst : Follows ctx a final place beside ids own sites s s')
    (hinner : ctx.table.Nested sites →
      ctx.table.chain inner ⊆ ctx.table.chain place ++ ctx.table.opened sites) :
    s'.Ready ctx.table inner beside ids' sites' := by
  have hopened := h.opened
  rw [SymbolTable.opened_append] at hopened
  obtain ⟨-, hopened', hdistinct⟩ := List.nodup_append.1 hopened
  have hsub := hinner (h.nested.mono (List.subset_append_left _ _))
  -- No scope around the new place is one that the second part opens.
  have haround : ∀ c ∈ ctx.table.chain place ++ ctx.table.opened sites,
      c ∉ ctx.table.opened sites' := by
    intro c hc hmem
    rcases List.mem_append.1 hc with hc | hc
    · refine h.around c hc ?_
      rw [SymbolTable.opened_append]
      exact List.mem_append_right _ hmem
    · exact hdistinct c hc c hmem rfl
  refine ⟨h.fresh.right hfirst.types, fun c => ?_, hopened', fun c hc => haround c (hsub hc), ?_,
    h.nested.mono (List.subset_append_right _ _)⟩
  · rw [hfirst.scopes.enclosing, h.framed]
  · intro c hc
    obtain ⟨hchain, hall⟩ := h.beside c hc
    rw [SymbolTable.opened_append, List.mem_append, not_or] at hall
    refine ⟨fun hmem => ?_, hall.2⟩
    rcases List.mem_append.1 (hsub hmem) with hmem | hmem
    · exact hchain hmem
    · exact hall.1 hmem

end Ready

namespace Follows

/-- A step that comes by no site, and reports what it finds. -/
theorem of_quiet (found : List Finding) (hscopes : Arena.Defines .global [] s.scopes s'.scopes)
    (hsymbols : ∀ c, c ∉ beside → ∀ name,
      s'.scopes.lookupLocal c name = s.scopes.lookupLocal c name)
    (htypes : s'.types = s.types) (haround : s'.around = s.around) (hvisits : s'.visits = s.visits)
    (hfindings : s'.findings = s.findings ++ found) :
    Follows ctx a final place beside [] (placement found) [] s s' where
  scopes := hscopes
  symbols c hc _ := hsymbols c hc
  types _ _ := by rw [htypes]
  around := haround
  findings := hfindings ▸ List.subset_append_left _ _
  calls v hv := .inl (hvisits ▸ hv)
  typed _ := by simp
  problems _ _ _ := by rw [hfindings, placement_append, List.flatMap_nil, List.append_nil]
  agrees _ _ _ := by simp

theorem refl (s : Session) : Follows ctx a final place beside [] [] [] s s :=
  of_quiet [] (.refl _ _) (fun _ _ _ => rfl) rfl rfl rfl (List.append_nil _).symm

/-- A node that has a type keeps it: the walk finds its own nodes without types. -/
theorem isSome_types (h : Follows ctx a final place beside ids own sites s s')
    (hfresh : s.Fresh ids) {id : NodeId} (hid : (s.types.get? id).isSome) :
    (s'.types.get? id).isSome := by
  rwa [h.types id fun hmem => by simp [hfresh.untyped id hmem] at hid]

/-- One walk after another. The identities of the two are apart, so the second walk finds none of
its nodes typed. It may be at a place inside the first, in the scope of a construct of it. -/
theorem trans (h : Follows ctx a final place beside ids own sites s s')
    (h' : Follows ctx a final inner beside ids' own' sites' s' s'')
    (hinner : ctx.table.Nested sites →
      ctx.table.chain inner ⊆ ctx.table.chain place ++ ctx.table.opened sites) :
    Follows ctx a final place beside (ids ++ ids') (own ++ own') (sites ++ sites') s s'' where
  scopes := h.scopes.trans h'.scopes
  symbols c hbeside hopened name := by
    rw [SymbolTable.opened_append, List.mem_append, not_or] at hopened
    rw [h'.symbols c hbeside hopened.2, h.symbols c hbeside hopened.1]
  types id hid := by
    rw [List.mem_append, not_or] at hid
    rw [h'.types id hid.2, h.types id hid.1]
  around := h'.around.trans h.around
  findings := List.Subset.trans h.findings h'.findings
  calls v hv := by
    rw [List.flatMap_append, List.mem_append]
    rcases h'.calls v hv with hv | hv
    · exact (h.calls v hv).imp_right .inl
    · exact .inr (.inr hv)
  typed hfresh site hsite id hid := by
    rcases List.mem_append.1 hsite with hsite | hsite
    · rcases h.typed hfresh.left site hsite id hid with htyped | ⟨hskipped, htarget⟩
      · exact .inl (h'.isSome_types (hfresh.right h.types) htyped)
      · exact .inr ⟨hskipped, htarget.mono h'.findings⟩
    · exact h'.typed (hfresh.right h.types) site hsite id hid
  problems hfresh hnames hfinal := by
    have hfirst := h.problems hfresh.left hnames fun id hid => by
      rw [hfinal id (List.mem_append_left _ hid), h'.types id (hfresh.apart hid)]
    have hsecond := h'.problems (hfresh.right h.types) (hnames.trans h.scopes) fun id hid =>
      hfinal id (List.mem_append_right _ hid)
    have hswap := List.perm_append_comm_assoc (sites.flatMap (Site.placement ctx a final)) own'
      (sites'.flatMap (Site.placement ctx a final))
    rw [List.flatMap_append, List.append_assoc own]
    refine hsecond.trans ((hfirst.append_right _).trans ?_)
    rw [List.append_assoc, List.append_assoc]
    exact (hswap.append_left own).append_left _
  agrees hready z hz := by
    have hopened := hready.opened
    rw [SymbolTable.opened_append] at hopened hz
    have hdistinct := (List.nodup_append.1 hopened).2.2
    have hsub := hinner (hready.nested.mono (List.subset_append_left _ _))
    -- The second part leaves alone what the first part has around it and in its own scopes.
    have hearlier : ∀ c ∈ ctx.table.chain place ++ ctx.table.opened sites, ∀ name,
        s''.scopes.lookupLocal c name = s'.scopes.lookupLocal c name := by
      intro c hc
      refine h'.symbols c (fun hmem => ?_) fun hmem => ?_
      · obtain ⟨hchain, hall⟩ := hready.beside c hmem
        rw [SymbolTable.opened_append, List.mem_append, not_or] at hall
        exact (List.mem_append.1 hc).elim hchain hall.1
      · rcases List.mem_append.1 hc with hc | hc
        · refine hready.around c hc ?_
          rw [SymbolTable.opened_append]
          exact List.mem_append_right _ hmem
        · exact hdistinct c hc c hmem rfl
    intro site hsite
    rcases List.mem_append.1 hsite with hsite | hsite
    · refine h.agrees hready.left z ⟨fun c => ?_, fun c hc name => ?_, fun id hid => ?_⟩ site hsite
      · rw [hz.enclosing, h'.scopes.enclosing]
      · rw [hz.symbols c ?_ name, hearlier c hc]
        rw [← List.append_assoc]
        exact List.mem_append_left _ hc
      · rw [hz.types id (List.mem_append_left _ hid), h'.types id (hready.fresh.apart hid)]
    · refine h'.agrees (hready.right h hinner) z ⟨hz.enclosing, fun c hc => hz.symbols c ?_,
        fun id hid => hz.types id (List.mem_append_right _ hid)⟩ site hsite
      rw [← List.append_assoc]
      exact (List.mem_append.1 hc).elim (fun hc => List.mem_append_left _ (hsub hc))
        fun hc => List.mem_append_right _ hc

/-- A walk may own more identities than it uses. -/
theorem weaken (h : Follows ctx a final place beside ids own sites s s')
    (hids : ids.Subperm ids') : Follows ctx a final place beside ids' own sites s s' :=
  { h with
    types := fun id hid => h.types id fun hmem => hid (hids.subset hmem)
    typed := fun hfresh => h.typed (hfresh.subperm hids)
    problems := fun hfresh hnames hfinal => h.problems (hfresh.subperm hids) hnames fun id hid =>
      hfinal id (hids.subset hid)
    agrees := fun hready z hz => h.agrees { hready with fresh := hready.fresh.subperm hids } z
      { hz with types := fun id hid => hz.types id (hids.subset hid) } }

/-- A walk through the same sites in another order. -/
theorem relist (h : Follows ctx a final place beside ids own sites s s')
    (hsites : sites.Perm sites') : Follows ctx a final place beside ids own sites' s s' := by
  have hopened : (ctx.table.opened sites).Perm (ctx.table.opened sites') := hsites.filterMap _
  have hready : s.Ready ctx.table place beside ids sites' →
      s.Ready ctx.table place beside ids sites := fun hready =>
      ⟨hready.fresh, hready.framed, hopened.nodup_iff.2 hready.opened,
        fun c hc hmem => hready.around c hc (hopened.subset hmem),
        fun c hc => ⟨(hready.beside c hc).1, fun hmem =>
          (hready.beside c hc).2 (hopened.subset hmem)⟩, hready.nested.mono hsites.subset⟩
  exact { h with
    symbols := fun c hbeside hc => h.symbols c hbeside fun hmem => hc (hopened.subset hmem)
    calls := fun v hv => (h.calls v hv).imp_right fun hmem => (hsites.flatMap_right _).subset hmem
    typed := fun hfresh site hsite => h.typed hfresh site (hsites.mem_iff.2 hsite)
    problems := fun hfresh hnames hfinal => (h.problems hfresh hnames hfinal).trans
      (((hsites.flatMap_right _).append_left own).append_left _)
    agrees := fun hready' z hz site hsite => h.agrees (hready hready') z
      { hz with symbols := fun c hc => hz.symbols c ((hopened.append_left _).subset hc) } site
      (hsites.mem_iff.2 hsite) }

/-- More scopes may be written to than are. -/
theorem widen (h : Follows ctx a final place [] ids own sites s s') :
    Follows ctx a final place beside ids own sites s s' :=
  { h with
    symbols := fun c _ => h.symbols c List.not_mem_nil
    agrees := fun hready => h.agrees { hready with beside := by simp } }

/-- A construct whose scope is written to may be listed. -/
theorem absorb {st : Standing} {o : Opening}
    (h : Follows ctx a final st.scope [ctx.table.scopeFor o.id st.scope] ids own sites s s') :
    Follows ctx a final st.scope [] ids own (.opening (some st) o :: sites) s s' where
  scopes := h.scopes
  symbols c _ hc := by
    have hc' : c ∉ ctx.table.scopeFor o.id st.scope :: ctx.table.opened sites := hc
    rw [List.mem_cons, not_or] at hc'
    exact h.symbols c (fun hmem => hc'.1 (List.mem_singleton.1 hmem)) hc'.2
  types := h.types
  around := h.around
  findings := h.findings
  calls := h.calls
  typed hfresh site hsite id hid := by
    rcases List.mem_cons.1 hsite with rfl | hsite
    · cases hid
    · exact h.typed hfresh site hsite id hid
  problems := h.problems
  agrees hready z hz := by
    have hnodup : (ctx.table.scopeFor o.id st.scope :: ctx.table.opened sites).Nodup :=
      hready.opened
    have haround : ∀ c ∈ ctx.table.chain st.scope,
        c ∉ ctx.table.scopeFor o.id st.scope :: ctx.table.opened sites := hready.around
    rw [List.nodup_cons] at hnodup
    have hready' :
        s.Ready ctx.table st.scope [ctx.table.scopeFor o.id st.scope] ids sites := by
      refine ⟨hready.fresh, hready.framed, hnodup.2, fun c hc hmem =>
        haround c hc (List.mem_cons_of_mem _ hmem), fun c hc => ?_,
        hready.nested.mono (List.subset_cons_self _ _)⟩
      obtain rfl := List.mem_singleton.1 hc
      exact ⟨fun hmem => haround _ hmem List.mem_cons_self, hnodup.1⟩
    intro site hsite
    rcases List.mem_cons.1 hsite with rfl | hsite
    · trivial
    · refine h.agrees hready' z ⟨hz.enclosing, fun c hc => hz.symbols c ?_, hz.types⟩ site hsite
      exact (List.mem_append.1 hc).elim (fun hc => List.mem_append_left _ hc)
        fun hc => List.mem_append_right _ (List.mem_cons_of_mem _ hc)

/-- A walk that first fills the scope of a construct and then goes into it. -/
theorem enter {st : Standing} {o : Opening}
    (h : Follows ctx a final st.scope [ctx.table.scopeFor o.id st.scope] ids own sites s s')
    (h' : Follows ctx a final (ctx.table.scopeFor o.id st.scope) [] ids' own' sites' s' s'') :
    Follows ctx a final st.scope [] (ids ++ ids') (own ++ own')
      (.opening (some st) o :: (sites ++ sites')) s s'' :=
  h.absorb.trans h' fun hnested => hnested.chain_subset st o List.mem_cons_self

/-- A node gets its type after everything in it was looked at. The problems of what the walk is on
are then those of the site. -/
theorem record {site : Site (Option Standing)} {id : NodeId} (ty : Ty)
    (h : Follows ctx a final place beside ids own sites s s')
    (htyped : ∀ other ∈ site.typedIds, other = id ∨
      ∃ part ∈ sites, part.place ≠ none ∧ other ∈ part.typedIds)
    (hopened : site.opened? ctx.table = none)
    (hown : Arena.Defines .global [] a s.scopes → site.placement ctx a final = own)
    (hagrees : (∀ c, s.scopes.enclosing c = ctx.table.scopes.enclosing c) →
      ∀ z : Session, z.types.get? id = some ty → Retains (ctx.table.chain place) [] s' z →
        site.Agrees z) :
    Follows ctx a final place beside (id :: ids) [] (site :: sites) s
      { s' with types := s'.types.insert id ty } := by
  have hnone : ctx.table.opened (site :: sites) = ctx.table.opened sites :=
    SymbolTable.opened_cons_of_none hopened
  have hfresh : s.Fresh (id :: ids) → s.Fresh ids :=
    fun hfresh => hfresh.subperm (List.sublist_cons_self id ids).subperm
  have hother : s.Fresh (id :: ids) → ∀ other ∈ ids,
      (s'.types.insert id ty).get? other = s'.types.get? other := fun hfresh other hmem => by
    refine Table.get?_insert_of_ne _ (fun heq => ?_) _
    exact (List.nodup_cons.1 hfresh.nodup).1 (heq ▸ hmem)
  refine ⟨h.scopes, fun c hbeside hc => h.symbols c hbeside (hnone ▸ hc), fun other hid => ?_,
    h.around, h.findings, fun v hv => (h.calls v hv).imp_right fun hmem => ?_,
    fun hnew site' hsite' other hid => ?_, fun hnew hnames hfinal => ?_,
    fun hready z hz site' hsite' => ?_⟩
  · rw [List.mem_cons, not_or] at hid
    exact (Table.get?_insert_of_ne _ (Ne.symm hid.1) _).trans (h.types other hid.2)
  · exact List.mem_append_right _ hmem
  · by_cases heq : id = other
    · rw [← heq, Table.get?_insert_self]
      exact .inl rfl
    · rw [Table.get?_insert_of_ne _ heq]
      rcases List.mem_cons.1 hsite' with rfl | hsite'
      · obtain ⟨part, hpart, hplace, hid⟩ := (htyped other hid).resolve_left (Ne.symm heq)
        exact .inl ((h.typed (hfresh hnew) part hpart other hid).resolve_right fun hskipped =>
          hplace hskipped.1)
      · exact h.typed (hfresh hnew) site' hsite' other hid
  · rw [List.flatMap_cons, hown hnames]
    exact h.problems (hfresh hnew) hnames fun other hid => by
      rw [hfinal other (List.mem_cons_of_mem _ hid)]
      exact hother hnew other hid
  · rw [hnone] at hz
    rcases List.mem_cons.1 hsite' with rfl | hsite'
    · refine hagrees hready.framed z ?_ ⟨hz.enclosing, fun c hc => hz.symbols c
        (List.mem_append_left _ hc), by simp⟩
      rw [hz.types id List.mem_cons_self]
      exact Table.get?_insert_self _ _ _
    · refine h.agrees ⟨hfresh hready.fresh, hready.framed, hnone ▸ hready.opened,
        hnone ▸ hready.around, hnone ▸ hready.beside,
        hready.nested.mono (List.subset_cons_self _ _)⟩ z ⟨hz.enclosing, hz.symbols,
        fun other hid => ?_⟩ site' hsite'
      rw [hz.types other (List.mem_cons_of_mem _ hid)]
      exact hother hready.fresh other hid

/-- A call on a listed site may be noted beforehand. -/
theorem after_visit {v : Visit}
    (h : Follows ctx a final place beside ids own sites { s with visits := s.visits.push v } s')
    (hv : v ∈ sites.flatMap Site.calls) :
    Follows ctx a final place beside ids own sites s s' :=
  { h with
    typed := fun hfresh => h.typed ⟨hfresh.nodup, hfresh.untyped⟩
    problems := fun hfresh => h.problems ⟨hfresh.nodup, hfresh.untyped⟩
    agrees := fun hready => h.agrees ⟨⟨hready.fresh.nodup, hready.fresh.untyped⟩, hready.framed,
      hready.opened, hready.around, hready.beside, hready.nested⟩
    calls := fun call hcall => (h.calls call hcall).elim (fun hold => by
      rcases Array.mem_push.1 hold with hold | rfl
      · exact .inl hold
      · exact .inr hv) .inr }

/-- A target that cannot be assigned to is not looked into. It may be listed after it was
reported. -/
theorem skipped (h : Follows ctx a final place beside ids own sites s s')
    (hreports : s'.ReportsTarget) (e : Expr) :
    Follows ctx a final place beside (e.ids ++ ids) own
      (e.sites (standingRules ctx.table) none ++ sites) s s' := by
  have hplace : ∀ site ∈ e.sites (standingRules ctx.table) none, site.place = none := by
    intro site hsite
    have hrelated : List.Forall₂ (Site.Related fun standing _ => standing = none)
        (e.sites (standingRules ctx.table) none) (e.sites blindRules ()) :=
      e.sites_related rfl ⟨fun _ _ _ => rfl, fun standing o _ _ hnone => by rw [hnone]; rfl⟩
    obtain ⟨_, -, hsame⟩ := exists_of_forall₂ hrelated hsite
    cases hsame with
    | expr h | block h | pattern h | opening h => exact h
  have hnone : ∀ site ∈ e.sites (standingRules ctx.table) none,
      site.opened? ctx.table = none ∧ site.placement ctx a final = [] ∧ ∀ z, site.Agrees z := by
    intro site hsite
    have hsite' := hplace site hsite
    cases site with
    | expr st _ | block st _ | pattern st _ | opening st _ =>
      obtain rfl : st = none := hsite'
      exact ⟨rfl, rfl, fun _ => trivial⟩
  have hopened : ctx.table.opened (e.sites (standingRules ctx.table) none ++ sites) =
      ctx.table.opened sites := by
    rw [SymbolTable.opened_append, SymbolTable.opened,
      List.filterMap_eq_nil_iff.2 fun site hsite => (hnone site hsite).1]
    rfl
  have hplacement : (e.sites (standingRules ctx.table) none).flatMap
      (Site.placement ctx a final) = [] :=
    List.flatMap_eq_nil_iff.2 fun site hsite => (hnone site hsite).2.1
  have hwalk := h.weaken (List.sublist_append_right e.ids ids).subperm
  exact { hwalk with
    symbols := fun c hbeside hc => hwalk.symbols c hbeside (hopened ▸ hc)
    calls := fun v hv => (hwalk.calls v hv).imp_right fun hmem => by
      rw [List.flatMap_append]
      exact List.mem_append_right _ hmem
    typed := fun hfresh site hsite id hid => (List.mem_append.1 hsite).elim
      (fun hsite => .inr ⟨hplace site hsite, hreports⟩)
      fun hsite => hwalk.typed hfresh site hsite id hid
    problems := by
      rw [List.flatMap_append, hplacement]
      exact hwalk.problems
    agrees := fun hready z hz site hsite => (List.mem_append.1 hsite).elim
      (fun hsite => (hnone site hsite).2.2 z)
      fun hsite => hwalk.agrees ⟨hready.fresh, hready.framed, hopened ▸ hready.opened,
        hopened ▸ hready.around, hopened ▸ hready.beside,
        hready.nested.mono (List.subset_append_right _ _)⟩ z (hopened ▸ hz) site hsite }

end Follows

end Session

end UnitAnalysis

import Mathlib.Data.List.Nodup
import UnitAnalysis.Analysis
import UnitAnalysis.Proofs.Check.Bodies
import UnitAnalysis.Proofs.Symbols.Table
import UnitAnalysis.Proofs.Syntax.Identity

/-!
# Agreement on scopes

The symbol table opens the scopes of a unit on one walk, and the check looks them up on another.
What they share is a table from nodes to scopes, in which a missing entry would silently stand for
the scope around the node.

`SourceUnit.scopedNodes` lists the constructs of a unit that open a scope, each with the innermost
construct around it; it speaks of the syntax alone. The main result says that the scopes of the
table are the global one and one for each of these constructs, of its kind and directly below the
scope of the construct around it, that the names of a pattern are defined in the scope in which the
construction came by the pattern, and that the check calls on every node in the very scope in which
the construction came by it.
-/

set_option autoImplicit false

namespace UnitAnalysis

/-! ## Constructs around a place -/

/-- The innermost construct around a place that opened a scope; there is none at the top. -/
def ownerRules : Rules (Option NodeId) where
  enter _ o := some o.id
  skip owner := owner

/-- The constructs of a unit that open a scope, each with the innermost such construct around it. -/
def SourceUnit.scopedNodes (u : SourceUnit) : List (Option NodeId × Opening) :=
  openings (u.sites ownerRules none)

/-- The scope inside a construct, or the global scope where there is none. -/
def SymbolTable.scopeOf? (t : SymbolTable) : Option NodeId → Option ScopeId
  | none => some .global
  | some id => t.scopeMap.get? id

/-- Two lists of related sites show the same constructs. -/
theorem openings_related {α β : Type} {Rel : α → β → Prop} {l : List (Site α)} {m : List (Site β)}
    (h : List.Forall₂ (Site.Related Rel) l m) :
    List.Forall₂ (fun x y => Rel x.1 y.1 ∧ x.2 = y.2) (openings l) (openings m) := by
  induction h with
  | nil => exact .nil
  | cons hsite _ ih =>
    cases hsite with
    | opening hplace => exact .cons ⟨hplace, rfl⟩ ih
    | _ => exact ih

/-! ## The scopes of the constructs -/

section Built

variable {intrinsics : List (String × TypeExpr)} {u : SourceUnit} {b : Builder}

variable (h : b.Built intrinsics u)

include h

/-- The table has an entry for every construct of the unit. -/
theorem Builder.Built.get?_isSome {owner : Option NodeId} {o : Opening}
    (ho : .opening owner o ∈ u.sites ownerRules none) :
    ∃ scope, b.table.scopeMap.get? o.id = some scope := by
  have hrelated : List.Forall₂ (Site.Related fun _ _ => True) (u.sites ownerRules none)
      (u.scopeSites b.table) :=
    u.sites_related trivial .all
  obtain ⟨n, hn⟩ := List.mem_iff_getElem?.1 (mem_openings.2 ho)
  obtain ⟨⟨place, o'⟩, hplace, -, rfl⟩ := getElem?_of_forall₂ (openings_related hrelated) hn
  exact ⟨_, (h.opened n place o hplace).1⟩

/-- Everything in the unit stands in the scope of the innermost construct around it. -/
theorem Builder.Built.sites_related :
    List.Forall₂ (Site.Related fun owner place => b.table.scopeOf? owner = some place)
      (u.sites ownerRules none) (u.scopeSites b.table) := by
  refine u.sites_related rfl ⟨fun _ _ hplace => hplace, fun owner o ho place _ => ?_⟩
  obtain ⟨scope, hscope⟩ := h.get?_isSome ho
  change b.table.scopeMap.get? o.id = some (b.table.scopeFor o.id place)
  rw [SymbolTable.scopeFor, hscope, Option.getD_some]

/-- A construct of the unit stands in the scope of the innermost construct around it. -/
theorem Builder.Built.scopedNodes_related :
    List.Forall₂ (fun x y => b.table.scopeOf? x.1 = some y.1 ∧ x.2 = y.2) u.scopedNodes
      (openings (u.scopeSites b.table)) :=
  openings_related h.sites_related

/-- The scope of the construct at a position, which is the next one after that position. -/
theorem Builder.Built.scope_of_scopedNode {n : Nat}
    {owner : Option NodeId} {o : Opening} (hn : u.scopedNodes[n]? = some (owner, o)) :
    b.table.scopeMap.get? o.id = some ⟨1 + n⟩ ∧
      ∃ place, b.table.scopeOf? owner = some place ∧
        b.table.scopes.Holds b.table.decls ⟨1 + n⟩ place o := by
  obtain ⟨⟨place, o'⟩, hplace, howner, rfl⟩ := getElem?_of_forall₂ h.scopedNodes_related hn
  obtain ⟨hid, hholds⟩ := h.opened n place o hplace
  exact ⟨hid, place, howner, hholds⟩

/-- There is one scope for each construct, and the global one. -/
theorem Builder.Built.size_eq : b.table.scopes.size = 1 + u.scopedNodes.length := by
  rw [h.size, h.scopedNodes_related.length_eq]

end Built

/-- The scope at each position after the global one is that of the construct at that position of the
unit, whatever identities the nodes have. -/
theorem Builder.shows_ofUnit (intrinsics : List (String × TypeExpr)) (u : SourceUnit) {n : Nat}
    {owner : Option NodeId} {o : Opening} (hn : u.scopedNodes[n]? = some (owner, o)) :
    (Builder.ofUnit intrinsics u).table.scopes.Shows (Builder.ofUnit intrinsics u).table.decls
      ⟨1 + n⟩ o := by
  obtain ⟨hdeclares, hfollows⟩ := Builder.follows_ofUnit intrinsics u
  have hsame : constructs (u.sites ownerRules none) =
      constructs (u.scopeSites (Builder.ofUnit intrinsics u).table) :=
    constructs_eq_of_related (u.sites_related trivial .all)
  have hconstruct : (constructs (u.sites ownerRules none))[n]? = some o :=
    List.getElem?_map.trans (congrArg (Option.map Prod.snd) hn)
  have hshows := (hfollows.opens _).opened n o (hsame ▸ hconstruct)
  rwa [hdeclares.scopes.size] at hshows

/-- The scope of a construct, read off its record. -/
theorem Arena.Holds.exists_scope {ix : DeclIndex} {a : Arena} {scope place : ScopeId} {o : Opening}
    (h : a.Holds ix scope place o) :
    ∃ s, a.get? scope = some s ∧ s.kind = o.kind ∧ s.parent? = some place := by
  have hkind := h.kind
  have henclosing := h.enclosing
  unfold Arena.kind? at hkind
  unfold Arena.enclosing at henclosing
  cases hs : a.get? scope with
  | none =>
    rw [hs] at hkind
    cases hkind
  | some s =>
    rw [hs] at hkind henclosing
    exact ⟨s, rfl, Option.some.inj hkind, congrArg List.head? henclosing⟩

/-! ## The names of patterns -/

section Names

variable (names : Pattern → List String)

/-- The names of the innermost construct around a place, given those of patterns. -/
def nameRules : Rules (List String) where
  enter _ o := o.names names
  skip around := around

/-- The names of a pattern are among those of the construct that it stands in. -/
def Site.Named : Site (List String) → Prop
  | pattern around p => names p ⊆ around
  | _ => True

/-- The patterns of a body are those of its `let`s, match arms and loops. -/
theorem Route.named : Induction
    (fun e => ∀ a, ∀ site ∈ e.sites (nameRules names) a, site.Named names)
    (fun b => ∀ kind a, ∀ site ∈ b.sites (nameRules names) kind a, site.Named names)
    (fun r => ∀ a, ∀ site ∈ r.sites (nameRules names) a, site.Named names) where
  ofExpr e hroute a := by
    rw [e.sites_eq]
    exact List.forall_mem_cons.2 ⟨trivial, hroute a⟩
  ofBlock b hroute kind a := by
    rw [b.sites_eq]
    exact List.forall_mem_cons.2 ⟨trivial, List.forall_mem_cons.2 ⟨trivial, hroute _⟩⟩
  done _ := List.forall_mem_nil _
  expr _ _ _ he hrest a := List.forall_mem_append.2 ⟨he _, hrest a⟩
  block kind _ _ hb hrest a := List.forall_mem_append.2 ⟨hb kind a, hrest a⟩
  opening b inner rest hinner hrest a := by
    have hown : ∀ site ∈ b.sites (b.opening.names names), site.Named names := by
      cases b <;> simp [Binder.sites, Binder.patterns, Binder.opening, Opening.names, Site.Named]
    exact List.forall_mem_append.2 ⟨List.forall_mem_cons.2 ⟨trivial,
      List.forall_mem_append.2 ⟨hown, hinner _⟩⟩, hrest a⟩
  stmt _ _ _ hvalue hrest a := List.forall_mem_append.2 ⟨hvalue a, hrest _⟩

/-- The patterns of a declaration stand in its bodies, or their names are global. -/
theorem Decl.named (d : Decl) {a : List String} (ha : d.scriptNames names ⊆ a) :
    ∀ site ∈ d.sites (nameRules names) a, site.Named names := by
  have hfunctions (a : List String) (isMethod : Bool) (f : FunctionDecl) :
      ∀ site ∈ f.sites (nameRules names) a isMethod, site.Named names :=
    List.forall_mem_cons.2 ⟨trivial, (Route.named names).toBlock f.body _ _⟩
  have hfields (a : List String) (f : FieldDecl) :
      ∀ site ∈ f.sites (nameRules names) a, site.Named names := by
    unfold FieldDecl.sites
    cases f.initializer with
    | none => exact List.forall_mem_nil _
    | some e => exact (Route.named names).toExpr e a
  cases d with
  | function f => exact hfunctions a false f
  | classLike c =>
    exact List.forall_mem_cons.2 ⟨trivial, List.forall_mem_append.2
      ⟨List.forall_mem_flatMap.2 fun f _ => hfields _ f,
        List.forall_mem_flatMap.2 fun f _ => hfunctions _ true f⟩⟩
  | struct s | spark s => exact List.forall_mem_flatMap.2 fun f _ => hfields a f
  | impl i => exact List.forall_mem_flatMap.2 fun f _ => hfunctions a true f
  | data _ | trait _ | interface _ => exact List.forall_mem_nil _
  | script s =>
    cases s with
    | expr node value => exact (Route.named names).toExpr value a
    | letBind node pattern ty isMutable value =>
      exact List.forall_mem_append.2 ⟨(Route.named names).toExpr value a,
        List.forall_mem_singleton.2 ha⟩

end Names

/-- The construction comes by a pattern in one scope, and defines its names there. -/
theorem Builder.Built.pattern_defined {intrinsics : List (String × TypeExpr)} {u : SourceUnit}
    {b : Builder} (h : b.Built intrinsics u) {owner : Option NodeId} {p : Pattern}
    (hp : .pattern owner p ∈ u.sites ownerRules none) :
    ∃ scope, b.table.scopeOf? owner = some scope ∧ (∀ v ∈ p.visits scope, v ∈ b.visits) ∧
      ∀ name ∈ p.defined b.table.decls, b.table.scopes.Binds scope name := by
  obtain ⟨site, hsite, hrelated⟩ := exists_of_forall₂ h.sites_related hp
  obtain _ | _ | @⟨_, scope, _, hscope⟩ | _ := hrelated
  refine ⟨scope, hscope, fun v hv => ?_, fun name hname => ?_⟩
  · rw [← Array.mem_toList_iff, h.visits]
    exact List.mem_flatMap.2 ⟨_, hsite, hv⟩
  · have hbound : List.Forall₂
        (Site.Related fun scope around => ∀ name ∈ around, b.table.scopes.Binds scope name)
        (u.scopeSites b.table) (u.sites (nameRules (Pattern.defined b.table.decls))
          (u.scriptNames (Pattern.defined b.table.decls))) := by
      refine u.sites_related (fun name hname => (h.global name).2 (.inr hname))
        ⟨fun _ _ hplace => hplace, fun place o ho _ _ name hname => ?_⟩
      obtain ⟨n, hn⟩ := List.mem_iff_getElem?.1 (mem_openings.2 ho)
      obtain ⟨hid, hholds⟩ := h.opened n place o hn
      change b.table.scopes.Binds (b.table.scopeFor o.id place) name
      rw [SymbolTable.scopeFor, hid]
      exact (hholds.binds name).2 hname
    obtain ⟨beside, hbeside, hrelated⟩ := exists_of_forall₂ hbound hsite
    obtain _ | _ | @⟨_, around, _, haround⟩ | _ := hrelated
    obtain ⟨d, hd, hbeside⟩ := List.mem_flatMap.1 hbeside
    have hglobal : d.scriptNames _ ⊆ u.scriptNames (Pattern.defined b.table.decls) :=
      fun _ hmem => List.mem_flatMap.2 ⟨d, hd, hmem⟩
    exact haround name (d.named _ hglobal _ hbeside hname)

/-! ## The calls of the two walks -/

/-- The calls on a site are on the nodes that it shows. -/
theorem Site.map_id_visits (site : Site ScopeId) :
    site.visits.map (fun v => v.id) = site.nodeIds := by
  cases site with
  | pattern scope p =>
    simp only [visits, Pattern.visits, nodeIds, List.map_map, Function.comp_def, List.map_id']
  | _ => rfl

/-- The construction comes by no node twice. -/
theorem Builder.Built.nodup_visits {intrinsics : List (String × TypeExpr)} {u : SourceUnit}
    {b : Builder} (h : b.Built intrinsics u) (hids : u.ids.Nodup) :
    (b.visits.toList.map fun v => v.id).Nodup := by
  rw [h.visits, List.map_flatMap]
  simp only [Site.map_id_visits]
  exact nodup_of_subperm (u.nodeIds_subperm (scopeRules b.table) .global) hids

/-- A check stands in the scope that the table has for a place, where it stands at all. -/
theorem SourceUnit.standing_related (u : SourceUnit) (table : SymbolTable) (standing : Standing)
    (hscope : standing.scope = .global) :
    List.Forall₂ (Site.Related fun (st : Option Standing) scope => ∀ s ∈ st, s.scope = scope)
      (u.sites (standingRules table) (some standing)) (u.scopeSites table) := by
  refine u.sites_related (by simpa using hscope) ⟨fun _ _ _ => by simp [standingRules], ?_⟩
  intro st o _ scope hst s hs
  obtain ⟨around, haround, rfl⟩ := Option.map_eq_some_iff.1 hs
  exact congrArg (table.scopeFor o.id) (hst around haround)

/-- The calls of a check on a site are among those of the construction on it. -/
theorem Site.calls_subset_visits {st : Site (Option Standing)} {site : Site ScopeId}
    (h : Site.Related (fun (st : Option Standing) scope => ∀ s ∈ st, s.scope = scope) st site) :
    st.calls ⊆ site.visits := by
  cases h with
  | @expr place scope e hplace | @block place scope e hplace | @pattern place scope e hplace =>
    cases place with
    | none => exact List.nil_subset _
    | some s =>
      obtain rfl := hplace s rfl
      exact List.Subset.refl _
  | opening => exact List.nil_subset _

section Prepared

variable (options : Options) (intrinsics : List (String × TypeExpr)) (u : SourceUnit)

/-- What a check starts from. -/
theorem SourceUnit.prepare_eq :
    u.prepare options intrinsics =
      let b := Builder.ofUnit intrinsics u
      let r := Registry.ofLists b.traits b.impls
      { context := { table := b.table, registry := r.1, options }
        session := { scopes := b.table.scopes, findings := b.findings ++ r.2 } } := by
  unfold SourceUnit.prepare
  generalize Builder.ofUnit intrinsics u = b
  rcases Registry.ofLists b.traits b.impls with ⟨registry, found⟩
  rfl

/-- What a check of a prepared unit does, from the scopes of the table on. Problems of place of a
kind come from the results of functions and from the sites. -/
theorem SourceUnit.prepare_follows (hids : u.ids.Nodup) :
    let b := Builder.ofUnit intrinsics u
    let p := u.prepare options intrinsics
    let sites := u.sites (standingRules b.table) (some ⟨.global, {}⟩)
    let s := ((Check.unit p.context u).run p.session).2
    (∀ v ∈ s.visits, v ∈ sites.flatMap Site.calls) ∧
      ∀ kind : Finding → Bool, (∀ f : Finding, kind f = true → f.problem.isPlacement = true) →
        (s.findings.filter kind).Perm
          ((u.functions.flatMap (FunctionDecl.placement p.context s.types)).filter kind ++
            (sites.flatMap (Site.placement p.context b.table.scopes s.types)).filter kind) := by
  have hbuilt := Builder.built_ofUnit intrinsics hids
  rw [u.prepare_eq options intrinsics]
  generalize Builder.ofUnit intrinsics u = b at hbuilt ⊢
  intro b' p sites s
  have hwalk := (Check.unit_follows b.table.scopes s.types p.context {} u).run
    p.session rfl
  refine ⟨fun v hv => (hwalk.calls v hv).resolve_left (by simp [p]), fun kind hkind => ?_⟩
  have hfound := hwalk.problems ⟨(List.nodup_cons.1 hids).2, fun _ _ => rfl⟩ (.refl _ _)
    fun _ _ => rfl
  have hbefore : placement p.session.findings = [] := by
    have hregistered := (Registry.reports_ofLists b.traits b.impls).placement_eq_nil (by decide)
    rw [placement_append, hbuilt.placement, hregistered]
    rfl
  rw [hbefore, List.nil_append] at hfound
  rw [← filter_placement hkind, ← List.filter_append]
  exact hfound.filter kind

end Prepared

/-- An analysis is a check that starts from the table and the registry of the unit. -/
theorem analyze_eq (config : Config) (u : SourceUnit) :
    analyze config u =
      let b := Builder.ofUnit config.readableIntrinsics u
      let r := Registry.ofLists b.traits b.impls
      let s := ((Check.unit { table := b.table, registry := r.1, options := config.analysis } u).run
        { scopes := b.table.scopes, findings := b.findings ++ r.2 }).2
      { table := { b.table with scopes := s.scopes }, types := s.types, registry := r.1,
        findings := s.findings } := by
  unfold analyze
  rw [u.prepare_eq]
  generalize Builder.ofUnit config.readableIntrinsics u = b
  rfl

/-- Every call of the check is a call that the construction made as well. -/
theorem Check.visits_subset (options : Options) (intrinsics : List (String × TypeExpr))
    {u : SourceUnit} (hids : u.ids.Nodup) {v : Visit}
    (hv : v ∈ ((Check.unit (u.prepare options intrinsics).context u).run
      (u.prepare options intrinsics).session).2.visits) :
    v ∈ (Builder.ofUnit intrinsics u).visits := by
  have hbuilt := Builder.built_ofUnit intrinsics hids
  obtain ⟨st, hst, hvst⟩ :=
    List.mem_flatMap.1 ((u.prepare_follows options intrinsics hids).1 v hv)
  have hbeside := u.standing_related (Builder.ofUnit intrinsics u).table
    ⟨.global, {}⟩ rfl
  obtain ⟨site, hsite, hrelated⟩ := exists_of_forall₂ hbeside hst
  rw [← Array.mem_toList_iff, hbuilt.visits]
  exact List.mem_flatMap.2 ⟨site, hsite, Site.calls_subset_visits hrelated hvst⟩

/-- The scopes of a table are those of the constructs of a unit, the names of its patterns are in
these scopes, and calls on its nodes are made in the scopes in which the construction came by them.
-/
structure Builder.ScopesAgree (u : SourceUnit) (calls : Array Visit) (b : Builder) : Prop where
  /-- Each construct has a scope of its kind, directly below the scope in force where it stands. -/
  constructs : ∀ owner o, (owner, o) ∈ u.scopedNodes →
    ∃ scope s parent, b.table.scopeMap.get? o.id = some scope ∧
      b.table.scopes.get? scope = some s ∧ s.kind = o.kind ∧
      b.table.scopeOf? owner = some parent ∧ s.parent? = some parent
  /-- There is one scope for each construct, and the global one. -/
  size : b.table.scopes.size = 1 + u.scopedNodes.length
  /-- Every scope but the global one is that of exactly one construct. -/
  unique : ∀ scope : ScopeId, scope ≠ .global → scope.index < b.table.scopes.size →
    ∃! n : Fin u.scopedNodes.length,
      b.table.scopeMap.get? (u.scopedNodes.get n).2.id = some scope
  /-- A call is on a node that the construction came by, once and in the same scope. -/
  calls : ∀ v ∈ calls, v ∈ b.visits ∧ ∀ w ∈ b.visits, w.id = v.id → w = v
  /-- The construction came by a pattern in the scope in force where it stands, and its names are
  defined there. -/
  patterns : ∀ owner p, .pattern owner p ∈ u.sites ownerRules none →
    ∃ scope, b.table.scopeOf? owner = some scope ∧ (∀ v ∈ p.visits scope, v ∈ b.visits) ∧
      ∀ name ∈ p.defined b.table.decls, b.table.scopes.Binds scope name

/-- **Agreement on scopes.** When no two nodes of a unit have the same identity, its construction
has the scopes of its constructs and no others, defines the names of every pattern in the scope in
which it comes by the pattern, and its check calls on every node in the scope in which the
construction came by that node. -/
theorem construction_and_check_agree_on_scopes (options : Options)
    (intrinsics : List (String × TypeExpr)) (u : SourceUnit) (hids : u.ids.Nodup) :
    (Builder.ofUnit intrinsics u).ScopesAgree u
      ((Check.unit (u.prepare options intrinsics).context u).run
        (u.prepare options intrinsics).session).2.visits := by
  have hbuilt := Builder.built_ofUnit intrinsics hids
  refine ⟨fun owner o ho => ?_, hbuilt.size_eq, fun scope hne hlt => ?_, fun v hv => ?_,
    fun owner p hp => hbuilt.pattern_defined hp⟩
  · obtain ⟨n, hn⟩ := List.mem_iff_getElem?.1 ho
    obtain ⟨hid, place, howner, hholds⟩ := hbuilt.scope_of_scopedNode hn
    obtain ⟨s, hs, hkind, hparent⟩ := hholds.exists_scope
    exact ⟨_, s, place, hid, hs, hkind, howner, hparent⟩
  · -- The construct at position `n` has the scope `1 + n`, so the position can be read off.
    have hpos : scope.index ≠ 0 := fun h0 => hne (congrArg ScopeId.mk h0)
    have hentry (n : Fin u.scopedNodes.length) :
        (Builder.ofUnit intrinsics u).table.scopeMap.get? (u.scopedNodes.get n).2.id =
          some ⟨1 + n⟩ :=
      (hbuilt.scope_of_scopedNode (List.getElem?_eq_getElem n.isLt)).1
    have hsize := hbuilt.size_eq
    refine ⟨⟨scope.index - 1, by omega⟩, ?_, fun n hn => ?_⟩
    · refine (hentry _).trans (congrArg (fun i => some (ScopeId.mk i)) ?_)
      change 1 + (scope.index - 1) = scope.index
      omega
    · have heq : (⟨1 + n⟩ : ScopeId) = scope := Option.some.inj ((hentry n).symm.trans hn)
      refine Fin.ext ?_
      change n.val = scope.index - 1
      rw [← heq, Nat.add_sub_cancel_left]
  · have hmem := Check.visits_subset options intrinsics hids hv
    refine ⟨hmem, fun w hw hid => ?_⟩
    exact List.inj_on_of_nodup_map (hbuilt.nodup_visits hids) (Array.mem_toList_iff.2 hw)
      (Array.mem_toList_iff.2 hmem) hid

/-- A unit with every construct that opens a scope: a class with a method, and a function with a
`let` of a lambda, a loop, a match, a handler and a `concurrent` block whose name is the result. -/
def everyConstruct : SourceUnit :=
  let node (n : UInt64) : Node := ⟨⟨n⟩, {}⟩
  let block (n : UInt64) : Block := ⟨node n, [], none⟩
  { node := node 0
    decls :=
      [.classLike
        { node := node 1, kind := .plain, name := "C",
          methods := [{ node := node 2, name := "m", body := block 3 }] },
      .function
        { node := node 4, name := "f",
          body :=
            ⟨node 5,
              [.letBind (node 6) (.bare (node 7) "x") none false
                (.lambda (node 8) [⟨node 9, "y", none⟩] false
                  ⟨node 10, [], some (.ident (node 11) "y")⟩),
              .expr (node 12)
                (.forLoop (node 13) (.bare (node 14) "i") (.ident (node 15) "x") (block 16)),
              .expr (node 17)
                (.matchOn (node 18) (.ident (node 19) "x")
                  [⟨node 20, .tuple (node 21) [.bare (node 22) "z"], none,
                    .ident (node 23) "z"⟩]),
              .expr (node 24) (.tryCatch (node 25) (block 26) [⟨node 27, "e", none, block 28⟩] none),
              .expr (node 29) (.concurrent (node 30) [⟨node 31, "r", .ident (node 32) "x"⟩])],
              some (.ident (node 33) "r")⟩ }] }

/-- A unit with every construct. -/
theorem scopes_agree_everyConstruct :
    everyConstruct.ids.Nodup ∧ everyConstruct.scopedNodes.length = 15 ∧
      (Builder.ofUnit [] everyConstruct).ScopesAgree everyConstruct
        ((Check.unit (everyConstruct.prepare {} []).context everyConstruct).run
          (everyConstruct.prepare {} []).session).2.visits :=
  ⟨by decide, by decide,
    construction_and_check_agree_on_scopes {} [] everyConstruct (by decide)⟩

end UnitAnalysis

import Mathlib.Data.List.Nodup
import UnitAnalysis.Proofs.Scope.Agreement

/-!
# The types of a unit

What an analysis leaves in its two tables. Code is generated from the types of the nodes, and names
in it are looked up again in the symbol table, so the two have to fit together.

The first main result says that no node is without a type when code can be generated. The second one
says that the type of every name in a body or in the first value of a field is the type of the
symbol which the name stands for at the end of the analysis: no name is read before its symbol has a
type. It does not speak of the script, where a name can be read before its `let`.
-/

set_option autoImplicit false

namespace UnitAnalysis

/-! ## The scopes of a unit are apart -/

/-- The scopes that are opened where a check stands are among those that the table has. -/
theorem SymbolTable.opened_sublist {t : SymbolTable} {sites : List (Site (Option Standing))}
    {places : List (Site ScopeId)}
    (h : List.Forall₂ (Site.Related fun (st : Option Standing) scope => ∀ s ∈ st, s.scope = scope)
      sites places) :
    (t.opened sites).Sublist ((openings places).map fun p => t.scopeFor p.2.id p.1) := by
  induction h with
  | nil => exact .slnil
  | cons hsite _ ih =>
    cases hsite with
    | @opening st scope o hplace =>
      cases st with
      | none => exact ih.cons _
      | some s =>
        obtain rfl := hplace s rfl
        exact ih.cons_cons _
    | _ => exact ih

namespace Builder.Built

variable {intrinsics : List (String × TypeExpr)} {u : SourceUnit} {b : Builder}

/-- The scopes of the constructs of a unit are those after the global one, in order. -/
theorem map_scopeFor_openings (h : b.Built intrinsics u) :
    ((openings (u.scopeSites b.table)).map fun p => b.table.scopeFor p.2.id p.1) =
      (List.range (openings (u.scopeSites b.table)).length).map fun n => ⟨1 + n⟩ := by
  refine List.ext_getElem (by simp) fun n hn _ => ?_
  rw [List.length_map] at hn
  obtain ⟨hid, -⟩ := h.opened n (openings (u.scopeSites b.table))[n].1
    (openings (u.scopeSites b.table))[n].2 (List.getElem?_eq_getElem hn)
  rw [List.getElem_map, List.getElem_map, List.getElem_range, SymbolTable.scopeFor, hid,
    Option.getD_some]

/-- A check comes by no scope twice, and never by the global one. -/
theorem nodup_opened (h : b.Built intrinsics u) {standing : Standing}
    (hscope : standing.scope = .global) :
    (ScopeId.global :: b.table.opened (u.sites (standingRules b.table) (some standing))).Nodup := by
  have hsub := SymbolTable.opened_sublist (t := b.table) (u.standing_related b.table standing hscope)
  rw [h.map_scopeFor_openings] at hsub
  refine List.nodup_cons.2 ⟨fun hmem => ?_, List.Nodup.sublist hsub ?_⟩
  · obtain ⟨n, -, heq⟩ := List.mem_map.1 (hsub.subset hmem)
    have hindex : 1 + n = 0 := congrArg ScopeId.index heq
    omega
  · refine List.nodup_range.map fun m n heq => ?_
    have hindex : 1 + m = 1 + n := congrArg ScopeId.index heq
    omega

/-- A check comes by the scopes of the constructs as they lie in one another. -/
theorem nested_sites (h : b.Built intrinsics u) {standing : Standing}
    (hscope : standing.scope = .global) :
    b.table.Nested (u.sites (standingRules b.table) (some standing)) := by
  intro s o ho
  obtain ⟨site, hsite, hrelated⟩ :=
    exists_of_forall₂ (u.standing_related b.table standing hscope) ho
  cases hrelated with
  | opening hplace =>
    obtain rfl := hplace s rfl
    obtain ⟨n, hn⟩ := List.mem_iff_getElem?.1 (mem_openings.2 hsite)
    obtain ⟨hid, hholds⟩ := h.opened n s.scope o hn
    rw [SymbolTable.scopeFor, hid, Option.getD_some]
    exact hholds.enclosing

end Builder.Built

/-! ## Every node has a type -/

/-- A place is reached unless it lies in a target that cannot be assigned to. -/
def reachRules : Rules Bool :=
  ⟨fun isReached _ => isReached, fun _ => false⟩

/-- A check stands at the places that are reached. -/
theorem SourceUnit.reached_related (u : SourceUnit) (table : SymbolTable) (st : Standing) :
    List.Forall₂ (Site.Related fun isReached (standing : Option Standing) =>
      isReached = standing.isSome) (u.sites reachRules true)
      (u.sites (standingRules table) (some st)) :=
  u.sites_related rfl ⟨fun _ _ _ => rfl, fun _ _ _ _ h => h.trans Option.isSome_map.symm⟩

/-- What the analysis of a unit leaves at the nodes of the sites of its check. -/
theorem SourceUnit.typed_of_mem_sites (config : Config) {u : SourceUnit} (hids : u.ids.Nodup)
    {site : Site (Option Standing)} {id : NodeId}
    (hsite : site ∈ u.sites
      (standingRules (Builder.ofUnit config.readableIntrinsics u).table) (some ⟨.global, {}⟩))
    (hid : id ∈ site.typedIds) :
    ((analyze config u).types.get? id).isSome ∨
      site.place = none ∧ ∃ f ∈ (analyze config u).findings, f.problem = .invalidTarget := by
  rw [analyze_eq]
  generalize Builder.ofUnit config.readableIntrinsics u = b at hsite ⊢
  exact ((Check.unit_follows {} {} ⟨b.table,
    (Registry.ofLists b.traits b.impls).1, config.analysis⟩ {} u).run _ rfl).typed
      ⟨(List.nodup_cons.1 hids).2, fun _ _ => rfl⟩ site hsite id hid

/-- **Every node that is reached has a type.** This holds whatever is wrong with the unit, as long
as no two of its nodes have the same identity. -/
theorem SourceUnit.isSome_of_reached (config : Config) {u : SourceUnit} (hids : u.ids.Nodup)
    {site : Site Bool} (hsite : site ∈ u.sites reachRules true) (hplace : site.place = true)
    {id : NodeId} (hid : id ∈ site.typedIds) :
    ((analyze config u).types.get? id).isSome := by
  obtain ⟨other, hother, hrelated⟩ := exists_of_forall₂ (u.reached_related _ _) hsite
  have hsame : site.typedIds = other.typedIds ∧ site.place = other.place.isSome := by
    cases hrelated with
    | expr h | block h | pattern h | opening h => exact ⟨rfl, h⟩
  refine (typed_of_mem_sites config hids hother (hsame.1 ▸ hid)).resolve_right fun hskipped => ?_
  rw [hsame.2, hskipped.1] at hplace
  cases hplace

/-- Where code can be generated, every target can be assigned to. -/
theorem Analysis.no_invalidTarget {a : Analysis} (h : a.canGenerate = true) {f : Finding}
    (hf : f ∈ a.findings) : f.problem ≠ .invalidTarget := by
  intro hproblem
  have hseverity := of_decide_eq_true (List.all_eq_true.1 h f hf)
  rw [hproblem] at hseverity
  exact hseverity rfl

/-- **Every node has a type.** When no two nodes of a unit have the same identity and code can be
generated, every expression and every block of the script, of the bodies and of the first values of
fields has a type. -/
theorem types_cover_unit_of_canGenerate (config : Config) (u : SourceUnit) (hids : u.ids.Nodup)
    (hgenerates : (analyze config u).canGenerate = true) :
    (∀ e, .expr () e ∈ u.sites blindRules () → ((analyze config u).types.get? e.id).isSome) ∧
      ∀ b, .block () b ∈ u.sites blindRules () → ((analyze config u).types.get? b.id).isSome := by
  have htargets (f : Finding) (hf : f ∈ (analyze config u).findings) :=
    Analysis.no_invalidTarget hgenerates hf
  have htyped (site : Site (Option Standing)) (hsite : site ∈ u.sites
      (standingRules (Builder.ofUnit config.readableIntrinsics u).table) (some ⟨.global, {}⟩))
      (id : NodeId) (hid : id ∈ site.typedIds) : ((analyze config u).types.get? id).isSome :=
    (SourceUnit.typed_of_mem_sites config hids hsite hid).resolve_right
      fun ⟨_, f, hf, hproblem⟩ => htargets f hf hproblem
  have hsame : List.Forall₂ (Site.Related fun _ _ => True) (u.sites blindRules ())
      (u.sites (standingRules (Builder.ofUnit config.readableIntrinsics u).table)
        (some ⟨.global, {}⟩)) :=
    u.sites_related trivial .all
  constructor
  · intro e he
    obtain ⟨site, hsite, hrelated⟩ := exists_of_forall₂ hsame he
    cases hrelated with
    | expr => exact htyped _ hsite e.id List.mem_cons_self
  · intro body hbody
    obtain ⟨site, hsite, hrelated⟩ := exists_of_forall₂ hsame hbody
    cases hrelated with
    | block => exact htyped _ hsite body.id (List.mem_singleton_self _)

/-- A function with a lambda that is called in a loop, and a match on a global name. -/
def best : FunctionDecl :=
  let node (n : UInt64) : Node := ⟨⟨n⟩, {}⟩
  let int : TypeExpr := .named {} "Int" []
  { node := node 4, name := "best", returnType := some int
    params := [{ node := node 5, name := "xs", ty := .array {} int }]
    body :=
      ⟨node 6,
        [.letBind (node 7) (.bare (node 8) "double") none false
          (.lambda (node 9) [⟨node 10, "x", some int⟩] false
            ⟨node 11, [],
              some (.binary (node 12) .add (.ident (node 13) "x") (.ident (node 14) "x"))⟩),
        .expr (node 15)
          (.forLoop (node 16) (.bare (node 17) "x") (.ident (node 18) "xs")
            ⟨node 19, [],
              some (.call (node 20) (.ident (node 21) "double") [.ident (node 22) "x"])⟩)],
        some (.matchOn (node 23) (.ident (node 24) "start")
          [⟨node 25, .bare (node 26) "y", none, .ident (node 27) "y"⟩])⟩ }

/-- A unit without errors, in which a field and a function use a global name that comes last. -/
def scores : SourceUnit :=
  let node (n : UInt64) : Node := ⟨⟨n⟩, {}⟩
  { node := node 0
    decls :=
      [.classLike
        { node := node 1, kind := .plain, name := "Score"
          fields :=
            [{ node := node 2, name := "points", ty := .named {} "Int" []
               initializer := some (.ident (node 3) "start") }] },
      .function best,
      .script
        (.letBind (node 28) (.bare (node 29) "start") none false (.literal (node 30) (.int 1)))] }

/-- Every node of it has a type. -/
theorem types_cover_scores :
    scores.ids.Nodup ∧ (analyze {} scores).canGenerate = true ∧
      (∀ e, .expr () e ∈ scores.sites blindRules () →
        ((analyze {} scores).types.get? e.id).isSome) ∧
      ∀ b, .block () b ∈ scores.sites blindRules () →
        ((analyze {} scores).types.get? b.id).isSome :=
  ⟨by decide, by decide +kernel,
    types_cover_unit_of_canGenerate {} scores (by decide) (by decide +kernel)⟩

/-! ## The types of names -/

/-- The scope in force at a place that is looked at. A target that cannot be assigned to is not. -/
def seenRules (t : SymbolTable) : Rules (Option ScopeId) where
  enter scope o := scope.map (t.scopeFor o.id)
  skip _ := none

/-- Both descriptions of a declaration name the same scopes. -/
theorem Decl.seen_related (d : Decl) (t : SymbolTable) (standing : Standing) :
    List.Forall₂ (Site.Related fun scope st => st.map Standing.scope = scope)
      (d.sites (seenRules t) (some standing.scope)) (d.sites (standingRules t) (some standing)) := by
  refine d.sites_related rfl ⟨fun _ _ _ => rfl, fun scope o _ st hst => ?_⟩
  rw [← hst]
  cases st <;> rfl

namespace Check

variable {intrinsics : List (String × TypeExpr)} {u : SourceUnit} {b : Builder}

/-- After the script the bodies find their nodes without types and their scopes apart. -/
theorem ready_for_bodies (hbuilt : b.Built intrinsics u) (hids : u.ids.Nodup) (ctx : Context)
    {s : Session} (htypes : s.types = {})
    (hscopes : s.scopes = b.table.scopes) (standing : Standing)
    (hscope : standing.scope = .global) :
    ((u.decls.forM (declScript ctx)).run s).2.Ready b.table .global []
      (u.decls.flatMap fun d => unlessScript d d.ids)
      (u.decls.flatMap fun d =>
        unlessScript d (d.sites (standingRules b.table) (some standing))) := by
  have hscript := (Follows.forM u.decls (declScript_follows {} {} ctx s.around)).run s rfl
  have hperm := flatMap_ifScript_perm u.decls Decl.ids
  obtain ⟨-, hnodup, hapart⟩ := List.nodup_append.1 (hperm.nodup_iff.2 (List.nodup_cons.1 hids).2)
  -- The sites of the bodies are among those of the unit, and so are their scopes.
  have hsites := flatMap_ifScript_perm u.decls (Decl.sites (standingRules b.table) (some standing))
  have hopened := hsites.filterMap (Site.opened? b.table)
  rw [List.filterMap_append] at hopened
  obtain ⟨hglobal, hdistinct⟩ := List.nodup_cons.1 (hbuilt.nodup_opened hscope)
  refine ⟨⟨hnodup, fun id hid => ?_⟩, fun c => ?_,
    (List.nodup_append.1 (hopened.nodup_iff.2 hdistinct)).2.1, fun c hc hmem => ?_, by simp,
    (hbuilt.nested_sites hscope).mono fun site hsite =>
      hsites.subset (List.mem_append_right _ hsite)⟩
  · rw [hscript.types id fun hmem => hapart id hmem id hid rfl, htypes]
    rfl
  · rw [hscript.scopes.enclosing, hscopes]
  · rw [SymbolTable.chain, hbuilt.outermost, List.mem_singleton] at hc
    exact hglobal (hc ▸ hopened.subset (List.mem_append_right _ hmem))

end Check

/-- **The types of names.** When no two nodes of a unit have the same identity, every name in a body
or in the first value of a field has the type of the symbol that it stands for at the end of the
analysis, in the scope that is in force there, and `Any` where it stands for none. This holds of all
names that are looked at. -/
theorem types_of_names_settled (config : Config) (u : SourceUnit) (hids : u.ids.Nodup) :
    let r := analyze config u
    ∀ d ∈ u.decls, d.isScript = false → ∀ scope node name,
      .expr (some scope) (.ident node name) ∈ d.sites (seenRules r.table) (some .global) →
      r.types.get? node.id = some (((r.table.scopes.lookup scope name).map Symbol.ty).getD .any) := by
  have hbuilt := Builder.built_ofUnit config.readableIntrinsics hids
  rw [analyze_eq]
  generalize Builder.ofUnit config.readableIntrinsics u = b at hbuilt ⊢
  intro r d hd hscript scope node name hname
  let ctx : Context := ⟨b.table, (Registry.ofLists b.traits b.impls).1, config.analysis⟩
  let s : Session :=
    { scopes := b.table.scopes, findings := b.findings ++ (Registry.ofLists b.traits b.impls).2 }
  have hready := Check.ready_for_bodies (s := s) hbuilt hids ctx rfl rfl ⟨.global, {}⟩ rfl
  have haround := ((Check.Follows.forM u.decls
    (Check.declScript_follows {} {} ctx {})).run s rfl).around
  have hagrees := ((Check.Follows.forM u.decls
    (Check.declBodies_follows {} {} ctx {})).run _ haround).agrees hready
    _ ⟨fun _ => rfl, fun _ _ _ => rfl, fun _ _ => rfl⟩
  -- The name stands among the sites of the bodies.
  obtain ⟨site, hsite, hrelated⟩ :=
    exists_of_forall₂ (d.seen_related b.table ⟨.global, {}⟩) hname
  cases hrelated with
  | expr hplace =>
    obtain ⟨standing, rfl, rfl⟩ := Option.map_eq_some_iff.1 hplace
    refine hagrees (.expr (some standing) (.ident node name)) (List.mem_flatMap.2 ⟨d, hd, ?_⟩)
    cases d with
    | script s => cases hscript
    | _ => exact hsite

/-- The call in the loop of `best` stands in the scope of the body of the loop. -/
theorem callee_mem_sites_best (t : SymbolTable) :
    .expr (some (t.scopeFor ⟨19⟩ (t.scopeFor ⟨16⟩ (t.scopeFor ⟨7⟩ (t.scopeFor ⟨6⟩
      (t.scopeFor ⟨4⟩ .global)))))) (.ident ⟨⟨21⟩, {}⟩ "double") ∈
      (Decl.function best).sites (seenRules t) (some .global) :=
  List.mem_of_getElem? (i := 19) rfl

/-- Names of the unit. -/
theorem types_of_names_scores :
    let r := analyze {} scores
    scores.ids.Nodup ∧ r.types.get? ⟨21⟩ = some (.function [.int] .int) ∧
      r.types.get? ⟨21⟩ =
        some (((r.table.scopes.lookup ⟨8⟩ "double").map Symbol.ty).getD .any) := by
  have hname := callee_mem_sites_best (analyze {} scores).table
  rw [show (analyze {} scores).table.scopeFor ⟨19⟩ _ = ⟨8⟩ by decide +kernel] at hname
  exact ⟨by decide, by decide +kernel, types_of_names_settled {} scores (by decide) (.function best)
    (by simp [scores]) rfl ⟨8⟩ ⟨⟨21⟩, {}⟩ "double" hname⟩

end UnitAnalysis

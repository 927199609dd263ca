import UnitAnalysis.Proofs.Check.TypeTable
import UnitAnalysis.Proofs.Generic.Bodies
import UnitAnalysis.Proofs.Generic.Construct

/-!
# Type parameters do not escape from functions

A call of a generic function has a type without the type parameters of the function: each of them
takes its type from an argument or becomes `Any`. So an expression inside a function can have the
type parameters of that function, and an expression outside of functions has none from there.

The type parameters of types, traits and implementations do get out. A variant of a generic data
type has the type of the data type as it is declared, so that a call of it has the type parameters
that the declaration has. A generic function that is named without being called takes its type
parameters along. The unit `openTypes` shows all of these ways.
-/

set_option autoImplicit false

namespace UnitAnalysis

variable {P : Provenance} {around : ScopeId → List String}

namespace Check

section Declarations

variable {ctx : Context} (hctx : ctx.Obeys P around)

include hctx

/-- Functions. -/
theorem keeps_function {f : FunctionDecl} (hf : P.CoversFunction f)
    (hopened : ∃ scope, ctx.table.scopeMap.get? f.node.id = some scope) (parent : ScopeId) :
    Keeps P ctx.table.functions around (function ctx parent f) := by
  obtain ⟨scope, hscope⟩ := hopened
  have hinner : around (ctx.table.scopeFor f.node.id parent) = f.paramNames := by
    rw [SymbolTable.scopeFor, hscope, Option.getD_some, (hctx.table.remembered _ _ hscope).2]
    exact hf.own f.node.id List.mem_cons_self
  exact (gives_inside _ (gives_inferBlock hctx hinner .block f.body hf.body)).bind fun t _ =>
    keeps_report _

/-- Field initializers. -/
theorem keeps_initializer {f : FieldDecl} (hf : P.CoversField f) {scope : ScopeId}
    (hscope : around scope = []) (owner : String) :
    Keeps P ctx.table.functions around (initializer ctx scope owner f) := by
  unfold initializer walkInitializer
  cases hvalue : f.initializer with
  | none => exact Keeps.pure ()
  | some e =>
    obtain ⟨hread, hsites⟩ := hf.value e hvalue
    exact (gives_inferExpr hctx hscope e hread hsites).bind fun t _ => keeps_report _

variable (hglobal : around .global = [])

include hglobal

/-- Script statements. -/
theorem keeps_declScript {d : Decl} (hd : P.CoversDecl d) :
    Keeps P ctx.table.functions around (declScript ctx d) := by
  have hparts := hd.parts
  cases d with
  | script s =>
    have hsites := hparts.sites
    cases s with
    | letBind node pattern ty isMutable value =>
      exact (gives_inferExpr hctx hglobal value hparts.value hsites.left).bind fun t ht =>
        keeps_bindLet hctx hglobal hparts.own pattern ht value.span
    | expr node value =>
      exact (gives_inferExpr hctx hglobal value hparts.value hsites).bind fun _ _ =>
        Keeps.pure ()
  | _ => exact Keeps.pure ()

/-- The bodies of a declaration. -/
theorem keeps_declBodies {d : Decl} (hd : P.CoversDecl d)
    (hopened : ∀ f ∈ d.functions, ∃ scope, ctx.table.scopeMap.get? f.node.id = some scope) :
    Keeps P ctx.table.functions around (declBodies ctx d) := by
  have hparts := hd.parts
  cases d with
  | function f => exact keeps_function hctx hparts (hopened f List.mem_cons_self) .global
  | classLike c =>
    obtain ⟨hown, hfields, hmethods⟩ := hparts
    have hscope := around_scopeFor hctx hglobal hown
    exact Keeps.bind (Meets.forM fun f hf => keeps_initializer hctx (hfields f hf) hscope c.name)
      fun _ => Meets.forM fun f hf => keeps_function hctx (hmethods f hf) (hopened f hf) _
  | struct s | spark s =>
    exact Meets.forM fun f hf => keeps_initializer hctx (hparts f hf) hglobal s.name
  | impl i => exact Meets.forM fun f hf => keeps_function hctx (hparts f hf) (hopened f hf) .global
  | _ => exact Keeps.pure ()

/-- A check of a unit keeps to a provenance that fits its declarations. -/
theorem keeps_unit {u : SourceUnit} (hu : ∀ d ∈ u.decls, P.CoversDecl d)
    (hopened : ∀ d ∈ u.decls, ∀ f ∈ d.functions,
      ∃ scope, ctx.table.scopeMap.get? f.node.id = some scope) :
    Keeps P ctx.table.functions around (unit ctx u) :=
  Keeps.bind (Meets.forM fun d hd => keeps_declScript hctx hglobal (hu d hd)) fun _ =>
    Meets.forM fun d hd => keeps_declBodies hctx hglobal (hu d hd) (hopened d hd)

end Declarations

end Check

/-! ## The types of a unit -/

/-- Every function of a unit opens a scope. -/
theorem Decl.opening_function (d : Decl) {f : FunctionDecl} (hf : f ∈ d.functions) :
    ∃ owner isMethod, .opening owner (.function f isMethod) ∈ d.sites ownerRules none := by
  obtain ⟨owner, isMethod, -, hsub⟩ := d.sites_function ownerRules none hf
  exact ⟨owner, isMethod, hsub List.mem_cons_self⟩

/-- The types that an analysis records have only the type parameters that may occur at their nodes.
-/
theorem within_types_of_analyze (config : Config) {u : SourceUnit} (hids : u.ids.Nodup)
    {id : NodeId} {t : Ty} (ht : (analyze config u).types.get? id = some t)
    (hid : id ∉ u.provenance.callees) :
    t.Within (u.paramsAround id ++ u.freeParams) := by
  rw [analyze_eq] at ht
  have hbuilt := Builder.built_ofUnit config.readableIntrinsics hids
  obtain ⟨htraits, himpls, around, htable, hplaces⟩ :=
    Builder.obeys_ofUnit config.readableIntrinsics hids
  generalize Builder.ofUnit config.readableIntrinsics u = b
    at ht hbuilt htraits himpls htable hplaces
  have hregistry : (Registry.ofLists b.traits b.impls).1.Within u.provenance.free :=
    Registry.within_ofLists htraits fun i hi m hm =>
      ((himpls i hi).2 m hm).mono (List.subset_cons_self _ _)
  have hctx : Context.Obeys u.provenance around
      ⟨b.table, (Registry.ofLists b.traits b.impls).1, config.analysis⟩ := ⟨htable, hregistry⟩
  have hopened : ∀ d ∈ u.decls, ∀ f ∈ d.functions,
      ∃ scope, b.table.scopeMap.get? f.node.id = some scope := by
    intro d hd f hf
    obtain ⟨owner, isMethod, hopening⟩ := d.opening_function hf
    exact hbuilt.get?_isSome (List.mem_flatMap.2 ⟨d, hd, hopening⟩)
  have hkeeps := Check.keeps_unit hctx (hplaces _ List.mem_cons_self).2
    (fun _ => SourceUnit.coversDecl hids) hopened
  exact (hkeeps.run _ ⟨htable.scopes, fun _ _ h => by cases h⟩).2 id t ht hid

/-- What a check reaches is a site of the unit. -/
theorem SourceUnit.mem_sites_of_reached {u : SourceUnit} {e : Expr}
    (he : .expr true e ∈ u.sites reachRules true) : .expr () e ∈ u.sites blindRules () := by
  have hsame : List.Forall₂ (Site.Related fun _ _ => True) (u.sites reachRules true)
      (u.sites blindRules ()) :=
    u.sites_related trivial .all
  obtain ⟨site, hsite, hrelated⟩ := exists_of_forall₂ hsame he
  cases hrelated with
  | expr => exact hsite

/-- **Type parameters stay where they belong.** Every expression that the check reaches, other than
a name, has a type, and a type parameter in it is one of the function around the expression, or one
that can get everywhere. Where there are none of either kind, the type has no type parameters. -/
theorem params_subset_of_reached (config : Config) (u : SourceUnit) (hids : u.ids.Nodup) (e : Expr)
    (he : .expr true e ∈ u.sites reachRules true) (hname : e.name? = none) :
    ∃ t, (analyze config u).types.get? e.id = some t ∧
      t.paramNames ⊆ u.paramsAround e.id ++ u.freeParams ∧
      (u.paramsAround e.id = [] → u.freeParams = [] → t.hasParams = false) := by
  have hsite := SourceUnit.mem_sites_of_reached he
  have hcallee : e.id ∉ u.provenance.callees := by
    intro hmem
    obtain ⟨other, name, hother, hid, hothername, -⟩ := SourceUnit.mem_callees.1 hmem
    have hsame := SourceUnit.site_unique hids hsite hother (List.mem_singleton_self _)
      (List.mem_singleton.2 hid.symm)
    cases hsame
    rw [hname] at hothername
    cases hothername
  have hreached := SourceUnit.isSome_of_reached config hids he rfl List.mem_cons_self
  obtain ⟨t, ht⟩ := Option.isSome_iff_exists.1 hreached
  have hwithin := within_types_of_analyze config hids ht hcallee
  refine ⟨t, ht, hwithin, fun haround hfree => Ty.within_nil.1 ?_⟩
  rw [haround, hfree] at hwithin
  exact hwithin

/-- A call of a generic function whose arguments leave a type parameter open. -/
def openCall : Expr :=
  let node (n : UInt64) : Node := ⟨⟨n⟩, {}⟩
  .call (node 10) (.ident (node 11) "found") [.ident (node 12) "n"]

/-- A generic function that is called from itself and from one without type parameters. -/
def calls : SourceUnit :=
  let node (n : UInt64) : Node := ⟨⟨n⟩, {}⟩
  let named (name : String) : TypeExpr := .named {} name []
  { node := node 0
    decls :=
      [.function
        { node := node 1, name := "found", typeParams := [⟨"T", []⟩, ⟨"U", []⟩]
          params := [⟨node 2, "key", named "U", false⟩]
          returnType := some (.tuple {} [named "T", named "U"])
          body :=
            ⟨node 3, [],
              some (.call (node 4) (.ident (node 5) "found") [.ident (node 6) "key"])⟩ },
      .function
        { node := node 7, name := "main", params := [⟨node 8, "n", named "Int", false⟩]
          body := ⟨node 9, [], some openCall⟩ }] }

/-- A call in a closed unit. -/
theorem params_subset_of_calls :
    calls.ids.Nodup ∧ .expr true openCall ∈ calls.sites reachRules true ∧
      openCall.name? = none ∧ calls.paramsAround openCall.id = [] ∧ calls.freeParams = [] ∧
      ∃ t, (analyze {} calls).types.get? openCall.id = some t ∧
        t.paramNames ⊆ calls.paramsAround openCall.id ++ calls.freeParams ∧
        (calls.paramsAround openCall.id = [] → calls.freeParams = [] → t.hasParams = false) := by
  have hmem : .expr true openCall ∈ calls.sites reachRules true :=
    List.mem_of_getElem? (i := 9) rfl
  have hids : calls.ids.Nodup := by decide
  exact ⟨hids, hmem, rfl, by decide, by decide,
    params_subset_of_reached {} calls hids openCall hmem rfl⟩

/-- The ways in which type parameters get out: a variant, a struct literal, a method of a generic
implementation and of a generic trait, a generic function as a value. The last statement assigns to
a call. -/
def openTypes : SourceUnit :=
  let node (n : UInt64) : Node := ⟨⟨n⟩, {}⟩
  let named (name : String) : TypeExpr := .named {} name []
  let one (n : UInt64) : Expr := .literal (node n) (.int 1)
  { node := node 0
    decls :=
      [.data
        { node := node 1, name := "Opt", typeParams := [⟨"T", []⟩]
          variants :=
            [{ node := node 2, name := "Nothing" },
              { node := node 3, name := "Just"
                fields := [{ node := node 4, name := "value", ty := named "T" }] }] },
      .struct { node := node 5, name := "Box", typeParams := [⟨"U", []⟩] },
      .classLike { node := node 6, name := "Holder" },
      .impl
        { node := node 7, typeParams := [⟨"V", []⟩], target := named "Holder"
          methods :=
            [{ node := node 8, name := "get", returnType := some (named "V")
               body := ⟨node 9, [], none⟩ }] },
      .trait
        { node := node 10, name := "Source", typeParams := [⟨"W", []⟩]
          methods := [{ node := node 11, name := "take", returnType := some (named "W") }] },
      .impl
        { node := node 12, traitName := some "Source", traitArgs := [named "Int"]
          target := named "Holder" },
      .function
        { node := node 13, name := "same", typeParams := [⟨"X", []⟩]
          params := [⟨node 14, "x", named "X", false⟩], returnType := some (named "X")
          body := ⟨node 15, [], some (.ident (node 16) "x")⟩ },
      .function
        { node := node 17, name := "main", params := [⟨node 18, "h", named "Holder", false⟩]
          body :=
            ⟨node 19,
              [.expr (node 20) (.call (node 21) (.ident (node 22) "Nothing") []),
              .expr (node 23) (.structLit (node 24) "Box" []),
              .expr (node 25) (.methodCall (node 26) (.ident (node 27) "h") none "get" []),
              .expr (node 28) (.methodCall (node 29) (.ident (node 30) "h") none "take" []),
              .letBind (node 31) (.bare (node 32) "f") none false (.ident (node 33) "same"),
              .expr (node 34) (.call (node 35) (.ident (node 36) "f") [one 37]),
              .expr (node 38)
                (.assign (node 39) (.call (node 40) (.ident (node 41) "same") [one 42]) (one 43))],
              none⟩ }] }

/-- Types that mention parameters no declaration around them binds. -/
theorem open_types_recorded :
    openTypes.ids.Nodup ∧
      [21, 24, 26, 29, 35, 40].map
          (fun id => (openTypes.paramsAround ⟨id⟩, (analyze {} openTypes).types.get? ⟨id⟩)) =
        [([], some (.generic "Opt" [.bounded "T" []])),
          ([], some (.generic "Box" [.bounded "U" []])), ([], some (.bounded "V" [])),
          ([], some (.bounded "W" [])), ([], some (.bounded "X" [])), ([], none)] := by
  exact ⟨by decide, by decide +kernel⟩

end UnitAnalysis

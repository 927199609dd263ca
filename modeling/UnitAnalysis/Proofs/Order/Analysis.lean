import UnitAnalysis.Proofs.Order.CheckRounds
import UnitAnalysis.Proofs.Order.Distinct

/-!
# The order of declarations

The declarations of a unit may be written in any order, as long as the statements of the script keep
theirs. The construction of the symbol table shows the same for both units (`Builder.ofUnit_same`),
and the registry holds the same (`Registry.ofLists_permuted`). The check is then compared in two
steps: first both orders are checked in the context of the first unit (`Check.unit_same`), and then
the second order is checked in both contexts, whose scopes have different numbers
(`Check.unit_perm`). So the analysis differs in nothing but the order of lists.
-/

set_option autoImplicit false

namespace UnitAnalysis

/-- Two analyses with the same results, in which only lists may have another order. -/
structure Analysis.SameUpToOrder (a a' : Analysis) : Prop where
  types : ∀ id, a.types.get? id = a'.types.get? id
  decls : a.table.decls.Alike a'.table.decls
  globals : ∀ name, a.global? name = a'.global? name
  traits : ∀ name, a.registry.get? name = a'.registry.get? name
  impls : a.registry.Rearranged a'.registry
  diagnostics : a.diagnostics.Perm a'.diagnostics

/-! ## What a check starts from -/

namespace Builder.Same

variable {b b' : Builder}

/-- A check sees the same, when calls have the same answers. -/
theorem context_alike (h : Same b b') {r r' : Registry} (hr : r.SameAnswers r')
    (options : Options) :
    Context.Alike { table := b.table, registry := r, options }
      { table := b'.table, registry := r', options } where
  options := rfl
  decls := (h.agree Key.index).alike
  functions id := congrArg NodeRecord.signature (h.view (.node id))
  intrinsics name := congrArg Prod.snd (h.view (.global name))
  registry := hr

/-- Same annotations. -/
theorem annotations (h : Same b b') (id : NodeId) :
    b.table.annotations.get? id = b'.table.annotations.get? id :=
  congrArg NodeRecord.annotation (h.view (.node id))

end Builder.Same

/-! ## Declarations that may change places -/

namespace SourceUnit

variable {intrinsics : List (String × TypeExpr)} {u : SourceUnit} {decls : List Decl}

/-- The declarations of a unit in another order have the same nodes. -/
theorem ids_perm (hperm : decls.Perm u.decls) : (ids { u with decls }).Perm u.ids :=
  (hperm.flatMap_right _).cons _

/-- When no name is declared twice, a permutation that keeps the order of the script rearranges the
declarations. -/
theorem rearranged_of_perm (hids : u.ids.Nodup) (hclean : (Builder.ofUnit intrinsics u).Clean)
    (htraits : (Builder.ofUnit intrinsics u).traitNames.Nodup) (hperm : decls.Perm u.decls)
    (hscript : decls.filter Decl.isScript = u.decls.filter Decl.isScript) :
    Rearranged (fun d d' => d ∈ u.decls ∧ d' ∈ u.decls ∧ d.Apart d') u.decls decls := by
  have hdisjoint : u.decls.Pairwise fun d d' => d.ids.Disjoint d'.ids :=
    (List.nodup_flatMap.1 (List.nodup_cons.1 hids).2).2
  refine .of_perm hperm.symm hscript.symm ?_
  refine (hdisjoint.and (pairwise_disjoint_ownNames hclean htraits)).imp_of_mem ?_
  intro d d' hd hd' hapart hfree
  exact ⟨hd, hd', hapart.1, hapart.2, hfree⟩

end SourceUnit

/-! ## The whole analysis -/

/-- A check only adds to what was found wrong. -/
theorem Check.findings_unit (ctx : Context) (u : SourceUnit) {s : Session} (hs : s.Framed ctx) :
    s.findings ⊆ ((Check.unit ctx u).run s).2.findings := by
  have hmirrors : (Link.refl ctx).Mirrors (unit ctx u) (unit ctx u) :=
    Link.unit_mirrors u trivial (fun _ _ => trivial) (Link.covers_refl _)
  obtain ⟨found, hfound, -⟩ := (hmirrors.run s s (Session.Same.refl hs).alike).findings
  rw [hfound]
  exact List.subset_append_left _ _

/-- Nothing was reported about names that are declared twice. -/
theorem clean_of_analyze {config : Config} {u : SourceUnit}
    (hclean : ∀ d ∈ (analyze config u).diagnostics, d.code ≠ "STB001" ∧ d.code ≠ "TRAIT001") :
    (Builder.ofUnit config.readableIntrinsics u).Clean ∧
      (Builder.ofUnit config.readableIntrinsics u).traitNames.Nodup := by
  rw [analyze_eq] at hclean
  generalize Builder.ofUnit config.readableIntrinsics u = b at hclean
  have hcodes : ∀ f ∈ b.findings ++ (Registry.ofLists b.traits b.impls).2,
      f.problem.code ≠ .duplicateDefinition ∧ f.problem.code ≠ .duplicateTrait := by
    intro f hf
    have hdiagnostic := hclean f.toDiagnostic
      (List.mem_map_of_mem (Check.findings_unit _ u (fun _ => rfl) hf))
    exact ⟨fun h => hdiagnostic.1 (Finding.toDiagnostic_code_eq_iff.2 h),
      fun h => hdiagnostic.2 (Finding.toDiagnostic_code_eq_iff.2 h)⟩
  refine ⟨fun f hf => (hcodes f (List.mem_append_left _ hf)).1, ?_⟩
  exact Registry.nodup_of_ofLists fun f hf => (hcodes f (List.mem_append_right _ hf)).2

/-- A check of permuted declarations, in a context that has their scopes under other numbers, comes
to the same. -/
theorem Check.unit_perm {ctx ctx' : Context} {u : SourceUnit} {decls : List Decl}
    (h : ctx.table.Hosts (nestings u.decls)) (h' : ctx'.table.Hosts (nestings decls))
    (hctx : ctx.Alike ctx')
    (hannotations : ∀ id, ctx.table.annotations.get? id = ctx'.table.annotations.get? id)
    (hperm : decls.Perm u.decls)
    (hscript : decls.filter Decl.isScript = u.decls.filter Decl.isScript)
    (hrearranged : Rearranged (fun d d' => d ∈ u.decls ∧ d' ∈ u.decls ∧ d.Apart d') u.decls decls)
    (s s' : Session)
    (hs : ((h.mono (nestings_subset hperm.subset)).link h' hctx (fun _ => True) (fun _ => True)
      fun id _ => hannotations id).comparison.Alike s s')
    (hfindings : s.findings.Perm s'.findings) :
    let t := ((unit ctx u).run s).2
    let t' := ((unit ctx' { u with decls }).run s').2
    (∀ id, t.types.get? id = t'.types.get? id) ∧
      (∀ name, t.scopes.lookup .global name = t'.scopes.lookup .global name) ∧
      t.findings.Perm t'.findings := by
  -- In between, the permuted declarations are checked in the context of the unit.
  have hfirst : Session.Same ctx ((unit ctx u).run s).2 ((unit ctx { u with decls }).run s).2 :=
    unit_same h hscript.symm hrearranged hs.scopes.enclosing
  have hcovers := (h.mono (nestings_subset hperm.subset)).covers_link h' hctx (fun _ => True)
    (fun _ => True) (fun id _ => hannotations id) (fun _ _ => trivial) (fun _ _ => trivial)
  have hsecond := (Link.unit_mirrors { u with decls } (by exact trivial) (fun _ _ => by exact trivial)
    hcovers).run s s' hs
  obtain ⟨found, hfound, hfound'⟩ := Link.found hsecond
  refine ⟨fun id => ?_, fun name => ?_, ?_⟩
  · exact (hfirst.types id).trans (hsecond.alike.types id trivial)
  · exact (Link.lookup hfirst.alike rfl name).trans (Link.lookup hsecond.alike .global name)
  · refine hfirst.findings.trans ?_
    rw [hfound, hfound']
    exact hfindings.append_right found

/-- The order of declarations does not matter. When the nodes of a unit have identities of their
own, no name is declared twice and no call has a choice between implementations, then every
permutation of the declarations that keeps the order of the script has the same analysis. -/
theorem analyze_perm_decls (config : Config) (u : SourceUnit) (decls : List Decl)
    (hids : u.ids.Nodup)
    (hclean : ∀ d ∈ (analyze config u).diagnostics, d.code ≠ "STB001" ∧ d.code ≠ "TRAIT001")
    (himpls : (analyze config u).registry.Unambiguous
      (Builder.ofUnit config.readableIntrinsics u).impls)
    (hperm : decls.Perm u.decls)
    (hscript : decls.filter Decl.isScript = u.decls.filter Decl.isScript) :
    (analyze config u).SameUpToOrder (analyze config { u with decls }) := by
  obtain ⟨hnames, htraits⟩ := clean_of_analyze hclean
  have hids' : (SourceUnit.ids { u with decls }).Nodup :=
    (SourceUnit.ids_perm hperm).nodup_iff.2 hids
  have hhosts := Builder.hosts_ofUnit config.readableIntrinsics hids
  have hhosts' := Builder.hosts_ofUnit config.readableIntrinsics hids'
  have hrearranged := SourceUnit.rearranged_of_perm hids hnames htraits hperm hscript
  have hsame : Builder.Same (Builder.ofUnit config.readableIntrinsics u)
      (Builder.ofUnit config.readableIntrinsics { u with decls }) :=
    Builder.ofUnit_same _ (hrearranged.imp fun h => h.2.2)
  rw [analyze_eq] at himpls ⊢
  rw [analyze_eq]
  generalize Builder.ofUnit config.readableIntrinsics u = b at *
  generalize Builder.ofUnit config.readableIntrinsics { u with decls } = b' at *
  have hunambiguous : (Registry.ofTraits b.traits).Unambiguous b.impls :=
    himpls.perm (Registry.get?_ofLists b.traits b.impls) (.refl _)
  obtain ⟨hregistry, hfound⟩ :=
    Registry.ofLists_permuted hsame.traits hsame.impls htraits hunambiguous
  have hctx := hsame.context_alike hregistry.sameAnswers config.analysis
  obtain ⟨htypes, hglobals, hfindings⟩ := Check.unit_perm hhosts hhosts' hctx hsame.annotations
    hperm hscript hrearranged
    { scopes := b.table.scopes, findings := b.findings ++ (Registry.ofLists b.traits b.impls).2 }
    { scopes := b'.table.scopes
      findings := b'.findings ++ (Registry.ofLists b'.traits b'.impls).2 }
    ⟨⟨(hsame.agree Set.univ).lookupLocal_linked (hhosts.mono (nestings_subset hperm.subset)) hhosts'
      (fun _ _ => trivial) fun _ => trivial, fun _ => rfl, fun _ => rfl⟩, fun _ _ => rfl, rfl⟩
    (hsame.findings.append hfound)
  exact ⟨htypes, hctx.decls, hglobals, hregistry.get?, hregistry.lists, hfindings.map _⟩

/-- Everything is used before it is declared, and two types implement one trait. Three names are not
declared anywhere: `missing` in the script, `lost` in `describe` and `absent` in `stray`. -/
def greetings : SourceUnit :=
  let node (n : UInt64) : Node := ⟨⟨n⟩, { line := n }⟩
  let string : TypeExpr := .named {} "String" []
  let shows (n : UInt64) (type : String) : Decl := .impl
    { node := node n, traitName := some "Show", target := .named {} type []
      methods :=
        [{ node := node (n + 1), name := "show", returnType := some string
           body := ⟨node (n + 2), [], some (.literal (node (n + 3)) (.string type))⟩ }] }
  { node := node 0
    decls :=
      [.function
        { node := node 1, name := "describe", returnType := some string
          params := [{ node := node 2, name := "c", ty := .named {} "Counter" [] }]
          body := ⟨node 3, [.expr (node 4) (.ident (node 5) "lost")],
            some (.methodCall (node 6) (.ident (node 7) "c") none "show" [])⟩ },
      .script (.letBind (node 8) (.bare (node 9) "total") none false (.ident (node 10) "missing")),
      shows 11 "Counter",
      .struct { node := node 15, name := "Counter" },
      shows 16 "Label",
      .struct { node := node 20, name := "Label" },
      .trait
        { node := node 21, name := "Show"
          methods := [{ node := node 22, name := "show", returnType := some string }] },
      .script (.expr (node 23) (.ident (node 24) "total")),
      .function
        { node := node 25, name := "stray"
          body := ⟨node 26, [], some (.ident (node 27) "absent")⟩ }] }

/-- The same declarations from the last to the first, and then the script in its order. -/
def greetingsBackwards : List Decl :=
  (greetings.decls.filter fun d => !d.isScript).reverse ++ greetings.decls.filter Decl.isScript

/-- The same declarations, backwards. -/
theorem perm_greetingsBackwards : greetingsBackwards.Perm greetings.decls :=
  ((List.reverse_perm _).append_right _).trans
    (List.perm_append_comm.trans (List.filter_append_perm Decl.isScript greetings.decls))

/-- No call there has a choice. -/
theorem unambiguous_greetings : (analyze {} greetings).registry.Unambiguous
    (Builder.ofUnit ({} : Config).readableIntrinsics greetings).impls := by
  have htargets : (Builder.ofUnit ({} : Config).readableIntrinsics greetings).impls.map
      Implementation.target = ["Counter", "Label"].map Ty.named := by
    decide +kernel
  exact Registry.unambiguous_of_named _ htargets (by decide)

/-- Greetings and their reverse. -/
theorem analyze_perm_decls_greetings :
    greetings.ids.Nodup ∧
      (analyze {} greetings).diagnostics.map (fun d => d.span.line) = [10, 5, 27] ∧
      (analyze {} { greetings with decls := greetingsBackwards }).diagnostics.map
        (fun d => d.span.line) = [10, 27, 5] ∧
      (analyze {} greetings).SameUpToOrder
        (analyze {} { greetings with decls := greetingsBackwards }) :=
  ⟨by decide, by decide +kernel, by decide +kernel,
    analyze_perm_decls {} greetings greetingsBackwards (by decide) (by decide +kernel)
      unambiguous_greetings perm_greetingsBackwards (by rfl)⟩

end UnitAnalysis

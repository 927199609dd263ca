import UnitAnalysis.Proofs.Gap.Construction
import UnitAnalysis.Proofs.Order.CheckRounds

/-!
# Bodies are checked independently

The body of a function has no influence on the rest of the analysis. Two units that differ in the
body of one function have constructions that show the same outside the function, and a check of the
function writes to scopes and nodes of the function only. So the checks of the two units cannot be
told apart outside the function: they report the same problems, give the same types to nodes and
leave the same global symbols behind. What is reported for the body itself stands at two places: the
construction reports on its way through the function, and the check when it comes to the function.
-/

set_option autoImplicit false

namespace UnitAnalysis

/-! ## The scopes that a function writes to -/

/-- A scope is the global one or that of one of some constructs. -/
def SymbolTable.Outer (t : SymbolTable) (ns : List Nesting) (a : ScopeId) : Prop :=
  a = .global ∨ ∃ p ∈ ns, t.scopeMap.get? p.2 = some a

theorem SymbolTable.Linked.outer {t t' : SymbolTable} {ns : List Nesting} {a a' : ScopeId}
    (h : Linked t t' ns a a') : t.Outer ns a ∧ t'.Outer ns a' := by
  cases h with
  | global => exact ⟨.inl rfl, .inl rfl⟩
  | opened hp ha ha' => exact ⟨.inr ⟨_, hp, ha⟩, .inr ⟨_, hp, ha'⟩⟩

namespace Gap.Built

variable {g : Gap} {body : Block} {b : Builder} (h : g.Built body b)
  (hapart : ∀ id ∈ (g.function body).ids, id ∉ g.others.flatMap Decl.ids)

include h hapart

/-- A scope of a node of the function is not one of a construct outside. -/
theorem not_outer {id : NodeId} (hid : id ∈ (g.function body).ids) {a : ScopeId}
    (ha : b.table.scopeMap.get? id = some a) : ¬ b.table.Outer (nestings g.others) a := by
  rintro (rfl | ⟨⟨owner, other⟩, hp, hother⟩)
  · exact h.inner id hid ha
  · obtain rfl := h.rooted.alone ha hother (h.hosts.ne_global hp hother)
    exact hapart id hid (mem_ids_of_nesting hp)

/-- Going into a construct of the function does not lead outside. -/
theorem not_outer_scopeFor {id : NodeId} (hid : id ∈ (g.function body).ids) {a : ScopeId}
    (ha : ¬ b.table.Outer (nestings g.others) a) :
    ¬ b.table.Outer (nestings g.others) (b.table.scopeFor id a) := by
  unfold SymbolTable.scopeFor
  cases hscope : b.table.scopeMap.get? id with
  | none => exact ha
  | some scope => exact h.not_outer hapart hid hscope

/-- The scopes that the check of the function comes by are not those of constructs outside. -/
theorem not_outer_of_mem_opened {standing : Standing} {isMethod : Bool} {a : ScopeId}
    (ha : a ∈ b.table.opened ((g.function body).sites (standingRules b.table) (some standing)
      isMethod)) : ¬ b.table.Outer (nestings g.others) a := by
  have hfunction :
      ¬ b.table.Outer (nestings g.others)
        (b.table.scopeFor (g.function body).node.id standing.scope) := by
    obtain ⟨scope, hscope⟩ := Option.isSome_iff_exists.1 h.opened
    rw [SymbolTable.scopeFor, hscope]
    exact h.not_outer hapart List.mem_cons_self hscope
  have hnode : ∀ place o, .opening place o ∈ (g.function body).body.sites (standingRules b.table)
      .block ((standingRules b.table).enter (some standing)
        (.function (g.function body) isMethod)) → o.id ∈ (g.function body).ids := fun place o ho =>
    List.mem_append_right g.head.ids (Block.madeOf _ _ _ _ _ ho o.id_mem_ids)
  -- Inside the function every place is in a scope of the function.
  have hplaces : List.Forall₂
      (Site.Related fun (st : Option Standing) (_ : Unit) =>
        ∀ s ∈ st, ¬ b.table.Outer (nestings g.others) s.scope)
      ((g.function body).body.sites (standingRules b.table) .block
        ((standingRules b.table).enter (some standing) (.function (g.function body) isMethod)))
      ((g.function body).body.sites blindRules .block ()) := by
    refine Block.sites_related _ (fun s hs => ?_)
      ⟨fun _ _ _ s hs => ?_, fun st o ho _ hst s hs => ?_⟩
    · cases hs
      exact hfunction
    · cases hs
    · obtain ⟨around, haround, rfl⟩ := Option.map_eq_some_iff.1 hs
      exact h.not_outer_scopeFor hapart (hnode st o ho) (hst around haround)
  obtain ⟨site, hsite, hopened⟩ := List.mem_filterMap.1 ha
  cases site with
  | opening st o =>
    cases st with
    | none => cases hopened
    | some s =>
      cases hopened
      rcases List.mem_cons.1 hsite with heq | hsite
      · cases heq
        exact hfunction
      · obtain ⟨_, -, hrelated⟩ := exists_of_forall₂ hplaces hsite
        cases hrelated with
        | opening hplace =>
          exact h.not_outer_scopeFor hapart (hnode _ o hsite) (hplace s rfl)
  | _ => cases hopened

end Gap.Built

/-! ## Two checks around a gap -/

namespace Holder

variable {ctx ctx' : Context} {L : Link ctx ctx'} (h : Holder)
  (hc : L.comparison.Covers (h.others.flatMap (Decl.sites blindRules ())))

include hc

/-- The scopes around the function are linked. -/
theorem place_linked : L.scopes (h.place ctx.table) (h.place ctx'.table) := by
  cases h with
  | classLike c later =>
    rw [others, List.flatMap_singleton] at hc
    exact L.enter hc.opening L.global
  | alone => exact L.global
  | impl i later => exact L.global

theorem covers_methods :
    L.comparison.Covers (h.earlier.flatMap (FunctionDecl.sites blindRules () true)) ∧
      L.comparison.Covers (h.later.flatMap (FunctionDecl.sites blindRules () true)) := by
  cases h with
  | alone => exact ⟨fun _ hsite => absurd hsite List.not_mem_nil,
      fun _ hsite => absurd hsite List.not_mem_nil⟩
  | classLike c later =>
    rw [others, List.flatMap_singleton] at hc
    have hmethods := hc.tail.right
    rw [List.flatMap_append] at hmethods
    exact ⟨hmethods.left, hmethods.right⟩
  | impl i later =>
    rw [others, List.flatMap_singleton, Decl.sites, List.flatMap_append] at hc
    exact ⟨hc.left, hc.right⟩

theorem checkFields_mirrors (hids : ∀ id ∈ h.others.flatMap Decl.ids, id ∈ L.annotated) :
    L.Mirrors (h.checkFields ctx) (h.checkFields ctx') := by
  have hplace := h.place_linked hc
  cases h with
  | classLike c later =>
    rw [others, List.flatMap_singleton] at hc hids
    exact Link.initializers_mirrors c.name c.fields hplace (fun id hid =>
      hids id (List.mem_cons_of_mem _ (List.mem_append_left _ hid))) hc.tail.left
  | alone => exact .pure rfl
  | impl i later => exact .pure rfl

end Holder

namespace Gap

variable {ctx ctx' : Context} {L : Link ctx ctx'} (g : Gap)
  (hids : ∀ id ∈ g.others.flatMap Decl.ids, id ∈ L.annotated)
  (hc : L.comparison.Covers (g.others.flatMap (Decl.sites blindRules ())))

include hids hc

/-- The check up to the function does not depend on the body. -/
theorem upToCheck_mirrors (hown : .global ∈ L.own) :
    L.Mirrors (g.upToCheck ctx) (g.upToCheck ctx') := by
  simp only [others, List.flatMap_append] at hids hc
  have hunit : ∀ id ∈ g.unit.decls.flatMap Decl.ids, id ∈ L.annotated := fun id hid =>
    hids id (List.mem_append_left _ hid)
  have hafter : ∀ id ∈ g.after.flatMap Decl.ids, id ∈ L.annotated := fun id hid =>
    hids id (List.mem_append_right _ (List.mem_append_right _ hid))
  exact (Link.declScripts_mirrors g.unit.decls hunit hc.left hown).bind fun _ =>
    (Link.declScripts_mirrors g.after hafter hc.right.right hown).bind fun _ =>
      (Link.declsBodies_mirrors g.unit.decls hunit hc.left).bind fun _ =>
        (g.holder.checkFields_mirrors hc.right.left fun id hid =>
          hids id (List.mem_append_right _ (List.mem_append_left _ hid))).bind fun _ =>
            Link.functions_mirrors g.holder.earlier (g.holder.place_linked hc.right.left)
              (g.holder.covers_methods hc.right.left).1

/-- The check after the function does not depend on the body. -/
theorem afterCheck_mirrors : L.Mirrors (g.afterCheck ctx) (g.afterCheck ctx') := by
  simp only [others, List.flatMap_append] at hids hc
  exact (Link.functions_mirrors g.holder.later (g.holder.place_linked hc.right.left)
    (g.holder.covers_methods hc.right.left).2).bind fun _ =>
      Link.declsBodies_mirrors g.after (fun id hid =>
        hids id (List.mem_append_right _ (List.mem_append_right _ hid))) hc.right.right

end Gap

/-! ## The check, cut at the function -/

/-- A later session has the same outside a function: in the global scope and the scopes of some
constructs, and at all nodes but those of the function. -/
structure Session.Untouched (t : SymbolTable) (ns : List Nesting) (ids : List NodeId)
    (s s' : Session) : Prop where
  symbols : ∀ a, t.Outer ns a → ∀ name, s'.scopes.lookupLocal a name = s.scopes.lookupLocal a name
  enclosing : ∀ a, s'.scopes.enclosing a = s.scopes.enclosing a
  types : ∀ id, id ∉ ids → s'.types.get? id = s.types.get? id
  around : s'.around = s.around

/-- A construction is ready to be checked once its traits and implementations are registered. -/
def Builder.prepared (b : Builder) (options : Options) : Prepared where
  context := { table := b.table, registry := (Registry.ofLists b.traits b.impls).1, options }
  session :=
    { scopes := b.table.scopes, findings := b.findings ++ (Registry.ofLists b.traits b.impls).2 }

/-- The check of a function reports what it finds and comes back to where it was. -/
theorem Check.function_mirrored (ctx : Context) (parent : ScopeId) (f : FunctionDecl) {s : Session}
    (hs : ∀ a, s.scopes.enclosing a = ctx.table.scopes.enclosing a) :
    (Link.refl ctx).comparison.Mirrored Eq s s ((function ctx parent f).run s)
      ((function ctx parent f).run s) := by
  have hmirrors : (Link.refl ctx).Mirrors (function ctx parent f) (function ctx parent f) :=
    Link.function_mirrors f rfl (Link.covers_refl (f.sites blindRules () true))
  refine hmirrors.run s s ⟨⟨fun ha _ => ?_, hs, hs⟩, fun _ _ => rfl, rfl⟩
  rw [show _ = _ from ha]

namespace Gap

section States

variable (g : Gap) (p : Prepared) (body : Block)

/-- The check when it comes to the function. -/
def atCheck : Session :=
  ((g.upToCheck p.context).run p.session).2

/-- The check after the function. -/
def checked : Session :=
  ((Check.function p.context (g.holder.place p.context.table) (g.function body)).run
    (g.atCheck p)).2

/-- The end of the check. -/
def ended : Session :=
  ((g.afterCheck p.context).run (g.checked p body)).2

theorem ended_eq : ((Check.unit p.context (g.fill body)).run p.session).2 = g.ended p body := by
  rw [check_eq]
  rfl

end States

/-- The check of the function touches nothing outside. -/
theorem Built.untouched {g : Gap} {body : Block} {b : Builder} (h : g.Built body b)
    (hapart : ∀ id ∈ (g.function body).ids, id ∉ g.others.flatMap Decl.ids) (options : Options)
    (place : ScopeId) (s : Session) :
    s.Untouched b.table (nestings g.others) (g.function body).ids
      ((Check.function (b.prepared options).context place (g.function body)).run s).2 := by
  have hwalk := (Check.function_follows {} {} (b.prepared options).context
    ⟨place, s.around⟩ true (g.function body)).run s rfl
  refine ⟨fun a ha => hwalk.symbols a List.not_mem_nil fun hmem => ?_, hwalk.scopes.enclosing,
    hwalk.types, hwalk.around⟩
  exact h.not_outer_of_mem_opened hapart hmem ha

/-! ## Two bodies for one gap -/

/-- Two constructions for one gap, which show the same outside the function. -/
structure Beside (g : Gap) (body body' : Block) (b b' : Builder) : Prop where
  built : g.Built body b
  built' : g.Built body' b'
  apart : ∀ id ∈ g.others.flatMap Decl.ids, id ∉ (g.function body).ids ++ (g.function body').ids
  agree : Builder.AgreeOn (Key.nodes ((g.function body).ids ++ (g.function body').ids))ᶜ b b'
  declarations : b.declarations = b'.declarations

namespace Beside

variable {g : Gap} {body body' : Block} {b b' : Builder} (h : g.Beside body body' b b')
  (options : Options)

include h

theorem registry_eq : Registry.ofLists b.traits b.impls = Registry.ofLists b'.traits b'.impls := by
  have htraits : b.traits = b'.traits := congrArg Declarations.traits h.declarations
  have himpls : b.impls = b'.impls := congrArg Declarations.impls h.declarations
  rw [htraits, himpls]

theorem context_alike : (b.prepared options).context.Alike (b'.prepared options).context where
  options := rfl
  decls := (h.agree.mono (Key.index_subset_compl_nodes _)).alike
  functions id := congrArg (fun d : Declarations => d.functions.get? id) h.declarations
  intrinsics name := congrArg (fun d : Declarations => d.intrinsics.get? name) h.declarations
  registry := by
    have hregistry : (b.prepared options).context.registry =
        (b'.prepared options).context.registry := congrArg Prod.fst h.registry_eq
    rw [hregistry]
    exact .refl _

/-- The link between the two constructions through all that is outside the function. -/
def link : Link (b.prepared options).context (b'.prepared options).context :=
  h.built.hosts.link h.built'.hosts (h.context_alike options)
    (fun id => id ∉ (g.function body).ids ++ (g.function body').ids)
    (fun id => id ∉ (g.function body).ids ++ (g.function body').ids)
    fun id hid => congrArg NodeRecord.annotation (h.agree (.node id) hid)

theorem apart_left : ∀ id ∈ (g.function body).ids, id ∉ g.others.flatMap Decl.ids :=
  fun id hid hother => h.apart id hother (List.mem_append_left _ hid)

theorem apart_right : ∀ id ∈ (g.function body').ids, id ∉ g.others.flatMap Decl.ids :=
  fun id hid hother => h.apart id hother (List.mem_append_right _ hid)

theorem covers_others :
    (h.link options).comparison.Covers (g.others.flatMap (Decl.sites blindRules ())) :=
  h.built.hosts.covers_link h.built'.hosts _ _ _ _ h.apart h.apart

/-- The two checks start alike. -/
theorem alike_session :
    (h.link options).comparison.Alike (b.prepared options).session
      (b'.prepared options).session where
  scopes := ⟨h.agree.lookupLocal_linked h.built.hosts h.built'.hosts
    (fun p hp => h.apart p.2 (mem_ids_of_nesting hp)) fun _ hmem => hmem, fun _ => rfl, fun _ => rfl⟩
  types _ _ := rfl
  around := rfl

/-- The check of the function touches nothing outside, so the sessions stay alike. -/
theorem alike_function {s s' : Session} (hs : (h.link options).comparison.Alike s s') :
    let ctx := (b.prepared options).context
    let ctx' := (b'.prepared options).context
    (h.link options).comparison.Alike
      ((Check.function ctx (g.holder.place ctx.table) (g.function body)).run s).2
      ((Check.function ctx' (g.holder.place ctx'.table) (g.function body')).run s').2 := by
  intro ctx ctx'
  have hfirst := h.built.untouched h.apart_left options (g.holder.place ctx.table) s
  have hsecond := h.built'.untouched h.apart_right options (g.holder.place ctx'.table) s'
  refine ⟨⟨fun {a a'} ha name => ?_, fun a => ?_, fun a => ?_⟩, fun id hid => ?_, ?_⟩
  · obtain ⟨houter, houter'⟩ := SymbolTable.Linked.outer ha
    rw [hfirst.symbols a houter, hsecond.symbols a' houter', hs.scopes.symbols ha]
  · rw [hfirst.enclosing, hs.scopes.enclosing]
  · rw [hsecond.enclosing, hs.scopes.enclosing']
  · obtain ⟨hleft, hright⟩ := not_or.1 fun hmem => hid (List.mem_append.2 hmem)
    rw [hfirst.types id hleft, hsecond.types id hright, hs.types id hid]
  · rw [hfirst.around, hsecond.around, hs.around]

/-- Up to the function the two checks cannot be told apart. -/
theorem mirrored_atCheck :
    let p := b.prepared options
    let p' := b'.prepared options
    (h.link options).comparison.Mirrored Eq p.session p'.session
      ((g.upToCheck p.context).run p.session) ((g.upToCheck p'.context).run p'.session) :=
  (g.upToCheck_mirrors (L := h.link options) h.apart (h.covers_others options) trivial).run _ _
    (h.alike_session options)

/-- After the function the two checks cannot be told apart. -/
theorem mirrored_ended :
    let p := b.prepared options
    let p' := b'.prepared options
    (h.link options).comparison.Mirrored Eq (g.checked p body) (g.checked p' body')
      ((g.afterCheck p.context).run (g.checked p body))
      ((g.afterCheck p'.context).run (g.checked p' body')) :=
  (g.afterCheck_mirrors (L := h.link options) h.apart (h.covers_others options)).run _ _
    (h.alike_function options (h.mirrored_atCheck options).alike)

end Beside

section Bodies

variable {g : Gap} {body body' : Block} (hids : g.ids.Nodup) (hbody : body.ids.Disjoint g.ids)
  (hbody' : body'.ids.Disjoint g.ids)

include hids hbody hbody'

theorem beside (intrinsics : List (String × TypeExpr)) :
    g.Beside body body' (Builder.ofUnit intrinsics (g.fill body))
      (Builder.ofUnit intrinsics (g.fill body')) where
  built := built intrinsics hids hbody
  built' := built intrinsics hids hbody'
  apart _ hother hmem := (List.mem_append.1 hmem).elim
    (fun hid => not_mem_others hids hbody hid hother)
    fun hid => not_mem_others hids hbody' hid hother
  agree := (walked intrinsics hids hbody hbody').moves.agree
  declarations := g.declarations_eq intrinsics body body'

end Bodies

/-! ## The analysis, cut at the function -/

section Analysis

variable (g : Gap) (config : Config) (body : Block)

/-- The unit with a body, ready to be checked. -/
def prepared : Prepared :=
  (g.fill body).prepare config.analysis config.readableIntrinsics

theorem prepared_eq :
    g.prepared config body =
      (Builder.ofUnit config.readableIntrinsics (g.fill body)).prepared config.analysis :=
  (g.fill body).prepare_eq config.analysis config.readableIntrinsics

theorem analyze_fill :
    analyze config (g.fill body) =
      (g.prepared config body).analysis (g.ended (g.prepared config body) body) := by
  rw [← ended_eq]
  rfl

/-- Nodes that are not in the unit have no types. -/
theorem types_ended {id : NodeId} (hid : id ∉ (g.function body).ids)
    (hother : id ∉ g.others.flatMap Decl.ids) :
    (g.ended (g.prepared config body) body).types.get? id = none := by
  have hperm : ((g.fill body).decls.flatMap Decl.ids).Perm
      (g.head.ids ++ g.others.flatMap Decl.ids ++ body.ids) := (g.ids_fill body).cons_inv
  have hunit : id ∉ (g.fill body).decls.flatMap Decl.ids := by
    rw [hperm.mem_iff]
    simp only [ids_function, List.mem_append, not_or] at hid ⊢
    exact ⟨⟨hid.1, hother⟩, hid.2⟩
  have hwalk (p : Prepared) := (Check.unit_follows {} {} p.context
    p.session.around (g.fill body)).run p.session rfl
  rw [← ended_eq, (hwalk _).types id hunit, prepared_eq]
  rfl

end Analysis

section Bodies

variable {g : Gap} (config : Config) {body body' : Block} (hids : g.ids.Nodup)
  (hbody : body.ids.Disjoint g.ids) (hbody' : body'.ids.Disjoint g.ids)

include hids hbody

/-- The check of the function adds to what was reported before. -/
theorem findings_checked :
    ∃ found, (g.checked (g.prepared config body) body).findings =
      (g.atCheck (g.prepared config body)).findings ++ found := by
  have hbeside := beside hids hbody hbody config.readableIntrinsics
  rw [prepared_eq]
  obtain ⟨found, hfound, -⟩ := (Check.function_mirrored _ _ (g.function body)
    (hbeside.mirrored_atCheck config.analysis).alike.scopes.enclosing).findings
  exact ⟨_, hfound⟩

include hbody'

/-- Between the two times that an analysis comes by the function it reports the same for all
bodies. -/
theorem findings_atCheck :
    ∃ found,
      (g.atCheck (g.prepared config body)).findings =
          (g.visited config.readableIntrinsics body).findings ++ found ∧
        (g.atCheck (g.prepared config body')).findings =
          (g.visited config.readableIntrinsics body').findings ++ found := by
  have hbeside := beside hids hbody hbody' config.readableIntrinsics
  obtain ⟨found, _, _, hlogs, hlogs'⟩ :=
    (walked config.readableIntrinsics hids hbody hbody').moves.logs
  rw [prepared_eq, prepared_eq]
  generalize Builder.ofUnit config.readableIntrinsics (g.fill body) = b at hbeside hlogs ⊢
  generalize Builder.ofUnit config.readableIntrinsics (g.fill body') = b' at hbeside hlogs' ⊢
  obtain ⟨more, hmore, hmore'⟩ := Link.found (hbeside.mirrored_atCheck config.analysis)
  refine ⟨found ++ ((Registry.ofLists b.traits b.impls).2 ++ more), hmore.trans ?_,
    hmore'.trans ?_⟩
  · simp only [Builder.prepared, hlogs.findings, List.append_assoc]
  · simp only [Builder.prepared, hlogs'.findings, hbeside.registry_eq, List.append_assoc]

/-- After the function the check reports the same for all bodies. -/
theorem findings_ended :
    ∃ found,
      (g.ended (g.prepared config body) body).findings =
          (g.checked (g.prepared config body) body).findings ++ found ∧
        (g.ended (g.prepared config body') body').findings =
          (g.checked (g.prepared config body') body').findings ++ found := by
  have hbeside := beside hids hbody hbody' config.readableIntrinsics
  rw [prepared_eq, prepared_eq]
  exact Link.found (hbeside.mirrored_ended config.analysis)

/-- At the end nodes outside the function and global names have the same types for all bodies. -/
theorem types_and_globals_ended :
    (∀ id ∈ g.others.flatMap Decl.ids,
        (g.ended (g.prepared config body) body).types.get? id =
          (g.ended (g.prepared config body') body').types.get? id) ∧
      ∀ name, (g.ended (g.prepared config body) body).scopes.lookup .global name =
        (g.ended (g.prepared config body') body').scopes.lookup .global name := by
  have hbeside := beside hids hbody hbody' config.readableIntrinsics
  have halike := (hbeside.mirrored_ended config.analysis).alike
  rw [prepared_eq, prepared_eq]
  exact ⟨fun id hid => halike.types id (hbeside.apart id hid), Link.lookup halike .global⟩

end Bodies

end Gap

/-- What an analysis comes to outside a function. -/
structure Outside where
  /-- What is reported before the construction walks through the function. -/
  first : List Diagnostic
  /-- What is reported after that, before the function is checked. -/
  second : List Diagnostic
  /-- What is reported after the function is checked. -/
  third : List Diagnostic
  /-- The types of nodes. -/
  types : NodeId → Option Ty
  /-- The global symbols. -/
  globals : String → Option Symbol

/-- An analysis comes to this around a body. What the construction reports on its way through the
function and what the check reports about the function stand in the diagnostics between the three
parts. Nodes outside the function have these types, and there are these global symbols. -/
structure Outside.Frames (o : Outside) (config : Config) (g : Gap) (body : Block) : Prop where
  diagnostics : ∃ visiting checking : List Finding,
    (g.visited config.readableIntrinsics body).findings =
        (g.atVisit config.readableIntrinsics body).2.findings ++ visiting ∧
      (g.checked (g.prepared config body) body).findings =
        (g.atCheck (g.prepared config body)).findings ++ checking ∧
      (analyze config (g.fill body)).diagnostics =
        o.first ++ visiting.map Finding.toDiagnostic ++ o.second ++
          checking.map Finding.toDiagnostic ++ o.third
  types : ∀ id, id ∉ (g.function body).ids →
    (analyze config (g.fill body)).types.get? id = o.types id
  globals : ∀ name, (analyze config (g.fill body)).global? name = o.globals name

namespace Gap

/-- What the analysis of the unit with a body comes to outside the function. -/
def outside (g : Gap) (config : Config) (body : Block) : Outside :=
  let p := g.prepared config body
  let visited := (g.visited config.readableIntrinsics body).findings
  let checked := (g.checked p body).findings
  let s := g.ended p body
  { first := (g.atVisit config.readableIntrinsics body).2.findings.map Finding.toDiagnostic
    second := ((g.atCheck p).findings.drop visited.length).map Finding.toDiagnostic
    third := (s.findings.drop checked.length).map Finding.toDiagnostic
    types := fun id => if id ∈ g.others.flatMap Decl.ids then s.types.get? id else none
    globals := s.scopes.lookup .global }

/-- What one body leads to outside the function is what every body leads to. -/
theorem frames_outside {g : Gap} (config : Config) {body body' : Block} (hids : g.ids.Nodup)
    (hbody : body.ids.Disjoint g.ids) (hbody' : body'.ids.Disjoint g.ids) :
    (g.outside config body).Frames config g body' := by
  obtain ⟨htypes, hglobals⟩ := types_and_globals_ended config hids hbody hbody'
  refine ⟨?_, fun id hid => ?_, fun name => ?_⟩
  · obtain ⟨visiting, _, _, hvisit, -⟩ :=
      (g.visited_walked config.readableIntrinsics body').moves.logs
    obtain ⟨checking, hcheck⟩ := findings_checked config hids hbody'
    obtain ⟨second, hsecond, hsecond'⟩ := findings_atCheck config hids hbody hbody'
    obtain ⟨third, hthird, hthird'⟩ := findings_ended config hids hbody hbody'
    refine ⟨visiting, checking, hvisit.findings, hcheck, ?_⟩
    have hall : (analyze config (g.fill body')).findings =
        (g.atVisit config.readableIntrinsics body').2.findings ++ visiting ++ second ++ checking ++
          third := by
      rw [← hvisit.findings, ← hsecond', ← hcheck, ← hthird', analyze_fill]
      rfl
    rw [Analysis.diagnostics, hall, g.atVisit_eq _ body' body]
    simp only [outside, hsecond, hthird, List.drop_left, List.map_append]
  · rw [analyze_fill]
    change (g.ended (g.prepared config body') body').types.get? id = _
    by_cases hother : id ∈ g.others.flatMap Decl.ids
    · simp only [outside, if_pos hother, htypes id hother]
    · simp only [outside, if_neg hother, g.types_ended config body' hid hother]
  · rw [analyze_fill]
    exact (hglobals name).symm

/-- Whatever the body is, outside the function an analysis comes to the same. -/
theorem exists_frames (g : Gap) (config : Config) :
    ∃ o : Outside, g.ids.Nodup → ∀ body : Block, body.ids.Disjoint g.ids →
      o.Frames config g body := by
  by_cases hfit : ∃ body : Block, body.ids.Disjoint g.ids
  · obtain ⟨body, hbody⟩ := hfit
    exact ⟨g.outside config body, fun hids _ hbody' => frames_outside config hids hbody hbody'⟩
  · exact ⟨⟨[], [], [], fun _ => none, fun _ => none⟩, fun _ body hbody =>
      absurd ⟨body, hbody⟩ hfit⟩

end Gap

/-- **Bodies are checked independently.** What an analysis reports before, between and after the two
times that it comes by a function, the types of nodes outside the function and the global symbols
depend on the unit without the body of the function only. For every body whose nodes are new to the
unit, the diagnostics are these three parts, with what the construction reports about the body after
the first part and what the check reports about it after the second. -/
theorem bodies_checked_independently (config : Config) :
    ∃ outside : Gap → Outside, ∀ (u : SourceUnit) (f : FunctionDecl), u.ids.Nodup →
      f ∈ u.functions → ∃ g : Gap, g.fill f.body = u ∧ g.function f.body = f ∧
        ∀ body : Block, body.ids.Disjoint g.ids → (outside g).Frames config g body := by
  choose outside hframes using fun g : Gap => g.exists_frames config
  refine ⟨outside, fun u f hids hf => ?_⟩
  obtain ⟨g, hfill, hfunction⟩ := u.exists_gap hf
  have hgap : g.ids.Nodup := by
    rw [← hfill, (g.ids_fill f.body).nodup_iff] at hids
    exact (List.nodup_append.1 hids).1
  exact ⟨g, hfill, hfunction, hframes g hgap⟩

/-- A method that gives a number. -/
def tallyCount : FunctionDecl :=
  let node (n : UInt64) : Node := ⟨⟨n⟩, {}⟩
  { node := node 5, name := "count", returnType := some (.named {} "Int" [])
    body := ⟨node 6, [], some (.literal (node 7) (.int 1))⟩ }

/-- The method stands between a function and a statement of the script, both of which use names that
are not declared. -/
def tally : SourceUnit :=
  let node (n : UInt64) : Node := ⟨⟨n⟩, {}⟩
  { node := node 0
    decls :=
      [.function
        { node := node 1, name := "stray", body := ⟨node 2, [], some (.ident (node 3) "lost")⟩ },
      .classLike { node := node 4, kind := .plain, name := "Tally", methods := [tallyCount] },
      .script (.expr (node 8) (.ident (node 9) "missing"))] }

/-- The construction reports that the body binds a name twice. The check reports that it uses a name
that is not declared, and that it gives no number. -/
def faultyBody : Block :=
  let node (n : UInt64) : Node := ⟨⟨n⟩, {}⟩
  ⟨node 10, [.letBind (node 11) (.tuple (node 12) [.bare (node 13) "x", .bare (node 14) "x"]) none
    false (.ident (node 15) "absent")], none⟩

theorem bodies_checked_independently_tally :
    tally.ids.Nodup ∧ tallyCount ∈ tally.functions ∧ ∃ (outside : Gap → Outside) (g : Gap),
      g.fill tallyCount.body = tally ∧ g.function tallyCount.body = tallyCount ∧
        (outside g).Frames {} g tallyCount.body ∧ (outside g).Frames {} g faultyBody := by
  have hids : tally.ids.Nodup := by decide
  have hcount : tallyCount ∈ tally.functions := by
    simp [SourceUnit.functions, tally, Decl.functions]
  obtain ⟨outside, hframes⟩ := bodies_checked_independently {}
  obtain ⟨g, hfill, hfunction, hbodies⟩ := hframes tally tallyCount hids hcount
  have hperm := g.ids_fill tallyCount.body
  rw [hfill] at hperm
  obtain ⟨-, -, hapart⟩ := List.nodup_append.1 (hperm.nodup_iff.1 hids)
  have hnew : ∀ id ∈ faultyBody.ids, id ∉ tally.ids := by decide
  refine ⟨hids, hcount, outside, g, hfill, hfunction, hbodies _ fun id hid hother => ?_,
    hbodies _ fun id hid hother => ?_⟩
  · exact hapart id hother id hid rfl
  · exact hnew id hid (hperm.mem_iff.2 (List.mem_append_left _ hother))

end UnitAnalysis

import UnitAnalysis.Proofs.Order.Link
import UnitAnalysis.Proofs.Order.View
import UnitAnalysis.Proofs.Scope.Agreement

/-!
# Scopes under other numbers

The scopes of a unit are numbered in the order of its constructs, so declarations that stand in
another order or beside other code have other numbers. Two scopes are linked when one construct
opened both of them, or when both are global. A construct is told by its node here, together with
the node of the innermost construct around it; `SymbolTable.Hosts` says that a table has the scopes
of some constructs, and `SymbolTable.Hosts.link` that between two such tables the linked scopes have
linked scopes around them.
-/

set_option autoImplicit false

namespace UnitAnalysis

/-! ## Constructs by their nodes -/

/-- A construct: the node of the innermost construct around it, if there is one, and its own node.
-/
abbrev Nesting := Option NodeId × NodeId

/-- The constructs of some declarations. -/
def nestings (ds : List Decl) : List Nesting :=
  (openings (ds.flatMap (Decl.sites ownerRules none))).map fun p => (p.1, p.2.id)

section Nestings

variable {ds ds' : List Decl} {owner : Option NodeId} {id : NodeId}

/-- Nestings come from constructs. -/
theorem mem_nestings :
    (owner, id) ∈ nestings ds ↔
      ∃ d ∈ ds, ∃ o, .opening owner o ∈ d.sites ownerRules none ∧ o.id = id := by
  simp only [nestings, List.mem_map, Prod.exists, mem_openings, List.mem_flatMap, Prod.mk.injEq]
  constructor
  · rintro ⟨owner, o, ⟨d, hd, ho⟩, rfl, rfl⟩
    exact ⟨d, hd, o, ho, rfl⟩
  · rintro ⟨d, hd, o, ho, rfl⟩
    exact ⟨owner, o, ⟨d, hd, ho⟩, rfl, rfl⟩

/-- Fewer declarations nest less. -/
theorem nestings_subset (h : ds ⊆ ds') : nestings ds ⊆ nestings ds' := by
  rintro ⟨owner, id⟩ hp
  obtain ⟨d, hd, ho⟩ := mem_nestings.1 hp
  exact mem_nestings.2 ⟨d, h hd, ho⟩

/-- Constructs are nodes of their declarations. -/
theorem mem_ids_of_nesting (h : (owner, id) ∈ nestings ds) : id ∈ ds.flatMap Decl.ids := by
  obtain ⟨d, hd, o, ho, rfl⟩ := mem_nestings.1 h
  exact List.mem_flatMap.2 ⟨d, hd, d.madeOf _ _ _ ho o.id_mem_ids⟩

/-- Every construct is listed, however the sites are listed. -/
theorem exists_nesting {α : Type} {R : Rules α} {start place : α} {o : Opening}
    (h : .opening place o ∈ ds.flatMap (Decl.sites R start)) :
    ∃ owner, (owner, o.id) ∈ nestings ds := by
  obtain ⟨d, hd, ho⟩ := List.mem_flatMap.1 h
  have hrelated : List.Forall₂ (Site.Related fun _ _ => True) (d.sites R start)
      (d.sites ownerRules none) :=
    d.sites_related trivial .all
  obtain ⟨site, hsite, hsame⟩ := exists_of_forall₂ hrelated ho
  cases hsame with
  | @opening _ owner _ _ => exact ⟨owner, mem_nestings.2 ⟨d, hd, o, hsite, rfl⟩⟩

/-- The construct around a construct is listed too. -/
theorem exists_owner {other : NodeId} (h : (some id, other) ∈ nestings ds) :
    ∃ owner, (owner, id) ∈ nestings ds := by
  obtain ⟨d, hd, o, ho, -⟩ := mem_nestings.1 h
  -- What a place inherits is the node of a construct that was come by.
  have hrelated : List.Forall₂
      (Site.Related fun (w : Option NodeId) (_ : Unit) => ∀ id ∈ w, ∃ owner,
        (owner, id) ∈ nestings ds)
      (d.sites ownerRules none) (d.sites blindRules ()) := by
    refine d.sites_related (by simp) ⟨fun _ _ hw => hw, fun w p hp _ _ id hid => ?_⟩
    obtain rfl := Option.some.inj hid
    exact ⟨w, mem_nestings.2 ⟨d, hd, p, hp, rfl⟩⟩
  obtain ⟨_, -, hsame⟩ := exists_of_forall₂ hrelated ho
  cases hsame with
  | opening hw => exact hw id rfl

end Nestings

/-! ## Tables with the scopes of constructs -/

namespace SymbolTable

/-- A table has the scopes of some constructs: each lies directly below that of the construct around
it, and no two constructs have one scope. -/
structure Hosts (t : SymbolTable) (ns : List Nesting) : Prop where
  outermost : t.scopes.enclosing .global = []
  opened : ∀ {owner id}, (owner, id) ∈ ns → ∃ scope place, t.scopeMap.get? id = some scope ∧
    t.scopeOf? owner = some place ∧ place.index < scope.index ∧
    t.scopes.enclosing scope = place :: t.scopes.enclosing place
  injective : ∀ {p q scope}, p ∈ ns → q ∈ ns → t.scopeMap.get? p.2 = some scope →
    t.scopeMap.get? q.2 = some scope → p.2 = q.2

/-- Scopes of two tables are linked that belong to one construct, or to none. -/
inductive Linked (t t' : SymbolTable) (ns : List Nesting) : ScopeId → ScopeId → Prop where
  | global : Linked t t' ns .global .global
  | opened {p : Nesting} {a a' : ScopeId} (hp : p ∈ ns) (ha : t.scopeMap.get? p.2 = some a)
      (ha' : t'.scopeMap.get? p.2 = some a') : Linked t t' ns a a'

namespace Hosts

variable {t t' : SymbolTable} {ns ns' : List Nesting} {p : Nesting} {a : ScopeId}

/-- Fewer nestings may be asked for. -/
theorem mono (h : t.Hosts ns') (hsub : ns ⊆ ns') : t.Hosts ns :=
  ⟨h.outermost, fun hp => h.opened (hsub hp), fun hp hq => h.injective (hsub hp) (hsub hq)⟩

/-- A construct opens no global scope. -/
theorem ne_global (h : t.Hosts ns) (hp : p ∈ ns) (ha : t.scopeMap.get? p.2 = some a) :
    a ≠ .global := by
  obtain ⟨scope, place, hscope, -, hlt, -⟩ := h.opened hp
  rw [ha] at hscope
  obtain rfl := Option.some.inj hscope
  rintro rfl
  exact Nat.not_lt_zero _ hlt

section Linked

variable (h : t.Hosts ns) (h' : t'.Hosts ns)

include h h'

/-- Going inside keeps the link. -/
theorem linked_enter (hp : p ∈ ns) (c c' : ScopeId) :
    Linked t t' ns (t.scopeFor p.2 c) (t'.scopeFor p.2 c') := by
  obtain ⟨scope, -, hscope, -⟩ := h.opened hp
  obtain ⟨scope', -, hscope', -⟩ := h'.opened hp
  rw [scopeFor, scopeFor, hscope, hscope']
  exact .opened hp hscope hscope'

/-- Links are one to one. -/
theorem linked_unique {a a' c c' : ScopeId} (ha : Linked t t' ns a a') (hc : Linked t t' ns c c') :
    a = c ↔ a' = c' := by
  cases ha with
  | global =>
    cases hc with
    | global => simp
    | opened hp hc hc' =>
      exact ⟨fun heq => absurd heq.symm (h.ne_global hp hc),
        fun heq => absurd heq.symm (h'.ne_global hp hc')⟩
  | opened hp ha ha' =>
    cases hc with
    | global =>
      exact ⟨fun heq => absurd heq (h.ne_global hp ha),
        fun heq => absurd heq (h'.ne_global hp ha')⟩
    | opened hq hc hc' =>
      constructor
      · rintro rfl
        rw [h.injective hp hq ha hc, hc'] at ha'
        exact (Option.some.inj ha').symm
      · rintro rfl
        rw [h'.injective hp hq ha' hc', hc] at ha
        exact (Option.some.inj ha).symm

/-- The scopes around linked scopes are linked, because constructs stand in the same way around each
other in both tables. -/
theorem linked_enclosing
    (howner : ∀ {w id}, (some w, id) ∈ ns → ∃ owner, (owner, w) ∈ ns) {a a' : ScopeId}
    (ha : Linked t t' ns a a') :
    List.Forall₂ (Linked t t' ns) (t.scopes.enclosing a) (t'.scopes.enclosing a') := by
  -- A scope lies below scopes of smaller numbers.
  induction hn : a.index using Nat.strongRecOn generalizing a a' with
  | ind n ih =>
    cases ha with
    | global =>
      rw [h.outermost, h'.outermost]
      exact .nil
    | @opened p _ _ hp ha ha' =>
      obtain ⟨owner, id⟩ := p
      obtain ⟨scope, place, hscope, hplace, hlt, henclosing⟩ := h.opened hp
      obtain ⟨scope', place', hscope', hplace', -, henclosing'⟩ := h'.opened hp
      obtain rfl := Option.some.inj (ha.symm.trans hscope)
      obtain rfl := Option.some.inj (ha'.symm.trans hscope')
      have hlinked : Linked t t' ns place place' := by
        cases owner with
        | none =>
          cases hplace
          cases hplace'
          exact .global
        | some w =>
          obtain ⟨_, hw⟩ := howner hp
          exact .opened hw hplace hplace'
      rw [henclosing, henclosing']
      exact .cons hlinked (ih _ (hn ▸ hlt) hlinked rfl)

end Linked

end Hosts

end SymbolTable

/-- A construction has the scopes of its unit. -/
theorem Builder.hosts_ofUnit (intrinsics : List (String × TypeExpr)) {u : SourceUnit}
    (hids : u.ids.Nodup) : (ofUnit intrinsics u).table.Hosts (nestings u.decls) := by
  have hbuilt := built_ofUnit intrinsics hids
  -- The construct at position `n` has the scope `1 + n`.
  have hposition : ∀ p ∈ nestings u.decls, ∃ (n : Nat) (o : Opening),
      u.scopedNodes[n]? = some (p.1, o) ∧ o.id = p.2 := by
    intro p hp
    obtain ⟨⟨owner, o⟩, ho, rfl⟩ := List.mem_map.1 hp
    obtain ⟨n, hn⟩ := List.mem_iff_getElem?.1 ho
    exact ⟨n, o, hn, rfl⟩
  refine ⟨hbuilt.outermost, fun hp => ?_, fun {p q scope} hp hq hscope hscope' => ?_⟩
  · obtain ⟨n, o, hn, rfl⟩ := hposition _ hp
    obtain ⟨hid, place, hplace, hholds⟩ := hbuilt.scope_of_scopedNode hn
    exact ⟨_, place, hid, hplace, hholds.below, hholds.enclosing⟩
  · obtain ⟨n, o, hn, heq⟩ := hposition p hp
    obtain ⟨m, o', hm, heq'⟩ := hposition q hq
    rw [← heq, (hbuilt.scope_of_scopedNode hn).1] at hscope
    rw [← heq', (hbuilt.scope_of_scopedNode hm).1] at hscope'
    have hindex : 1 + n = 1 + m :=
      congrArg ScopeId.index (Option.some.inj (hscope.trans hscope'.symm))
    rw [Nat.add_left_cancel hindex, hm] at hn
    have hsame : o' = o := congrArg Prod.snd (Option.some.inj hn)
    rw [← heq, ← heq', hsame]

/-- Linked scopes have the same symbols, in constructions that agree on the nodes of the constructs
and on global names. -/
theorem Builder.AgreeOn.lookupLocal_linked {K : Set Key} {b b' : Builder} (h : AgreeOn K b b')
    {ns : List Nesting} (hb : b.table.Hosts ns) (hb' : b'.table.Hosts ns)
    (hnodes : ∀ p ∈ ns, .node p.2 ∈ K) (hglobal : ∀ name, .global name ∈ K) {a a' : ScopeId}
    (ha : b.table.Linked b'.table ns a a') (name : String) :
    b.table.scopes.lookupLocal a name = b'.table.scopes.lookupLocal a' name := by
  cases ha with
  | global => exact congrArg Prod.fst (h _ (hglobal name))
  | @opened p _ _ hp ha ha' =>
    have hsymbols : b.table.symbolOf p.2 name = b'.table.symbolOf p.2 name :=
      congrFun (congrArg NodeRecord.symbols (h _ (hnodes p hp))) name
    simpa only [SymbolTable.symbolOf, ha, ha', hb.ne_global hp ha, hb'.ne_global hp ha',
      if_false] using hsymbols

/-! ## Links through declarations -/

namespace SymbolTable.Hosts

variable {ctx ctx' : Context} {ds : List Decl} (h : ctx.table.Hosts (nestings ds))
  (h' : ctx'.table.Hosts (nestings ds)) (hctx : ctx.Alike ctx') (ids annotated : Set NodeId)
  (hannotated : ∀ id ∈ annotated,
    ctx.table.annotations.get? id = ctx'.table.annotations.get? id)

/-- The link between two contexts through some declarations, which may write everywhere. -/
def link : Link ctx ctx' where
  scopes := Linked ctx.table ctx'.table (nestings ds)
  ids := ids
  annotated := annotated
  constructs := fun o => ∃ owner, (owner, o.id) ∈ nestings ds
  own := fun _ => True
  contexts := hctx
  annotations := hannotated
  global := .global
  unique := h.linked_unique h'
  enclosing := h.linked_enclosing h' exists_owner
  enter := fun ⟨_, hp⟩ _ => h.linked_enter h' hp _ _
  owned _ _ := trivial

/-- The link through some declarations covers what there is in them. -/
theorem covers_link (hids : ∀ id ∈ ds.flatMap Decl.ids, id ∈ ids)
    (hall : ∀ id ∈ ds.flatMap Decl.ids, id ∈ annotated) :
    (h.link h' hctx ids annotated hannotated).comparison.Covers
      (ds.flatMap (Decl.sites blindRules ())) := by
  have hmade := MadeOf.flatMap (Decl.madeOf blindRules ()) ds
  intro site hsite
  cases site with
  | expr place e => exact hids _ (hmade _ hsite (List.mem_singleton_self e.id))
  | block place b => exact hids _ (hmade _ hsite (List.mem_singleton_self b.id))
  | pattern place p => trivial
  | opening place o => exact ⟨exists_nesting hsite, fun id hid => hall id (hmade _ hsite hid)⟩

end SymbolTable.Hosts

end UnitAnalysis

import UnitAnalysis.Proofs.Check.MirrorBodies
import UnitAnalysis.Proofs.Trait.Permuted

/-!
# Two contexts that have the same body

Two contexts are alike when all look-ups but those of the scope and the annotation of a node have
the same answers. A `Link` says which scopes of two such contexts are the same, for which nodes the
types and the annotations must agree, and which scopes of the first context a check may write to. It
makes a comparison (`Link.comparison`) of sessions that may differ in everything that a body cannot
see, and in which scopes and nodes that are not part of the link are left alone.
-/

set_option autoImplicit false

namespace UnitAnalysis

/-- Every look-up but those of the scope and the annotation of a node finds the same in both
contexts. -/
structure Context.Alike (ctx ctx' : Context) : Prop where
  options : ctx.options = ctx'.options
  decls : ctx.decls.Alike ctx'.decls
  functions : ∀ id, ctx.table.functions.get? id = ctx'.table.functions.get? id
  intrinsics : ∀ name, ctx.table.intrinsics.get? name = ctx'.table.intrinsics.get? name
  registry : ctx.registry.SameAnswers ctx'.registry

theorem Context.Alike.refl (ctx : Context) : ctx.Alike ctx :=
  ⟨rfl, ⟨fun _ => rfl, fun _ => rfl⟩, fun _ => rfl, fun _ => rfl, .refl _⟩

theorem Registry.SameAnswers.renames {r r' : Registry} (h : r.SameAnswers r') : r.Renames id r' where
  implements t trait := (h.implements t trait).symm
  qualified receiver trait method := by
    rw [← h.qualified]
    cases r.resolveQualified receiver trait method <;> rfl
  plain receiver method hknown := by
    rw [← h.plain receiver method hknown]
    cases r.resolveMethod receiver method <;> rfl

theorem Context.Alike.renames {ctx ctx' : Context} (h : ctx.Alike ctx') : ctx.Renames id ctx' where
  decls := h.decls.renames
  functions id := by
    rw [Signature.rename_id, Option.map_id]
    exact (h.functions id).symm
  intrinsics name := (h.intrinsics name).symm
  registry := h.registry.renames

theorem Arena.lookupLocal_resolveType (a : Arena) (scope other : ScopeId) (name seen : String)
    (t : Ty) :
    (a.resolveType scope name t).lookupLocal other seen =
      if other = scope ∧ name = seen then
        (a.lookupLocal other seen).map fun s =>
          { s with declaredType := s.declaredType.or (some t) }
      else a.lookupLocal other seen := by
  unfold resolveType
  rw [lookupLocal_modifySymbols]
  unfold lookupLocal
  by_cases hscope : other = scope
  · subst hscope
    cases a.get? other with
    | none => simp
    | some found => simp [Table.get?_modify]
  · simp [hscope]

/-- How two contexts have the same body. -/
structure Link (ctx ctx' : Context) where
  /-- Which scopes are the same. -/
  scopes : ScopeId → ScopeId → Prop
  /-- The nodes whose types agree. -/
  ids : Set NodeId
  /-- The nodes whose annotations agree. -/
  annotated : Set NodeId
  /-- The constructs whose scopes are linked. -/
  constructs : Set Opening
  /-- The scopes whose names may receive types. -/
  own : Set ScopeId
  contexts : ctx.Alike ctx'
  annotations : ∀ id ∈ annotated,
    ctx.table.annotations.get? id = ctx'.table.annotations.get? id
  global : scopes .global .global
  /-- No scope is linked with two others. -/
  unique : ∀ {a a' c c'}, scopes a a' → scopes c c' → (a = c ↔ a' = c')
  enclosing : ∀ {a a'}, scopes a a' →
    List.Forall₂ scopes (ctx.table.scopes.enclosing a) (ctx'.table.scopes.enclosing a')
  enter : ∀ {o a a'}, o ∈ constructs → scopes a a' →
    scopes (ctx.table.scopeFor o.id a) (ctx'.table.scopeFor o.id a')
  owned : ∀ {o}, o ∈ constructs → ∀ a, ctx.table.scopeFor o.id a ∈ own

namespace Link

variable {ctx ctx' : Context} {a a' : ScopeId} {s s' : Arena}

/-- A context is linked with itself. -/
def refl (ctx : Context) : Link ctx ctx where
  scopes := Eq
  ids := fun _ => True
  annotated := fun _ => True
  constructs := fun _ => True
  own := fun _ => True
  contexts := .refl ctx
  annotations _ _ := rfl
  global := rfl
  unique h h' := by rw [h, h']
  enclosing h := by
    subst h
    exact List.forall₂_refl _
  enter _ h := by rw [h]
  owned _ _ := trivial

variable (L : Link ctx ctx')

/-- The scopes of two sessions that a body cannot tell apart. -/
structure Arenas (s s' : Arena) : Prop where
  symbols : ∀ {a a'}, L.scopes a a' → ∀ name, s.lookupLocal a name = s'.lookupLocal a' name
  enclosing : ∀ a, s.enclosing a = ctx.table.scopes.enclosing a
  enclosing' : ∀ a, s'.enclosing a = ctx'.table.scopes.enclosing a

variable {L}

/-- A name is bound in the same scope by the same symbol, if it is bound at all. -/
theorem Arenas.lookupWithScope (h : L.Arenas s s') (ha : L.scopes a a') (name : String) :
    (s.lookupWithScope a name = none ∧ s'.lookupWithScope a' name = none) ∨
      ∃ owner owner' symbol, (owner = ScopeId.global ↔ owner' = .global) ∧
        s.lookupWithScope a name = some (owner, symbol) ∧
        s'.lookupWithScope a' name = some (owner', symbol.rename id) := by
  have hscopes : List.Forall₂ L.scopes (a :: s.enclosing a) (a' :: s'.enclosing a') := by
    rw [h.enclosing, h.enclosing']
    exact .cons ha (L.enclosing ha)
  unfold Arena.lookupWithScope
  generalize a :: s.enclosing a = l at hscopes ⊢
  generalize a' :: s'.enclosing a' = l' at hscopes ⊢
  induction hscopes with
  | nil => exact .inl ⟨rfl, rfl⟩
  | @cons c c' _ _ hc _ ih =>
    simp only [List.findSome?_cons, h.symbols hc name]
    cases s'.lookupLocal c' name with
    | none => exact ih
    | some symbol =>
      exact .inr ⟨c, c', symbol, L.unique hc L.global, rfl, by rw [Symbol.rename_id]; rfl⟩

/-- Names of linked scopes receive types in both sessions. -/
theorem Arenas.resolveType (h : L.Arenas s s') (ha : L.scopes a a') (name : String) (t : Ty) :
    L.Arenas (s.resolveType a name t) (s'.resolveType a' name t) where
  symbols hc seen := by
    simp only [Arena.lookupLocal_resolveType, h.symbols hc, L.unique hc ha]
  enclosing c := by
    rw [← h.enclosing]
    exact (Arena.defines_resolveType s a name t).enclosing c
  enclosing' c := by
    rw [← h.enclosing']
    exact (Arena.defines_resolveType s' a' name t).enclosing c

/-- The comparison of two checks through a link. -/
def comparison (L : Link ctx ctx') : Comparison ctx ctx' where
  rename := id
  scopes := L.scopes
  ids := L.ids
  annotated := L.annotated
  constructs := L.constructs
  own := L.own
  Arenas := L.Arenas
  Tables t t' := ∀ id ∈ L.ids, t.get? id = t'.get? id
  KeptScopes s t := ∀ a ∉ L.own, ∀ name, t.lookupLocal a name = s.lookupLocal a name
  KeptTypes s t := ∀ id ∉ L.ids, t.get? id = s.get? id
  contexts := L.contexts.renames
  annotations id hid := (L.annotations id hid).symm
  global := L.global
  enter := L.enter
  owned := L.owned
  lookupWithScope h ha := h.lookupWithScope ha
  get? h id hid := (h id hid).symm
  resolveType h ha hown name t := by
    refine ⟨h.resolveType ha name t, fun c hc seen => ?_⟩
    rw [Arena.lookupLocal_resolveType, if_neg]
    rintro ⟨rfl, -⟩
    exact hc hown
  insert h id hid ty := by
    refine ⟨fun other hother => ?_, fun other hother => ?_⟩
    · by_cases heq : id = other
      · rw [heq, Table.get?_insert_self]
        exact (Table.get?_insert_self _ _ _).symm
      · rw [Table.get?_insert_of_ne _ heq, h other hother]
        exact (Table.get?_insert_of_ne _ heq _).symm
    · have hne : id ≠ other := fun heq => hother (heq ▸ hid)
      exact Table.get?_insert_of_ne _ hne _
  keptScopes_refl _ _ _ _ := rfl
  keptScopes_trans h h' a ha name := (h' a ha name).trans (h a ha name)
  keptTypes_refl _ _ _ := rfl
  keptTypes_trans h h' id hid := (h' id hid).trans (h id hid)

/-- The steps of a check that a link compares. -/
abbrev Mirrors {α : Type} (L : Link ctx ctx') : Check α → Check α → Prop :=
  Check.Mirrors L.comparison Eq

/-- Both checks report the same problems. -/
theorem found {α : Type} {V : α → α → Prop} {s s' : Session} {r r' : α × Session}
    (h : L.comparison.Mirrored V s s' r r') :
    ∃ found, r.2.findings = s.findings ++ found ∧ r'.2.findings = s'.findings ++ found := by
  obtain ⟨all, hfound, hfound'⟩ := h.findings
  rw [← L.contexts.options] at hfound'
  exact ⟨_, hfound, hfound'⟩

/-- A name stands for the same in both sessions. -/
theorem lookup {s s' : Session} (h : L.comparison.Alike s s') (ha : L.scopes a a') (name : String) :
    s.scopes.lookup a name = s'.scopes.lookup a' name := by
  rw [h.lookup ha name, show L.comparison.rename = id from rfl, Symbol.rename_id, Option.map_id]
  rfl

/-- A context covers everything by itself. -/
theorem covers_refl (sites : List (Site Unit)) : (refl ctx).comparison.Covers sites := by
  intro site _
  cases site with
  | opening place o => exact ⟨trivial, fun _ _ => trivial⟩
  | _ => trivial

/-! ## Declarations -/

variable {isMethod : Bool}

theorem function_mirrors (f : FunctionDecl) (ha : L.scopes a a')
    (hc : L.comparison.Covers (f.sites blindRules () isMethod)) :
    L.Mirrors (Check.function ctx a f) (Check.function ctx' a' f) := by
  have h := Check.function_mirrors f ha hc
  rwa [show L.comparison.rename = id from rfl, FunctionDecl.rename_id] at h

theorem functions_mirrors (fs : List FunctionDecl) (ha : L.scopes a a')
    (hc : L.comparison.Covers (fs.flatMap (FunctionDecl.sites blindRules () isMethod))) :
    L.Mirrors (fs.forM (Check.function ctx a)) (fs.forM (Check.function ctx' a')) := by
  have h := Check.functions_mirrors fs ha hc
  rwa [show L.comparison.rename = id from rfl, FunctionDecl.rename_id, List.map_id] at h

theorem initializers_mirrors (owner : String) (fields : List FieldDecl) (ha : L.scopes a a')
    (hids : ∀ id ∈ fields.flatMap FieldDecl.ids, id ∈ L.annotated)
    (hc : L.comparison.Covers (fields.flatMap (FieldDecl.sites blindRules ()))) :
    L.Mirrors (fields.forM (Check.initializer ctx a owner))
      (fields.forM (Check.initializer ctx' a' owner)) := by
  have h := Check.initializers_mirrors owner fields ha hids hc
  rwa [show L.comparison.rename = id from rfl, FieldDecl.rename_id, List.map_id] at h

theorem declBodies_mirrors (d : Decl) (hids : ∀ id ∈ d.ids, id ∈ L.annotated)
    (hc : L.comparison.Covers (d.sites blindRules ())) :
    L.Mirrors (Check.declBodies ctx d) (Check.declBodies ctx' d) := by
  have h := Check.declBodies_mirrors d hids hc
  rwa [show L.comparison.rename = id from rfl, Decl.rename_id] at h

section

variable (ds : List Decl) (hids : ∀ id ∈ ds.flatMap Decl.ids, id ∈ L.annotated)
  (hc : L.comparison.Covers (ds.flatMap (Decl.sites blindRules ())))

include hids hc

theorem declsBodies_mirrors :
    L.Mirrors (ds.forM (Check.declBodies ctx)) (ds.forM (Check.declBodies ctx')) := by
  have h := Check.declsBodies_mirrors ds hids hc
  rwa [show L.comparison.rename = id from rfl, Decl.rename_id, List.map_id] at h

theorem declScripts_mirrors (hown : .global ∈ L.own) :
    L.Mirrors (ds.forM (Check.declScript ctx)) (ds.forM (Check.declScript ctx')) := by
  have h := Check.declScripts_mirrors ds hown hids hc
  rwa [show L.comparison.rename = id from rfl, Decl.rename_id, List.map_id] at h

end

theorem unit_mirrors (u : SourceUnit) (hown : .global ∈ L.own)
    (hids : ∀ id ∈ u.decls.flatMap Decl.ids, id ∈ L.annotated)
    (hc : L.comparison.Covers (u.sites blindRules ())) :
    L.Mirrors (Check.unit ctx u) (Check.unit ctx' u) :=
  (declScripts_mirrors u.decls hids hc hown).bind fun _ => declsBodies_mirrors u.decls hids hc

end Link

end UnitAnalysis

import UnitAnalysis.Proofs.Check.MirrorBodies

/-!
# Checks do not depend on identities

`Context.Renamed` says that one check sees what another one sees, with all nodes renamed; the
options of the two may differ. The two checks are then compared by the renaming: their sessions are
the same, with all nodes renamed, from the first step to the last.
-/

set_option autoImplicit false

namespace UnitAnalysis

open Function (Injective)

/-- A check sees in the second context what it sees in the first one, with all nodes renamed. -/
structure Context.Renamed (f : NodeId → NodeId) (ctx ctx' : Context) : Prop where
  table : ctx'.table = ctx.table.rename f
  registry : ctx'.registry = ctx.registry.rename f

namespace Context.Renamed

variable {f : NodeId → NodeId} {ctx ctx' : Context}

/-- A context is its own renaming when nothing is renamed. -/
theorem self (ctx : Context) : ctx.Renamed id ctx :=
  ⟨ctx.table.rename_id.symm, ctx.registry.rename_id.symm⟩

/-- An injective renaming of the tables is a renaming of what bodies read. -/
theorem renames (h : ctx.Renamed f ctx') (hf : Injective f) : ctx.Renames f ctx' where
  decls := by
    have hdecls : ctx'.decls = ctx.decls.rename f := congrArg SymbolTable.decls h.table
    rw [hdecls]
    exact ctx.decls.renames_rename f
  functions id := by
    rw [h.table]
    exact ctx.table.signature_rename hf id
  intrinsics name := by
    rw [h.table]
    rfl
  registry := by
    rw [h.registry]
    exact ⟨ctx.registry.implements_rename f, ctx.registry.resolveQualified_rename f,
      fun receiver method _ => ctx.registry.resolveMethod_rename f receiver method⟩

/-- The comparison of two checks by a renaming. -/
def comparison (h : ctx.Renamed f ctx') (hf : Injective f) : Comparison ctx ctx' where
  rename := f
  scopes := Eq
  ids := fun _ => True
  annotated := fun _ => True
  constructs := fun _ => True
  own := fun _ => True
  Arenas s s' := s' = s.rename f
  Tables t t' := t' = t.mapKeys f
  KeptScopes _ _ := True
  KeptTypes _ _ := True
  contexts := h.renames hf
  annotations id _ := by
    rw [h.table]
    exact ctx.table.annotation_rename hf id
  global := rfl
  enter {o a a'} _ ha := by
    rw [← ha, h.table]
    exact (ctx.table.scopeFor_rename hf o.id a).symm
  owned _ _ := trivial
  lookupWithScope {s s' a a'} hs ha name := by
    subst hs ha
    rw [Arena.lookupWithScope_rename]
    cases s.lookupWithScope a name with
    | none => exact .inl ⟨rfl, rfl⟩
    | some found => exact .inr ⟨found.1, found.1, found.2, .rfl, rfl, rfl⟩
  get? {t t'} ht id _ := by
    rw [ht]
    exact Table.get?_mapKeys hf t id
  resolveType {s s' a a'} hs ha _ name ty := by
    rw [hs, ← ha]
    exact ⟨(s.rename_resolveType f a name ty).symm, trivial⟩
  insert {t t'} ht id _ ty := by
    rw [ht]
    exact ⟨(Table.mapKeys_insert hf t id ty).symm, trivial⟩
  keptScopes_refl _ := trivial
  keptScopes_trans _ _ := trivial
  keptTypes_refl _ := trivial
  keptTypes_trans _ _ := trivial

/-- A renaming compares everything. -/
theorem covers (h : ctx.Renamed f ctx') (hf : Injective f) (sites : List (Site Unit)) :
    (h.comparison hf).Covers sites := by
  intro site _
  cases site with
  | opening place o => exact ⟨trivial, fun _ _ => trivial⟩
  | _ => trivial

end Context.Renamed

end UnitAnalysis

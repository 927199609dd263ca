import UnitAnalysis.Proofs.Symbols.Bodies
import UnitAnalysis.Proofs.Symbols.Globals

/-!
# The symbol table of a unit

The three rounds of a construction together. When no two nodes of a unit have the same identity, the
walk through its bodies came by the sites of the unit in order, and the scopes beside the global one
are those of its constructs, in the order of the sites. The global scope has the declared names and
the names of the script, and there is nothing around it.
-/

set_option autoImplicit false

namespace UnitAnalysis

/-- The sites of a unit with the scopes that a table has for them. -/
def SourceUnit.scopeSites (u : SourceUnit) (table : SymbolTable) : List (Site ScopeId) :=
  u.sites (scopeRules table) .global

/-- The names that the script makes global. -/
def SourceUnit.scriptNames (patternNames : Pattern → List String) (u : SourceUnit) : List String :=
  u.decls.flatMap (Decl.scriptNames patternNames)

/-- What a construction leaves behind. -/
structure Builder.Built (intrinsics : List (String × TypeExpr)) (u : SourceUnit) (b : Builder) :
    Prop where
  visits : b.visits.toList = (u.scopeSites b.table).flatMap Site.visits
  size : b.table.scopes.size = 1 + (openings (u.scopeSites b.table)).length
  opened : ∀ n place o, (openings (u.scopeSites b.table))[n]? = some (place, o) →
    b.table.scopeMap.get? o.id = some ⟨1 + n⟩ ∧
      b.table.scopes.Holds b.table.decls ⟨1 + n⟩ place o
  global : ∀ name, b.table.scopes.Binds .global name ↔
    name ∈ u.declaredNames intrinsics ∨ name ∈ u.scriptNames (Pattern.defined b.table.decls)
  outermost : b.table.scopes.enclosing .global = []
  variants : ∀ name, (b.table.decls.variant? name).isSome → name ∈ u.declaredNames intrinsics
  placement : placement b.findings = []

/-- The third round starts from what the first two declared and follows the sites of the unit. -/
theorem Builder.follows_ofUnit (intrinsics : List (String × TypeExpr)) (u : SourceUnit) :
    let b := ((Build.declare intrinsics u).run {}).2
    Builder.Declares (u.declaredNames intrinsics) {} b ∧
      Builder.Follows .global (u.scriptNames (Pattern.defined b.table.decls))
        (u.decls.flatMap Decl.ids) u.scopeSites b (Builder.ofUnit intrinsics u) := by
  intro b
  have hdeclares : Builder.Declares (u.declaredNames intrinsics) {} b :=
    (Build.declare_declares intrinsics u).run {} Nat.one_pos
  have hready : Build.Ready b.table.decls .global b := by
    refine ⟨rfl, hdeclares.size_pos Nat.one_pos, fun id scope hid => ?_⟩
    rw [hdeclares.scopeMap] at hid
    cases hid
  rw [Build.ofUnit_eq intrinsics u]
  exact ⟨hdeclares, (Build.visitDecls_follows u).run b hready⟩

/-- A construction for a unit whose nodes have identities of their own. -/
theorem Builder.built_ofUnit (intrinsics : List (String × TypeExpr)) {u : SourceUnit}
    (hids : u.ids.Nodup) : (Builder.ofUnit intrinsics u).Built intrinsics u := by
  obtain ⟨hdeclares, hfollows⟩ := Builder.follows_ofUnit intrinsics u
  -- The state between the second and the third round.
  generalize ((Build.declare intrinsics u).run {}).2 = b at hdeclares hfollows
  have hsize : b.table.scopes.size = 1 := hdeclares.scopes.size
  have htraces := hfollows.traces (List.nodup_cons.1 hids).2 (Builder.ofUnit intrinsics u).table
    fun _ _ => rfl
  have hglobal : ScopeId.global.index < b.table.scopes.size := hsize ▸ Nat.one_pos
  refine ⟨?_, ?_, ?_, fun name => ?_, ?_, fun name hname => ?_, ?_⟩
  · rw [htraces.visits, hdeclares.visits]
    rfl
  · rw [htraces.size, hsize]
  · intro n place o hn
    have hopened := htraces.opened n place o hn
    rwa [hsize] at hopened
  · rw [hfollows.scopes.binds .global name hglobal, hdeclares.scopes.binds, hfollows.decls]
    have hnone : ¬ Arena.Binds {} .global name := by
      simp [Arena.Binds, Arena.lookupLocal, Arena.get?, ScopeId.global, Table.get?, Table.find]
    have hinside : ScopeId.global.index < ({} : Arena).size := Nat.one_pos
    simp only [hnone, hinside, true_and, false_or]
  · rw [hfollows.scopes.enclosing .global hglobal, hdeclares.scopes.enclosing]
    rfl
  · rw [hfollows.decls] at hname
    refine (hdeclares.variants name hname).resolve_left ?_
    simp [DeclIndex.variant?, Table.get?, Table.find]
  · rw [hfollows.placement, hdeclares.placement]
    rfl

end UnitAnalysis

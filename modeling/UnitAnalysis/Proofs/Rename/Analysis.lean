import UnitAnalysis.Proofs.Rename.Bodies
import UnitAnalysis.Proofs.Rename.Construct
import UnitAnalysis.Proofs.Scope.Agreement

/-!
# Identities and options in an analysis

Two analyses of one unit, the second one with all nodes renamed and perhaps under other options, go
on in lockstep from the first declaration to the last body. So identities are mere keys: a renamed
unit has the same diagnostics and the same tables under renamed keys. And options decide on nothing
but the two kinds of diagnostics that they are about.
-/

set_option autoImplicit false

namespace UnitAnalysis

open Function (Injective)

/-- What is known of a unit, with all nodes renamed. -/
def Analysis.rename (f : NodeId → NodeId) (a : Analysis) : Analysis :=
  { table := a.table.rename f
    types := a.types.mapKeys f
    registry := a.registry.rename f
    findings := a.findings }

variable {f : NodeId → NodeId}

/-- The builder of a renamed unit is the renamed builder, with the same findings. -/
theorem Builder.ofUnit_rename (hf : Injective f) (intrinsics : List (String × TypeExpr))
    (u : SourceUnit) :
    (ofUnit intrinsics u).Renamed f (ofUnit intrinsics (u.rename f)) ∧
      (ofUnit intrinsics (u.rename f)).findings = (ofUnit intrinsics u).findings ∧
      Reports Build.codes (ofUnit intrinsics u).findings := by
  have htable : ({} : SymbolTable) = ({} : SymbolTable).rename f := by
    simp [SymbolTable.rename, Arena.rename, Scope.rename, DeclIndex.rename, Table.mapKeys,
      Table.mapValues]
  have hempty : ({} : Builder).Renamed f {} := ⟨htable, rfl, rfl, rfl⟩
  obtain ⟨-, hend, found, hcodes, hfound, hfound'⟩ :=
    (Build.unit_lockstep hf intrinsics u).run {} {} hempty
  unfold ofUnit
  refine ⟨hend, hfound'.trans hfound.symm, ?_⟩
  rw [hfound]
  exact hcodes

/-- Both analyses report one list of findings, each under its own options, and their tables differ
in the identities of nodes only. -/
theorem analyze_lockstep (hf : Injective f) {config config' : Config}
    (h : config.intrinsics = config'.intrinsics) (u : SourceUnit) :
    (analyze config' (u.rename f)).table = (analyze config u).table.rename f ∧
      (analyze config' (u.rename f)).types = (analyze config u).types.mapKeys f ∧
      (analyze config' (u.rename f)).registry = (analyze config u).registry.rename f ∧
      ∃ all : List Finding,
        (analyze config u).findings = all.filterMap (Finding.under config.analysis) ∧
        (analyze config' (u.rename f)).findings =
          all.filterMap (Finding.under config'.analysis) := by
  have hintrinsics : config'.readableIntrinsics = config.readableIntrinsics := by
    simp only [Config.readableIntrinsics, h]
  obtain ⟨hbuilder, hfindings, hcodes⟩ := Builder.ofUnit_rename hf config.readableIntrinsics u
  simp only [analyze_eq, hintrinsics]
  generalize Builder.ofUnit config.readableIntrinsics u = b at *
  generalize Builder.ofUnit config.readableIntrinsics (u.rename f) = b' at *
  have hregistry : Registry.ofLists b'.traits b'.impls =
      (Registry.ofLists b.traits b.impls).map (Registry.rename f) id := by
    rw [hbuilder.traits, hbuilder.impls, Registry.ofLists_rename]
  have hregistered := Registry.reports_ofLists b.traits b.impls
  rw [hregistry]
  generalize Registry.ofLists b.traits b.impls = r at *
  -- the check goes on from what construction and registration report, which no option changes
  have hcontext : Context.Renamed f ⟨b.table, r.1, config.analysis⟩
      ⟨b'.table, (r.map (Registry.rename f) id).1, config'.analysis⟩ := ⟨hbuilder.table, rfl⟩
  have hsession : (hcontext.comparison hf).Alike
      { scopes := b.table.scopes, findings := b.findings ++ r.2 }
      { scopes := b'.table.scopes, findings := b'.findings ++ (r.map (Registry.rename f) id).2 } :=
    ⟨congrArg SymbolTable.scopes hbuilder.table, rfl, rfl⟩
  have hmirrors : Check.Mirrors (hcontext.comparison hf) Eq (Check.unit _ u)
      (Check.unit _ (u.rename f)) :=
    Check.unit_mirrors u trivial (fun _ _ => trivial) (hcontext.covers hf _)
  obtain ⟨-, hend, -, all, hall, hall'⟩ := hmirrors.run _ _ hsession
  have hscopes : _ = _ := hend.scopes
  have hbefore : ∀ o : Options,
      (b.findings ++ r.2).filterMap (Finding.under o) = b.findings ++ r.2 := by
    intro o
    rw [List.filterMap_append, hcodes.filterMap_under (by decide),
      hregistered.filterMap_under (by decide)]
  refine ⟨?_, hend.types, rfl, b.findings ++ r.2 ++ all, ?_, ?_⟩
  · rw [hscopes, hbuilder.table]
    rfl
  · rw [hall, List.filterMap_append, hbefore]
  · rw [hall', List.filterMap_append, hbefore, hfindings]
    rfl

/-- Identities are mere keys: a unit with renamed nodes has the same diagnostics, and all that is
known of it is what was known before, under renamed keys. -/
theorem analyze_rename (hf : Injective f) (config : Config) (u : SourceUnit) :
    (analyze config (u.rename f)).diagnostics = (analyze config u).diagnostics ∧
      analyze config (u.rename f) = (analyze config u).rename f := by
  obtain ⟨htable, htypes, hregistry, all, hall, hall'⟩ :=
    analyze_lockstep hf (rfl : config.intrinsics = config.intrinsics) u
  have hfindings : (analyze config (u.rename f)).findings = (analyze config u).findings :=
    hall'.trans hall.symm
  have heta : ∀ a : Analysis, a = ⟨a.table, a.types, a.registry, a.findings⟩ := fun _ => rfl
  refine ⟨congrArg (List.map Finding.toDiagnostic) hfindings, ?_⟩
  rw [heta (analyze config (u.rename f)), htable, htypes, hregistry, hfindings]
  rfl

/-- An asynchronous function that compares a number with a text and returns the wrong type, and a
function whose body has the identity of the first one's. The body is not looked into again, so the
wrong type of the first body is the type of the second one. -/
def lateResults : SourceUnit :=
  let node (n : UInt64) : Node := ⟨⟨n⟩, { line := n }⟩
  let int : TypeExpr := .named {} "Int" []
  { node := node 0
    decls :=
      [.function
        { node := node 1, name := "load", isAsync := true, returnType := some int
          body := ⟨node 2, [.expr (node 3) (.binary (node 4) .eq (.literal (node 5) (.int 1))
            (.literal (node 6) (.string "one")))], some (.literal (node 7) (.string "late"))⟩ },
      .function
        { node := node 8, name := "again", returnType := some int
          body := ⟨{ node 9 with id := ⟨2⟩ }, [], some (.literal (node 10) (.int 1))⟩ }] }

/-- The next id determines the id. -/
theorem NodeId.next_injective : Injective NodeId.next := by
  intro a b h
  have hval : a.val + 1 = b.val + 1 := congrArg NodeId.val h
  have hsame : a.val = b.val := by simpa using hval
  exact congrArg NodeId.mk hsame

/-- A unit whose ids are all moved by one. -/
theorem analyze_rename_lateResults :
    Injective NodeId.next ∧
      ((analyze {} lateResults).types.keys.map fun id => id.val) = [5, 6, 4, 7, 2] ∧
      ((analyze {} (lateResults.rename .next)).types.keys.map fun id => id.val) =
        [6, 7, 5, 8, 3] ∧
      ((analyze {} lateResults).diagnostics.map fun d => d.code) = ["TC031", "TC030"] ∧
      (analyze {} (lateResults.rename .next)).diagnostics = (analyze {} lateResults).diagnostics ∧
      analyze {} (lateResults.rename .next) = (analyze {} lateResults).rename .next :=
  ⟨NodeId.next_injective, by decide +kernel, by decide +kernel, by decide +kernel,
    analyze_rename NodeId.next_injective {} lateResults⟩

/-- Options affect only the diagnostics that they are about. Under two configurations with the same
intrinsics, all that is known of a unit is the same, and so are the diagnostics without comparisons
and without the severity of wrong results of asynchronous functions. Comparisons are reported only
when they are checked strictly, and those results with the severity that was asked for. -/
theorem options_decide_their_diagnostics (config config' : Config)
    (h : config.intrinsics = config'.intrinsics) (u : SourceUnit) :
    (analyze config u).table = (analyze config' u).table ∧
      (analyze config u).types = (analyze config' u).types ∧
      (analyze config u).registry = (analyze config' u).registry ∧
      (analyze config u).diagnostics.filterMap Diagnostic.apartFromOptions =
        (analyze config' u).diagnostics.filterMap Diagnostic.apartFromOptions ∧
      (config.analysis.strictComparisons = false →
        ∀ d ∈ (analyze config u).diagnostics, d.code ≠ Code.comparisonOperands.text) ∧
      ∀ d ∈ (analyze config u).diagnostics, d.code = Code.asyncReturnTypeMismatch.text →
        d.severity = config.analysis.asyncReturnMismatch.severity := by
  obtain ⟨htable, htypes, hregistry, all, hall, hall'⟩ :=
    analyze_lockstep Function.injective_id h u
  rw [u.rename_id] at htable htypes hregistry hall'
  rw [SymbolTable.rename_id] at htable
  rw [Table.mapKeys_id] at htypes
  rw [Registry.rename_id] at hregistry
  have hunder : ∀ d ∈ (analyze config u).diagnostics, ∃ f g : Finding,
      f.under config.analysis = some g ∧ d = g.toDiagnostic := by
    intro d hd
    obtain ⟨g, hg, rfl⟩ := List.mem_map.1 hd
    rw [hall] at hg
    obtain ⟨f, -, hf⟩ := List.mem_filterMap.1 hg
    exact ⟨f, g, hf, rfl⟩
  refine ⟨htable.symm, htypes.symm, hregistry.symm, ?_, fun hlenient d hd hcode => ?_,
    fun d hd hcode => ?_⟩
  · simp only [Analysis.diagnostics, hall, hall', List.map_filterMap, List.filterMap_filterMap]
    exact congrArg (List.filterMap · all)
      (funext (Finding.apartFromOptions_under config.analysis config'.analysis))
  · obtain ⟨f, g, hg, rfl⟩ := hunder d hd
    have hstrict := Finding.strict_of_under hg (Finding.toDiagnostic_code_eq_iff.1 hcode)
    rw [hlenient] at hstrict
    cases hstrict
  · obtain ⟨f, g, hg, rfl⟩ := hunder d hd
    exact Finding.severity_of_under hg (Finding.toDiagnostic_code_eq_iff.1 hcode)

/-- All that options can ask for. -/
def strictConfig : Config :=
  { analysis := { strictComparisons := true, asyncReturnMismatch := .error } }

/-- Strict options turn a warning into an error. -/
theorem options_decide_lateResults :
    ({} : Config).intrinsics = strictConfig.intrinsics ∧
      ((analyze {} lateResults).diagnostics.map fun d => (d.code, d.severity)) =
        [("TC031", .warning), ("TC030", .error)] ∧
      ((analyze strictConfig lateResults).diagnostics.map fun d => (d.code, d.severity)) =
        [("TC006", .error), ("TC031", .error), ("TC030", .error)] ∧
      (analyze {} lateResults).diagnostics.filterMap Diagnostic.apartFromOptions =
        (analyze strictConfig lateResults).diagnostics.filterMap Diagnostic.apartFromOptions :=
  ⟨rfl, by decide +kernel, by decide +kernel,
    (options_decide_their_diagnostics {} strictConfig rfl lateResults).2.2.2.1⟩

end UnitAnalysis

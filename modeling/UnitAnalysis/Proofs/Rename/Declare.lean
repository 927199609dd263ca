import UnitAnalysis.Proofs.Declared.Alike
import UnitAnalysis.Proofs.Symbols.Define

/-!
# Declarations do not depend on identities

A unit with renamed nodes is declared step by step as before: every table ends up with its keys
renamed, the same names are taken, and the same problems are reported in the same order. The
problems that the construction of a symbol table can report are few, and none of them hangs on
options.
-/

set_option autoImplicit false

namespace UnitAnalysis

open Function (Injective)

/-- A construction can tell two states apart only by the identities of nodes. -/
structure Builder.Renamed (f : NodeId → NodeId) (b b' : Builder) : Prop where
  table : b'.table = b.table.rename f
  traits : b'.traits = b.traits.map (Trait.rename f)
  impls : b'.impls = b.impls.map (Implementation.rename f)
  shadowed : b'.shadowed = b.shadowed.map f

/-- Renamed constructions declare renamed types. -/
theorem Builder.Renamed.decls {f : NodeId → NodeId} {b b' : Builder} (hb : b.Renamed f b') :
    b.table.decls.Renames f b'.table.decls := by
  rw [hb.table]
  exact b.table.decls.renames_rename f

/-- A renamed function has the renamed signature. -/
theorem Builder.Renamed.signature {f : NodeId → NodeId} {b b' : Builder} (hb : b.Renamed f b')
    (hf : Function.Injective f) (d : FunctionDecl) :
    b'.table.functions.get? (d.rename f).node.id =
      (b.table.functions.get? d.node.id).map (Signature.rename f) := by
  rw [hb.table]
  exact b.table.signature_rename hf d.node.id

/-- The head of a declaration with its node renamed. -/
def TypeHead.rename (f : NodeId → NodeId) (h : TypeHead) : TypeHead :=
  { h with node := h.node.rename f }

namespace Build

/-- The codes of what a construction can report. -/
def codes : List Code :=
  [.duplicateDefinition, .duplicateMember, .duplicatePatternBinding, .orPatternBindingMismatch,
    .unknownType]

/-- Two steps of a construction do the same, the second one on nodes that are renamed by `f`. Its
value is that of the first one, renamed by `ρ`. -/
structure Lockstep (f : NodeId → NodeId) {α : Type} (ρ : α → α) (x x' : Build α) : Prop where
  run : ∀ b b' : Builder, b.Renamed f b' →
    (x'.run b').1 = ρ (x.run b).1 ∧ (x.run b).2.Renamed f (x'.run b').2 ∧
      ∃ found, Reports codes found ∧ (x.run b).2.findings = b.findings ++ found ∧
        (x'.run b').2.findings = b'.findings ++ found

variable {f : NodeId → NodeId} {α β ι : Type} {ρ : α → α} {σ : β → β}

namespace Lockstep

/-- A step that does nothing. -/
theorem pure {v v' : α} (h : v' = ρ v) : Lockstep f ρ (Pure.pure v) (Pure.pure v') := by
  refine ⟨fun b b' hb => ?_⟩
  exact ⟨h, hb, [], .nil, (List.append_nil _).symm, (List.append_nil _).symm⟩

/-- A step whose value is renamed, and then one that is given the value. -/
theorem bindVia {x x' : Build α} {k k' : α → Build β} (hx : Lockstep f ρ x x')
    (hk : ∀ v, Lockstep f σ (k v) (k' (ρ v))) : Lockstep f σ (x >>= k) (x' >>= k') := by
  refine ⟨fun b b' hb => ?_⟩
  obtain ⟨hvalue, hmiddle, found, hcodes, hfound, hfound'⟩ := hx.run b b' hb
  obtain ⟨hvalue', hend, more, hcodes', hmore, hmore'⟩ := (hk _).run _ _ hmiddle
  simp only [run_bind, hvalue]
  refine ⟨hvalue', hend, found ++ more, hcodes.append hcodes', ?_, ?_⟩
  · rw [hmore, hfound, List.append_assoc]
  · rw [hmore', hfound', List.append_assoc]

/-- One step after another. -/
theorem bind {x x' : Build α} {k k' : α → Build β} (hx : Lockstep f id x x')
    (hk : ∀ v, Lockstep f σ (k v) (k' v)) : Lockstep f σ (x >>= k) (x' >>= k') :=
  hx.bindVia hk

/-- A step that looks at the construction. -/
theorem look {k k' : Builder → Build β}
    (hk : ∀ b b', b.Renamed f b' → Lockstep f σ (k b) (k' b')) :
    Lockstep f σ (get >>= k) (get >>= k') := by
  exact ⟨fun b b' hb => (hk b b' hb).run b b' hb⟩

/-- Both constructions report the same. -/
theorem report {found : List Finding} (h : Reports codes found) :
    Lockstep f id (report found) (report found) := by
  refine ⟨fun b b' hb => ?_⟩
  exact ⟨rfl, ⟨hb.table, hb.traits, hb.impls, hb.shadowed⟩, found, h, rfl, rfl⟩

/-- A change that reports nothing. -/
theorem modify {g g' : Builder → Builder}
    (h : ∀ b b', b.Renamed f b' → (g b).Renamed f (g' b'))
    (hfindings : ∀ b, (g b).findings = b.findings)
    (hfindings' : ∀ b, (g' b).findings = b.findings) :
    Lockstep f id (modify g) (modify g') := by
  refine ⟨fun b b' hb => ⟨rfl, h b b' hb, [], .nil, ?_, ?_⟩⟩
  · rw [List.append_nil]
    exact hfindings b
  · rw [List.append_nil]
    exact hfindings' b'

/-- A call that is noted. -/
theorem visit (v v' : Visit) : Lockstep f id (visit v) (visit v') :=
  modify (fun _ _ hb => ⟨hb.table, hb.traits, hb.impls, hb.shadowed⟩) (fun _ => rfl) fun _ => rfl

/-- Several calls that are noted. -/
theorem visitAll (vs vs' : List Visit) : Lockstep f id (visitAll vs) (visitAll vs') :=
  modify (fun _ _ hb => ⟨hb.table, hb.traits, hb.impls, hb.shadowed⟩) (fun _ => rfl) fun _ => rfl

/-- A change of the table that goes along with renaming. -/
theorem modifyTable {g g' : SymbolTable → SymbolTable}
    (h : ∀ t : SymbolTable, g' (t.rename f) = (g t).rename f) :
    Lockstep f id (modifyTable g) (modifyTable g') := by
  refine modify (fun b b' hb => ⟨?_, hb.traits, hb.impls, hb.shadowed⟩) (fun _ => rfl) fun _ => rfl
  exact (congrArg g' hb.table).trans (h b.table)

/-- A choice that both constructions make alike. -/
theorem ite {p : Prop} [Decidable p] {x x' y y' : Build α} (hx : Lockstep f ρ x x')
    (hy : Lockstep f ρ y y') : Lockstep f ρ (if p then x else y) (if p then x' else y') := by
  split
  · exact hx
  · exact hy

/-- Steps for the members of a list, whose nodes are renamed. -/
theorem forM {xs : List ι} {rename : ι → ι} {step step' : ι → Build PUnit}
    (h : ∀ x ∈ xs, Lockstep f id (step x) (step' (rename x))) :
    Lockstep f id (xs.forM step) ((xs.map rename).forM step') := by
  induction xs with
  | nil => exact pure rfl
  | cons x xs ih =>
    exact (h x List.mem_cons_self).bind fun _ =>
      ih fun y hy => h y (List.mem_cons_of_mem _ hy)

/-! ## Primitive steps -/

/-- A written type resolves to the same type. -/
theorem resolve (g : Generics) (e : TypeExpr) : Lockstep f id (resolve g e) (resolve g e) := by
  refine look fun b b' hb => ?_
  rw [TypeExpr.resolve_congr hb.decls.contains g e]
  exact (report ((reports_resolve _ g e).mono (by decide))).bind fun _ => pure rfl

/-- Written types resolve to the same types. -/
theorem resolveAll (g : Generics) (es : List TypeExpr) :
    Lockstep f id (resolveAll g es) (resolveAll g es) := by
  induction es with
  | nil => exact pure rfl
  | cons e es ih => exact (resolve g e).bind fun _ => ih.bind fun _ => pure rfl

/-- A written type that may be missing. -/
theorem resolveOption (g : Generics) (e : Option TypeExpr) :
    Lockstep f id (resolveOption g e) (resolveOption g e) := by
  cases e with
  | none => exact pure rfl
  | some e => exact (resolve g e).bind fun _ => pure rfl

/-- A node gets a type. -/
theorem annotate (hf : Injective f) (node : Node) (t : Ty) :
    Lockstep f id (annotate node.id t) (annotate (node.rename f).id t) := by
  apply modifyTable
  intro table
  simp [SymbolTable.rename, Node.rename, Table.mapKeys_insert hf]

/-- A function gets its signature. -/
theorem recordSignature (hf : Injective f) (s : Signature) :
    Lockstep f id (recordSignature s) (recordSignature (s.rename f)) := by
  apply modifyTable
  intro table
  simp [SymbolTable.rename, Table.mapValues_insert, Table.mapKeys_insert hf]
  rfl

/-- A node opens a scope of the same number. -/
theorem enter (hf : Injective f) (parent : ScopeId) (kind : ScopeKind) (node : Node) :
    Lockstep f id (enter parent kind node.id) (enter parent kind (node.rename f).id) := by
  refine look fun b b' hb => ?_
  have henter : b'.table.scopes.enter parent kind =
      ((b.table.scopes.enter parent kind).1, (b.table.scopes.enter parent kind).2.rename f) := by
    rw [hb.table]
    exact b.table.scopes.enter_rename f parent kind
  rw [henter]
  obtain ⟨scope, scopes⟩ := b.table.scopes.enter parent kind
  refine (modifyTable fun table => ?_).bind fun _ => pure rfl
  simp [SymbolTable.rename, Node.rename, Table.mapKeys_insert hf]

/-- A name is defined, or is there already, in both. -/
theorem tryDefine (scope : ScopeId) (s : Symbol) :
    Lockstep f id (tryDefine scope s) (tryDefine scope (s.rename f)) := by
  refine look fun b b' hb => ?_
  have hdefine : b'.table.scopes.define scope (s.rename f) =
      (b.table.scopes.define scope s).map (Arena.rename f) := by
    rw [hb.table]
    exact b.table.scopes.define_rename f scope s
  rw [hdefine]
  cases b.table.scopes.define scope s with
  | error e => exact pure rfl
  | ok scopes =>
    have hstep : Lockstep f id (Build.modifyTable fun table => { table with scopes })
        (Build.modifyTable fun table => { table with scopes := scopes.rename f }) :=
      modifyTable fun _ => rfl
    exact hstep.bind fun _ => pure rfl

/-- A name is defined, or reported as taken, in both. -/
theorem define (scope : ScopeId) (s : Symbol) (site : Span) :
    Lockstep f id (define scope s site) (define scope (s.rename f) site) := by
  refine (tryDefine scope s).bind fun result => ?_
  match result with
  | .ok () => exact pure rfl
  | .error (.redefinition name first) =>
    have hcode : Reports codes [⟨.duplicateDefinition name first, site⟩] :=
      .one List.mem_cons_self
    exact (report hcode).bind fun _ => pure rfl
  | .error .leftGlobal => exact pure rfl

end Lockstep

/-! ## The first round -/

/-- A declaration is marked as hidden in both. -/
theorem shadow_lockstep (node : Node) :
    Lockstep f id (shadow node.id) (shadow (node.rename f).id) := by
  refine .modify (fun b b' hb => ⟨hb.table, hb.traits, hb.impls, ?_⟩) (fun _ => rfl) fun _ => rfl
  exact congrArg (f node.id :: ·) hb.shadowed

/-- A declaration is hidden in both or in none. -/
theorem isShadowed_lockstep (hf : Injective f) (node : Node) :
    Lockstep f id (isShadowed node.id) (isShadowed (node.rename f).id) := by
  refine .look fun b b' hb => .pure ?_
  simp [hb.shadowed, Node.rename, hf.eq_iff]

/-- A name is that of a trait in both or in none. -/
theorem isGlobalTrait_lockstep (name : String) :
    Lockstep f id (isGlobalTrait name) (isGlobalTrait name) := by
  refine .look fun b b' hb => ?_
  have hlookup : b'.table.scopes.lookupLocal .global name =
      (b.table.scopes.lookupLocal .global name).map (Symbol.rename f) := by
    rw [hb.table]
    exact b.table.scopes.lookupLocal_rename f .global name
  rw [hlookup]
  cases b.table.scopes.lookupLocal .global name <;> exact .pure rfl

/-- The head of a type. -/
theorem declareHead_lockstep (h : TypeHead) :
    Lockstep f id (declareHead h) (declareHead (h.rename f)) := by
  refine (isGlobalTrait_lockstep h.name).bind fun isTrait => .ite (shadow_lockstep h.node) ?_
  refine (Lockstep.define .global _ h.node.span).bind fun isDefined =>
    .ite (.modifyTable fun table => ?_) (shadow_lockstep h.node)
  -- a declared type has no methods yet, so there is nothing to rename in it
  simp only [SymbolTable.rename, DeclIndex.rename_declare]
  rfl

/-- The first round over a declaration. -/
theorem declareType_lockstep (d : Decl) :
    Lockstep f id (declareType d) (declareType (d.rename f)) := by
  cases d with
  | function _ | impl _ | script _ => exact .pure rfl
  | classLike d => exact declareHead_lockstep ⟨d.name, .classLike d.kind, d.typeParams, d.node⟩
  | struct d => exact declareHead_lockstep ⟨d.name, .struct, d.typeParams, d.node⟩
  | spark d => exact declareHead_lockstep ⟨d.name, .spark, d.typeParams, d.node⟩
  | data d => exact declareHead_lockstep ⟨d.name, .data, d.typeParams, d.node⟩
  | trait d => exact declareHead_lockstep ⟨d.name, .trait, d.typeParams, d.node⟩
  | interface d => exact declareHead_lockstep ⟨d.name, .interface, d.typeParams, d.node⟩

/-! ## Functions that need no declaration -/

/-- The types of configured functions. -/
theorem resolveIntrinsics_lockstep (extra : List (String × TypeExpr)) :
    Lockstep f id (resolveIntrinsics extra) (resolveIntrinsics extra) := by
  induction extra with
  | nil => exact .pure rfl
  | cons e rest ih => exact (Lockstep.resolve {} e.2).bind fun _ => ih.bind fun _ => .pure rfl

/-- A function that needs no declaration. -/
theorem defineIntrinsic_lockstep (name : String) (ret : Ty) :
    Lockstep f id (defineIntrinsic name ret) (defineIntrinsic name ret) := by
  refine (Lockstep.tryDefine .global _).bind fun result => ?_
  cases result with
  | ok _ => exact .modifyTable fun _ => rfl
  | error _ => exact .pure rfl

/-- All functions that need no declaration. -/
theorem seedIntrinsics_lockstep (extra : List (String × TypeExpr)) :
    Lockstep f id (seedIntrinsics extra) (seedIntrinsics extra) := by
  refine (resolveIntrinsics_lockstep extra).bind fun extra => ?_
  induction defaultIntrinsics ++ extra with
  | nil => exact .pure rfl
  | cons i rest ih => exact (defineIntrinsic_lockstep i.1 i.2).bind fun _ => ih

/-! ## Signatures and members -/

/-- The types of parameters. -/
theorem resolveParams_lockstep (g : Generics) (ps : List Param) :
    Lockstep f id (resolveParams g ps) (resolveParams g (ps.map (Param.rename f))) := by
  induction ps with
  | nil => exact .pure rfl
  | cons p ps ih => exact (Lockstep.resolve g p.ty).bind fun _ => ih.bind fun _ => .pure rfl

/-- The signature of a method without body. -/
theorem methodSignature_lockstep (g : Generics) (m : MethodSig) :
    Lockstep f (Signature.rename f) (methodSignature g m) (methodSignature g (m.rename f)) :=
  (resolveParams_lockstep _ m.params).bind fun _ =>
    (Lockstep.resolveOption _ m.returnType).bind fun _ => .pure rfl

variable (hf : Injective f)

include hf

/-- The signature of a function. -/
theorem functionSignature_lockstep (g : Generics) (d : FunctionDecl) :
    Lockstep f (Signature.rename f) (functionSignature g d) (functionSignature g (d.rename f)) :=
  (methodSignature_lockstep g _).bindVia fun s =>
    (Lockstep.recordSignature hf s).bind fun _ => .pure rfl

/-- The signatures of several functions. -/
theorem functionSignatures_lockstep (g : Generics) (ds : List FunctionDecl) :
    Lockstep f (List.map (Signature.rename f)) (functionSignatures g ds)
      (functionSignatures g (ds.map (FunctionDecl.rename f))) := by
  induction ds with
  | nil => exact .pure rfl
  | cons d ds ih =>
    exact (functionSignature_lockstep hf g d).bindVia fun _ => ih.bindVia fun _ => .pure rfl

omit hf in
/-- The signatures of several methods without body. -/
theorem methodSignatures_lockstep (g : Generics) (ms : List MethodSig) :
    Lockstep f (List.map (Signature.rename f)) (methodSignatures g ms)
      (methodSignatures g (ms.map (MethodSig.rename f))) := by
  induction ms with
  | nil => exact .pure rfl
  | cons m ms ih =>
    exact (methodSignature_lockstep g m).bindVia fun _ => ih.bindVia fun _ => .pure rfl

/-- The fields of a type. -/
theorem resolveFields_lockstep (owner : String) (isFrozen : Bool) (g : Generics)
    (before : List Field) (ds : List FieldDecl) :
    Lockstep f id (resolveFields owner isFrozen g before ds)
      (resolveFields owner isFrozen g before (ds.map (FieldDecl.rename f))) := by
  induction ds generalizing before with
  | nil => exact .pure rfl
  | cons d ds ih =>
    have hcode : Reports codes [⟨.duplicateMember owner d.name, d.node.span⟩] :=
      .one (by simp [codes])
    exact (Lockstep.resolve g d.ty).bind fun _ => (Lockstep.annotate hf d.node _).bind fun _ =>
      .ite ((Lockstep.report hcode).bind fun _ => ih before) (ih _)

/-- The methods of a type. -/
theorem collectMethods_lockstep (owner : String) (fields : List Field) (g : Generics)
    (before : Table String Signature) (ds : List FunctionDecl) :
    Lockstep f (Table.mapValues (Signature.rename f)) (collectMethods owner fields g before ds)
      (collectMethods owner fields g (before.mapValues (Signature.rename f))
        (ds.map (FunctionDecl.rename f))) := by
  induction ds generalizing before with
  | nil => exact .pure rfl
  | cons d ds ih =>
    have hcode : Reports codes [⟨.duplicateMember owner d.name, d.node.span⟩] :=
      .one (by simp [codes])
    simp only [List.map_cons, collectMethods, Table.contains_mapValues]
    refine (functionSignature_lockstep hf g d).bindVia fun s => .ite ?_ ?_
    · exact (Lockstep.report hcode).bind fun _ => ih before
    · rw [← Table.mapValues_insert]
      exact ih _

/-- A declared type gets its members. -/
theorem fillType_lockstep (node : Node) (name : String)
    {change change' : DeclaredType → DeclaredType}
    (h : ∀ d, (change d).rename f = change' (d.rename f)) :
    Lockstep f id (fillType node.id name change) (fillType (node.rename f).id name change') := by
  refine (isShadowed_lockstep hf node).bind fun _ => .ite (.pure rfl) (.modifyTable fun table => ?_)
  simp only [SymbolTable.rename, DeclIndex.rename_modify f h]

/-! ## The second round -/

/-- The members of a class. -/
theorem declareClass_lockstep (c : ClassDecl) :
    Lockstep f id (declareClass c) (declareClass (c.rename f)) := by
  refine .look fun b b' hb => ?_
  have hg : typeGenerics b'.table.decls (c.rename f).name (c.rename f).typeParams =
      typeGenerics b.table.decls c.name c.typeParams := hb.decls.typeGenerics ..
  simp only [hg]
  exact (resolveFields_lockstep hf c.name false _ [] c.fields).bind fun fields =>
    (collectMethods_lockstep hf c.name fields _ {} c.methods).bindVia fun methods =>
      fillType_lockstep hf c.node c.name fun _ => rfl

/-- The members of a struct. -/
theorem declareStruct_lockstep (isSpark : Bool) (d : StructDecl) :
    Lockstep f id (declareStruct isSpark d) (declareStruct isSpark (d.rename f)) := by
  refine .look fun b b' hb => ?_
  have hg : typeGenerics b'.table.decls (d.rename f).name (d.rename f).typeParams =
      typeGenerics b.table.decls d.name d.typeParams := hb.decls.typeGenerics ..
  simp only [hg]
  exact (resolveFields_lockstep hf d.name isSpark _ [] d.fields).bind fun fields =>
    fillType_lockstep hf d.node d.name fun _ => rfl

/-- The variants of a data type. -/
theorem declareVariants_lockstep (d : DataDecl) (g : Generics) (self : Ty) (seen : List String)
    (vs : List VariantDecl) :
    Lockstep f id (declareVariants d g self seen vs)
      (declareVariants (d.rename f) g self seen (vs.map (VariantDecl.rename f))) := by
  induction vs generalizing seen with
  | nil => exact .pure rfl
  | cons v vs ih =>
    have hcode : Reports codes [⟨.duplicateMember d.name v.name, v.node.span⟩] :=
      .one (by simp [codes])
    refine .ite ((Lockstep.report hcode).bind fun _ => ih seen) ?_
    refine (resolveFields_lockstep hf v.name true g [] v.fields).bind fun fields =>
      (Lockstep.define .global _ v.node.span).bind fun isDefined =>
        (isShadowed_lockstep hf d.node).bind fun isShadowed => ?_
    have hadd : Lockstep f id
        (modifyTable fun table => { table with
          decls := table.decls.addVariant ⟨v.name, d.name, fields⟩ })
        (modifyTable fun table => { table with
          decls := table.decls.addVariant ⟨v.name, d.name, fields⟩ }) := by
      refine .modifyTable fun table => ?_
      simp only [SymbolTable.rename, DeclIndex.rename_addVariant]
    exact .ite (hadd.bind fun _ => ih _) (ih _)

/-- A data type with its variants. -/
theorem declareData_lockstep (d : DataDecl) :
    Lockstep f id (declareData d) (declareData (d.rename f)) := by
  refine .look fun b b' hb => ?_
  have hg : typeGenerics b'.table.decls (d.rename f).name (d.rename f).typeParams =
      typeGenerics b.table.decls d.name d.typeParams := hb.decls.typeGenerics ..
  have hself : selfType b'.table.decls (d.rename f).name = selfType b.table.decls d.name :=
    hb.decls.selfType _
  simp only [hg, hself]
  exact declareVariants_lockstep hf d _ _ [] d.variants

omit hf in
/-- The methods of a trait. -/
theorem declareTrait_lockstep (isInterface : Bool) (d : TraitDecl) :
    Lockstep f id (declareTrait isInterface d) (declareTrait isInterface (d.rename f)) := by
  refine (methodSignatures_lockstep _ d.methods).bindVia fun methods => ?_
  refine .modify (fun b b' hb => ⟨hb.table, ?_, hb.impls, hb.shadowed⟩) (fun _ => rfl) fun _ => rfl
  simp only [hb.traits, List.map_append]
  rfl

/-- The methods of an implementation. -/
theorem declareImpl_lockstep (d : ImplDecl) :
    Lockstep f id (declareImpl d) (declareImpl (d.rename f)) := by
  refine (Lockstep.resolve _ d.target).bind fun target =>
    (Lockstep.resolveAll _ d.traitArgs).bind fun traitArgs =>
      (functionSignatures_lockstep hf _ d.methods).bindVia fun methods => ?_
  refine .modify (fun b b' hb => ⟨hb.table, hb.traits, ?_, hb.shadowed⟩) (fun _ => rfl) fun _ => rfl
  simp only [hb.impls, List.map_append]
  rfl

/-- A function of the unit. -/
theorem declareFunction_lockstep (d : FunctionDecl) :
    Lockstep f id (declareFunction d) (declareFunction (d.rename f)) :=
  (functionSignature_lockstep hf {} d).bindVia fun _ =>
    (Lockstep.define .global _ d.node.span).bind fun _ => .pure rfl

/-- The second round over a declaration. -/
theorem declareMembers_lockstep (d : Decl) :
    Lockstep f id (declareMembers d) (declareMembers (d.rename f)) := by
  cases d with
  | function d => exact declareFunction_lockstep hf d
  | classLike d => exact declareClass_lockstep hf d
  | struct d => exact declareStruct_lockstep hf false d
  | spark d => exact declareStruct_lockstep hf true d
  | data d => exact declareData_lockstep hf d
  | trait d => exact declareTrait_lockstep false d
  | interface d => exact declareTrait_lockstep true d
  | impl d => exact declareImpl_lockstep hf d
  | script _ => exact .pure rfl

end Build

end UnitAnalysis

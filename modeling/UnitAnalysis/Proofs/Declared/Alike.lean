import UnitAnalysis.Check.Infer
import UnitAnalysis.Proofs.Rename.State
import UnitAnalysis.Proofs.Syntax.Rename
import UnitAnalysis.Symbols.Binding

/-!
# Declared types by look-up

Two indexes of declared types are alike when every look-up finds the same in both. The order in
which types and variants were declared is then the only difference, and nothing that reads an index
can tell the two apart: resolving written types, binding patterns, field accesses, struct literals
and the coverage of matches. All of this is shown of two indexes of which the second one names other
nodes, `DeclIndex.Renames`, and of trees whose nodes are renamed in the same way.
-/

set_option autoImplicit false

namespace UnitAnalysis

namespace DeclIndex

/-- Every look-up finds the same in both indexes. -/
structure Alike (ix ix' : DeclIndex) : Prop where
  get? : ∀ name, ix.get? name = ix'.get? name
  variant? : ∀ name, ix.variant? name = ix'.variant? name

/-- Every look-up finds the same in both indexes, with nodes renamed. -/
structure Renames (f : NodeId → NodeId) (ix ix' : DeclIndex) : Prop where
  get? : ∀ name, ix'.get? name = (ix.get? name).map (DeclaredType.rename f)
  variant? : ∀ name, ix'.variant? name = ix.variant? name

theorem renames_rename (f : NodeId → NodeId) (ix : DeclIndex) : ix.Renames f (ix.rename f) :=
  ⟨ix.get?_rename f, ix.variant?_rename f⟩

theorem Alike.renames {ix ix' : DeclIndex} (h : ix.Alike ix') : ix.Renames id ix' where
  get? name := by rw [DeclaredType.rename_id, Option.map_id, h.get?]; rfl
  variant? name := (h.variant? name).symm

theorem contains_eq_isSome (ix : DeclIndex) (name : String) :
    ix.contains name = (ix.get? name).isSome :=
  rfl

end DeclIndex

/-! ## Written types -/

section Resolve

variable {ix ix' : DeclIndex}

theorem resolveName_congr (h : ∀ name, ix.contains name = ix'.contains name) (g : Generics)
    (span : Span) (name : String) (args : List Ty) :
    resolveName ix g span name args = resolveName ix' g span name args := by
  unfold resolveName
  rw [h name]

mutual

/-- What a written type stands for depends only on which names are declared. -/
theorem TypeExpr.resolve_congr (h : ∀ name, ix.contains name = ix'.contains name) (g : Generics)
    (e : TypeExpr) : e.resolve ix g = e.resolve ix' g := by
  match e with
  | .named span name args =>
    simp only [resolve, TypeExpr.resolveAll_congr h g args, resolveName_congr h]
  | .optional _ inner => simp only [resolve, TypeExpr.resolve_congr h g inner]
  | .array _ element => simp only [resolve, TypeExpr.resolve_congr h g element]
  | .tuple _ elements => simp only [resolve, TypeExpr.resolveAll_congr h g elements]
  | .function _ params ret =>
    simp only [resolve, TypeExpr.resolveAll_congr h g params, TypeExpr.resolve_congr h g ret]

theorem TypeExpr.resolveAll_congr (h : ∀ name, ix.contains name = ix'.contains name)
    (g : Generics) (es : List TypeExpr) :
    TypeExpr.resolveAll ix g es = TypeExpr.resolveAll ix' g es := by
  match es with
  | [] => rfl
  | e :: es =>
    simp only [TypeExpr.resolveAll, TypeExpr.resolve_congr h g e,
      TypeExpr.resolveAll_congr h g es]

end

end Resolve

namespace Build

variable {ix ix' : DeclIndex} {name : String}

theorem typeGenerics_congr (h : ix.get? name = ix'.get? name) (params : List TypeParam) :
    typeGenerics ix name params = typeGenerics ix' name params := by
  unfold typeGenerics
  rw [h]

theorem selfType_congr (h : ix.get? name = ix'.get? name) :
    selfType ix name = selfType ix' name := by
  unfold selfType
  rw [h]

end Build

/-! ## Names of patterns -/

/-- One thing that a pattern does to its scope, with its node renamed. -/
def BindStep.rename (f : NodeId → NodeId) : BindStep → BindStep
  | bind name node declared => .bind name (node.rename f) declared
  | annotate id t => .annotate (f id) t
  | report finding => .report finding

theorem BindStep.rename_id : BindStep.rename id = id := by
  funext step
  cases step <;> rfl

section Patterns

variable (f : NodeId → NodeId)

namespace Pattern

mutual

theorem bindings_rename (p : Pattern) : (p.rename f).bindings = p.bindings := by
  match p with
  | .bare _ _ | .typed _ _ _ | .literal _ _ | .wildcard _ | .range _ _ _ _ => rfl
  | .tuple _ elements | .tupleStruct _ _ elements =>
    simp [Pattern.rename, bindings, bindingsAll_rename elements]
  | .array _ elements _ =>
    simp [Pattern.rename, bindings, bindingsAll_rename elements, Node.rename]
  | .struct _ _ fields =>
    simp [Pattern.rename, bindings, fieldBindings_rename _ fields, Node.rename]
  | .either _ left right =>
    simp [Pattern.rename, bindings, bindings_rename left, bindings_rename right]

theorem bindingsAll_rename (ps : List Pattern) :
    Pattern.bindingsAll (Pattern.renameAll f ps) = Pattern.bindingsAll ps := by
  match ps with
  | [] => rfl
  | p :: ps => simp [Pattern.renameAll, bindingsAll, bindings_rename p, bindingsAll_rename ps]

theorem fieldBindings_rename (span : Span) (fields : List FieldPattern) :
    Pattern.fieldBindings span (FieldPattern.renameAll f fields) =
      Pattern.fieldBindings span fields := by
  match fields with
  | [] => rfl
  | .shorthand _ :: fields =>
    simp [FieldPattern.renameAll, fieldBindings, fieldBindings_rename span fields]
  | .nested _ p :: fields =>
    simp [FieldPattern.renameAll, fieldBindings, bindings_rename p,
      fieldBindings_rename span fields]

end

@[simp] theorem length_renameAll (ps : List Pattern) :
    (Pattern.renameAll f ps).length = ps.length := by
  induction ps with
  | nil => rfl
  | cons p ps ih => simp [Pattern.renameAll, ih]

theorem heads_rename (p : Pattern) : (p.rename f).heads = p.heads := by
  match p with
  | .either _ left right =>
    simp [Pattern.rename, heads, heads_rename left, heads_rename right]
  | .bare _ _ | .typed _ _ _ | .literal _ _ | .wildcard _ | .tuple _ _ | .array _ _ _
  | .struct _ _ _ | .tupleStruct _ _ _ | .range _ _ _ _ => rfl

end Pattern

/-- An arm with all its nodes renamed. -/
def MatchArm.rename (arm : MatchArm) : MatchArm :=
  ⟨arm.node.rename f, arm.pattern.rename f, arm.guard.map (Expr.rename f), arm.body.rename f⟩

theorem MatchArm.renameAll_eq_map (arms : List MatchArm) :
    MatchArm.renameAll f arms = arms.map (MatchArm.rename f) := by
  induction arms with
  | nil => rfl
  | cons arm arms ih =>
    obtain ⟨node, pattern, guard, body⟩ := arm
    cases guard <;> simp [MatchArm.renameAll, MatchArm.rename, ih]

end Patterns

namespace DeclIndex.Renames

variable {f : NodeId → NodeId} {ix ix' : DeclIndex}

theorem contains (h : ix.Renames f ix') (name : String) :
    ix'.contains name = ix.contains name := by
  rw [contains_eq_isSome, contains_eq_isSome, h.get?, Option.isSome_map]

theorem isUnitVariant (h : ix.Renames f ix') (name : String) :
    ix'.isUnitVariant name = ix.isUnitVariant name := by
  unfold DeclIndex.isUnitVariant
  rw [h.variant?]

theorem typeGenerics (h : ix.Renames f ix') (name : String) (params : List TypeParam) :
    Build.typeGenerics ix' name params = Build.typeGenerics ix name params := by
  simp only [Build.typeGenerics, h.get?]
  cases ix.get? name <;> rfl

theorem selfType (h : ix.Renames f ix') (name : String) :
    Build.selfType ix' name = Build.selfType ix name := by
  simp only [Build.selfType, h.get?]
  cases ix.get? name <;> rfl

theorem choiceSteps (h : ix.Renames f ix') (node : Node) (left right : Pattern) :
    Pattern.choiceSteps ix' (node.rename f) (left.rename f) (right.rename f) =
      (Pattern.choiceSteps ix node left right).map (BindStep.rename f) := by
  have hnames : ∀ p : Pattern, (p.rename f).bindingNames ix' = p.bindingNames ix := by
    intro p
    simp only [Pattern.bindingNames, Pattern.bindings_rename, h.isUnitVariant]
  simp only [Pattern.choiceSteps, hnames, List.map_append, List.map_map]
  rfl

mutual

theorem steps (h : ix.Renames f ix') (g : Generics) (declared : Option Ty) (p : Pattern) :
    (p.rename f).steps ix' g declared = (p.steps ix g declared).map (BindStep.rename f) := by
  match p with
  | .bare _ name =>
    by_cases hunit : ix.isUnitVariant name = true <;>
      simp [Pattern.rename, Pattern.steps, h.isUnitVariant, hunit, BindStep.rename]
  | .typed _ _ ty =>
    simp only [Pattern.rename, Pattern.steps, TypeExpr.resolve_congr h.contains g ty,
      List.map_append, List.map_map]
    rfl
  | .literal _ _ | .wildcard _ | .range _ _ _ _ => rfl
  | .tuple _ elements | .tupleStruct _ _ elements =>
    simp only [Pattern.rename, Pattern.steps, stepsAll h g elements]
  | .array _ elements rest =>
    simp only [Pattern.rename, Pattern.steps, stepsAll h g elements, List.map_append,
      List.map_map]
    rfl
  | .struct node _ fields =>
    simp only [Pattern.rename, Pattern.steps, fieldSteps h g node fields]
  | .either node left right =>
    simp only [Pattern.rename, Pattern.steps, steps h g none left, h.choiceSteps,
      List.map_append]

theorem stepsAll (h : ix.Renames f ix') (g : Generics) (ps : List Pattern) :
    Pattern.stepsAll ix' g (Pattern.renameAll f ps) =
      (Pattern.stepsAll ix g ps).map (BindStep.rename f) := by
  match ps with
  | [] => rfl
  | p :: ps =>
    simp only [Pattern.renameAll, Pattern.stepsAll, steps h g none p, stepsAll h g ps,
      List.map_append]

theorem fieldSteps (h : ix.Renames f ix') (g : Generics) (node : Node)
    (fields : List FieldPattern) :
    Pattern.fieldSteps ix' g (node.rename f) (FieldPattern.renameAll f fields) =
      (Pattern.fieldSteps ix g node fields).map (BindStep.rename f) := by
  match fields with
  | [] => rfl
  | .shorthand _ :: fields =>
    simp only [FieldPattern.renameAll, Pattern.fieldSteps, fieldSteps h g node fields,
      List.map_cons]
    rfl
  | .nested _ p :: fields =>
    simp only [FieldPattern.renameAll, Pattern.fieldSteps, steps h g none p,
      fieldSteps h g node fields, List.map_append]

end

/-! ## Types of patterns -/

theorem patternFields (h : ix.Renames f ix') (name : String) (scrutinee : Ty) :
    ix'.patternFields name scrutinee = ix.patternFields name scrutinee := by
  simp only [DeclIndex.patternFields, h.variant?, h.get?]
  cases ix.variant? name with
  | some v =>
    cases hparent : ix.get? v.parent with
    | none => simp [hparent]
    | some d => simp only [hparent, Option.map_some]; rfl
  | none => cases ix.get? name <;> rfl

mutual

theorem typings (h : ix.Renames f ix') (t : Ty) (p : Pattern) :
    (p.rename f).typings ix' t = p.typings ix t := by
  match p with
  | .bare _ _ | .typed _ _ _ | .literal _ _ | .wildcard _ | .range _ _ _ _ => rfl
  | .tuple _ elements => simp [Pattern.rename, Pattern.typings, typingsEach h _ elements]
  | .array _ elements _ => simp [Pattern.rename, Pattern.typings, typingsAll h _ elements]
  | .struct _ name fields =>
    simp [Pattern.rename, Pattern.typings, h.patternFields, fieldTypings h _ fields]
  | .tupleStruct _ name elements =>
    simp [Pattern.rename, Pattern.typings, h.patternFields, typingsEach h _ elements]
  | .either _ left right =>
    simp [Pattern.rename, Pattern.typings, typings h t left, typings h t right]

theorem typingsAll (h : ix.Renames f ix') (t : Ty) (ps : List Pattern) :
    Pattern.typingsAll ix' t (Pattern.renameAll f ps) = Pattern.typingsAll ix t ps := by
  match ps with
  | [] => rfl
  | p :: ps =>
    simp [Pattern.renameAll, Pattern.typingsAll, typings h t p, typingsAll h t ps]

theorem typingsEach (h : ix.Renames f ix') (types : List Ty) (ps : List Pattern) :
    Pattern.typingsEach ix' types (Pattern.renameAll f ps) = Pattern.typingsEach ix types ps := by
  match ps with
  | [] => rfl
  | p :: ps =>
    simp [Pattern.renameAll, Pattern.typingsEach, typings h _ p, typingsEach h _ ps]

theorem fieldTypings (h : ix.Renames f ix') (declared : List (String × Ty))
    (fields : List FieldPattern) :
    Pattern.fieldTypings ix' declared (FieldPattern.renameAll f fields) =
      Pattern.fieldTypings ix declared fields := by
  match fields with
  | [] => rfl
  | .shorthand _ :: fields =>
    simp [FieldPattern.renameAll, Pattern.fieldTypings, fieldTypings h declared fields]
  | .nested _ p :: fields =>
    simp [FieldPattern.renameAll, Pattern.fieldTypings, typings h _ p,
      fieldTypings h declared fields]

end

/-! ## Members -/

theorem methodOf (h : ix.Renames f ix') (t : Ty) (method : String) :
    ix'.methodOf t method = (ix.methodOf t method).map (Signature.rename f) := by
  simp only [DeclIndex.methodOf, h.get?]
  cases t.nominalName? with
  | none => rfl
  | some name =>
    simp only [Option.bind_eq_bind, Option.bind_some]
    cases ix.get? name with
    | none => rfl
    | some d =>
      have hmethod : (d.rename f).methods.get? method =
          (d.methods.get? method).map (Signature.rename f) :=
        Table.get?_mapValues _ d.methods method
      simp only [Option.map_some, Option.bind_some, hmethod]
      cases d.methods.get? method <;> rfl

theorem fieldType (h : ix.Renames f ix') (receiver : Ty) (field : String) (span : Span) :
    Check.fieldType ix' receiver field span = Check.fieldType ix receiver field span := by
  have hfield : ix'.fieldOf receiver field = ix.fieldOf receiver field := by
    simp only [fieldOf, h.get?]
    cases receiver.nominalName? with
    | none => rfl
    | some name =>
      simp only [Option.bind_eq_bind, Option.bind_some]
      cases ix.get? name <;> rfl
  simp only [Check.fieldType, hfield]

theorem structType (h : ix.Renames f ix') (name : String) (inits : List Check.Initializer)
    (span : Span) :
    Check.structType ix' name inits span = Check.structType ix name inits span := by
  have hfields : Check.literalFields? ix' name = Check.literalFields? ix name := by
    simp only [Check.literalFields?, h.get?, h.variant?]
    cases ix.get? name with
    | some d => rfl
    | none =>
      cases ix.variant? name with
      | none => rfl
      | some v => cases hparent : ix.get? v.parent <;> simp [hparent]; rfl
  simp only [Check.structType, hfields]

/-! ## Coverage -/

theorem isCatchAll (h : ix.Renames f ix') (p : Pattern) :
    (p.rename f).isCatchAll ix' = p.isCatchAll ix := by
  match p with
  | .bare _ name => simp only [Pattern.rename, Pattern.isCatchAll, h.variant?]
  | .either _ left right =>
    simp only [Pattern.rename, Pattern.isCatchAll, isCatchAll h left, isCatchAll h right]
  | .typed _ _ _ | .literal _ _ | .wildcard _ | .tuple _ _ | .array _ _ _
  | .struct _ _ _ | .tupleStruct _ _ _ | .range _ _ _ _ => rfl

mutual

theorem isIrrefutable (h : ix.Renames f ix') (p : Pattern) :
    (p.rename f).isIrrefutable ix' = p.isIrrefutable ix := by
  match p with
  | .tuple _ elements =>
    simp only [Pattern.rename, Pattern.isIrrefutable, allIrrefutable h elements]
  | .bare node name => exact h.isCatchAll (.bare node name)
  | .either node left right => exact h.isCatchAll (.either node left right)
  | .typed _ _ _ | .literal _ _ | .wildcard _ | .array _ _ _
  | .struct _ _ _ | .tupleStruct _ _ _ | .range _ _ _ _ => rfl

theorem allIrrefutable (h : ix.Renames f ix') (ps : List Pattern) :
    Pattern.allIrrefutable ix' (Pattern.renameAll f ps) = Pattern.allIrrefutable ix ps := by
  match ps with
  | [] => rfl
  | p :: ps =>
    simp only [Pattern.renameAll, Pattern.allIrrefutable, isIrrefutable h p, allIrrefutable h ps]

end

theorem fieldsIrrefutable (h : ix.Renames f ix') (fields : List FieldPattern) :
    (FieldPattern.renameAll f fields).all (Pattern.fieldIrrefutable ix') =
      fields.all (Pattern.fieldIrrefutable ix) := by
  induction fields with
  | nil => rfl
  | cons field fields ih =>
    cases field with
    | shorthand _ => simp [FieldPattern.renameAll, Pattern.fieldIrrefutable, ih]
    | nested _ p => simp [FieldPattern.renameAll, Pattern.fieldIrrefutable, h.isIrrefutable, ih]

theorem covered (h : ix.Renames f ix') (p : Pattern) :
    (p.rename f).covered ix' = p.covered ix := by
  match p with
  | .bare _ name => simp only [Pattern.rename, Pattern.covered, h.variant?]
  | .struct _ _ fields => simp [Pattern.rename, Pattern.covered, h.variant?, h.fieldsIrrefutable]
  | .tupleStruct _ _ elements =>
    simp [Pattern.rename, Pattern.covered, h.variant?, h.allIrrefutable]
  | .either _ left right =>
    simp [Pattern.rename, Pattern.covered, covered h left, covered h right]
  | .typed _ _ _ | .literal _ _ | .wildcard _ | .tuple _ _ | .array _ _ _
  | .range _ _ _ _ => rfl

theorem missingVariants (h : ix.Renames f ix') (scrutinee : Ty) (arms : List MatchArm) :
    Match.missingVariants ix' scrutinee (arms.map (MatchArm.rename f)) =
      Match.missingVariants ix scrutinee arms := by
  have hdata : Match.dataType? ix' scrutinee (arms.map (MatchArm.rename f)) =
      Match.dataType? ix scrutinee arms := by
    unfold Match.dataType?
    split
    · simp only [h.get?]
      cases ix.get? _ <;> rfl
    · simp [List.findSome?_map, Function.comp_def, MatchArm.rename, Pattern.heads_rename,
        h.variant?]
  have hguard : ∀ arm : MatchArm, (arm.rename f).guard.isNone = arm.guard.isNone := by
    intro arm
    simp [MatchArm.rename]
  have hcovered : ∀ arm : MatchArm, (arm.rename f).pattern.covered ix' = arm.pattern.covered ix :=
    fun arm => h.covered arm.pattern
  simp only [Match.missingVariants, hdata, h.get?, List.filter_map, Function.comp_def, hguard,
    List.flatMap_map, hcovered]
  cases Match.dataType? ix scrutinee arms with
  | none => rfl
  | some name =>
    simp only [Option.bind_eq_bind, Option.bind_some]
    cases ix.get? name <;> rfl

theorem matchFindings (h : ix.Renames f ix') (scrutinee : Ty) (arms : List MatchArm)
    (span : Span) :
    Match.findings ix' scrutinee (MatchArm.renameAll f arms) span =
      Match.findings ix scrutinee arms span := by
  have hspan : ∀ arm : MatchArm, (arm.rename f).node.span = arm.node.span := fun _ => rfl
  have hcatchAll : ∀ arm : MatchArm, (arm.rename f).isCatchAll ix' = arm.isCatchAll ix := by
    intro arm
    simp [MatchArm.isCatchAll, MatchArm.rename, h.isCatchAll]
  rw [MatchArm.renameAll_eq_map]
  simp only [Match.findings, Match.exhaustiveness, Match.unreachability, Match.unreachable,
    h.missingVariants, List.isEmpty_map, List.any_map, List.dropWhile_map, Function.comp_def,
    hcatchAll, ← List.map_drop, List.map_map, hspan]

end DeclIndex.Renames

/-- The names of a pattern are bound in the same way. -/
theorem DeclIndex.Alike.steps {ix ix' : DeclIndex} (h : ix.Alike ix') (g : Generics)
    (declared : Option Ty) (p : Pattern) : p.steps ix g declared = p.steps ix' g declared := by
  have hsteps := h.renames.steps g declared p
  rw [p.rename_id, BindStep.rename_id, List.map_id] at hsteps
  exact hsteps.symm

end UnitAnalysis

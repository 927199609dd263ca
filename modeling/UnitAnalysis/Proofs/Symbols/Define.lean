import UnitAnalysis.Proofs.Check.Placement
import UnitAnalysis.Proofs.Scope.Names
import UnitAnalysis.Symbols.Visit

/-!
# What definitions do to a construction

Each step of a construction that defines names gives them to one scope and leaves the rest of what
later walks rely on as it was. `Builder.Defines` says so of two states and `Build.Defines` of a
step, from whatever state it starts. A name that is taken already counts as given, since the scope
has it. The names that a pattern defines are listed by `Pattern.defined`.
-/

set_option autoImplicit false

namespace UnitAnalysis

/-- What a construction has before the bodies are walked through, beside the declared types: the
signatures, the functions that need no declaration, the traits and the implementations. -/
structure Declarations where
  functions : Table NodeId Signature
  intrinsics : Table String Ty
  traits : List Trait
  impls : List Implementation

/-- What was declared so far, beside types. -/
def Builder.declarations (b : Builder) : Declarations :=
  ⟨b.table.functions, b.table.intrinsics, b.traits, b.impls⟩

/-- One scope received names, the walk came by some patterns, and nothing else changed that a walk
relies on. -/
structure Builder.Defines (scope : ScopeId) (names : List String) (visits : List Visit)
    (b b' : Builder) : Prop where
  scopes : Arena.Defines scope names b.table.scopes b'.table.scopes
  scopeMap : b'.table.scopeMap = b.table.scopeMap
  decls : b'.table.decls = b.table.decls
  visits : b'.visits.toList = b.visits.toList ++ visits
  placement : placement b'.findings = placement b.findings
  declarations : b'.declarations = b.declarations

namespace Builder.Defines

variable {scope : ScopeId} {names more : List String} {visits further : List Visit}
  {b b' b'' : Builder}

theorem refl (scope : ScopeId) (b : Builder) : Builder.Defines scope [] [] b b :=
  ⟨.refl scope _, rfl, rfl, by simp, rfl, rfl⟩

theorem trans (h : Builder.Defines scope names visits b b')
    (h' : Builder.Defines scope more further b' b'') :
    Builder.Defines scope (names ++ more) (visits ++ further) b b'' where
  scopes := h.scopes.trans h'.scopes
  scopeMap := h'.scopeMap.trans h.scopeMap
  decls := h'.decls.trans h.decls
  visits := by rw [h'.visits, h.visits, List.append_assoc]
  placement := h'.placement.trans h.placement
  declarations := h'.declarations.trans h.declarations

end Builder.Defines

namespace Build

/-- One step after another. -/
theorem run_bind {α β : Type} (x : Build α) (f : α → Build β) (b : Builder) :
    (x >>= f).run b = (f (x.run b).1).run (x.run b).2 :=
  rfl

/-- A step gives names to a scope, whatever it starts from, when `ix` are the declared types. -/
structure Defines {α : Type} (x : Build α) (ix : DeclIndex) (scope : ScopeId)
    (names : List String) (visits : List Visit) : Prop where
  run : ∀ b : Builder, b.table.decls = ix → Builder.Defines scope names visits b (x.run b).2

section Steps

variable {α β : Type} {ix : DeclIndex} {scope : ScopeId} {names more : List String}
  {visits further : List Visit}

theorem Defines.pure (a : α) : Defines (Pure.pure a) ix scope [] [] :=
  ⟨fun b _ => .refl scope b⟩

theorem Defines.bind {x : Build α} {f : α → Build β} (hx : x.Defines ix scope names visits)
    (hf : ∀ a, (f a).Defines ix scope more further) :
    (x >>= f).Defines ix scope (names ++ more) (visits ++ further) :=
  ⟨fun b hb => (hx.run b hb).trans ((hf _).run _ ((hx.run b hb).decls.trans hb))⟩

/-- A step after which nothing more is defined. -/
theorem Defines.then_quiet {x : Build α} {f : α → Build β} (hx : x.Defines ix scope names visits)
    (hf : ∀ a, (f a).Defines ix scope [] []) : (x >>= f).Defines ix scope names visits := by
  have h := hx.bind hf
  rwa [List.append_nil, List.append_nil] at h

theorem Defines.get_bind {f : Builder → Build α}
    (hf : ∀ b, b.table.decls = ix → (f b).Defines ix scope names visits) :
    (get >>= f).Defines ix scope names visits :=
  ⟨fun b hb => (hf b hb).run b hb⟩

theorem defines_report {found : List Finding} (h : placement found = []) :
    (report found).Defines ix scope [] [] :=
  ⟨fun b _ => ⟨.refl scope _, rfl, rfl, (List.append_nil _).symm, by
    change placement (b.findings ++ found) = placement b.findings
    rw [placement_append, h, List.append_nil], rfl⟩⟩

theorem defines_annotate (id : NodeId) (t : Ty) : (annotate id t).Defines ix scope [] [] :=
  ⟨fun _ _ => ⟨.refl scope _, rfl, rfl, (List.append_nil _).symm, rfl, rfl⟩⟩

theorem defines_visit (v : Visit) : (visit v).Defines ix scope [] [v] :=
  ⟨fun _ _ => ⟨.refl scope _, rfl, rfl, Array.toList_push, rfl, rfl⟩⟩

theorem defines_visitAll (vs : List Visit) : (visitAll vs).Defines ix scope [] vs :=
  ⟨fun _ _ => ⟨.refl scope _, rfl, rfl, Array.toList_appendList, rfl, rfl⟩⟩

theorem defines_resolve (g : Generics) (e : TypeExpr) : (resolve g e).Defines ix scope [] [] := by
  unfold resolve
  refine .get_bind fun b _ => ?_
  have hquiet := (reports_resolve b.table.decls g e).placement_eq_nil (by decide)
  exact .bind (defines_report hquiet) fun _ => .pure _

theorem defines_resolveOption (g : Generics) (e : Option TypeExpr) :
    (resolveOption g e).Defines ix scope [] [] := by
  cases e with
  | none => exact .pure _
  | some e => exact .bind (defines_resolve g e) fun _ => .pure _

/-- A definition gives the name of the symbol to the scope, also when the scope has it already. -/
theorem defines_tryDefine (scope : ScopeId) (symbol : Symbol) :
    (tryDefine scope symbol).Defines ix scope [symbol.name] [] := by
  refine ⟨fun b _ => ?_⟩
  cases h : b.table.scopes.define scope symbol with
  | ok scopes =>
    rw [tryDefine_run_of_ok h]
    exact ⟨Arena.defines_of_define h, rfl, rfl, (List.append_nil _).symm, rfl, rfl⟩
  | error e =>
    rw [tryDefine_run_of_error h]
    exact ⟨Arena.defines_self_of_define h, rfl, rfl, (List.append_nil _).symm, rfl, rfl⟩

theorem defines_define (scope : ScopeId) (symbol : Symbol) (site : Span) :
    (define scope symbol site).Defines ix scope [symbol.name] [] := by
  unfold define
  refine (defines_tryDefine scope symbol).then_quiet fun result => ?_
  match result with
  | .ok () => exact .pure true
  | .error (.redefinition name first) => exact .bind (defines_report rfl) fun _ => .pure false
  | .error .leftGlobal => exact .pure false

end Steps

end Build

/-! ## Patterns -/

/-- The name that a step of a pattern binds. -/
def BindStep.name? : BindStep → Option String
  | bind name _ _ => some name
  | annotate _ _ => none
  | report _ => none

/-- What a pattern with some nodes may do. Its written types are resolved, and names without a
written type have the declared type or none. -/
inductive BindStep.Possible (ix : DeclIndex) (g : Generics) (declared : Option Ty)
    (ids : List NodeId) : BindStep → Prop where
  | whole (name : String) (node : Node) : Possible ix g declared ids (bind name node declared)
  | part (name : String) (node : Node) : Possible ix g declared ids (bind name node none)
  | typed (name : String) (node : Node) (ty : TypeExpr) :
      Possible ix g declared ids (bind name node (some (ty.resolve ix g).1))
  | annotate {id : NodeId} (ty : TypeExpr) (hid : id ∈ ids) :
      Possible ix g declared ids (annotate id (ty.resolve ix g).1)
  | unresolved {f : Finding} (ty : TypeExpr) (hf : f ∈ (ty.resolve ix g).2) :
      Possible ix g declared ids (report f)
  | oneSided (name : String) (span : Span) :
      Possible ix g declared ids (report ⟨.oneSidedBinding name, span⟩)

/-- What a part of a pattern does. -/
theorem BindStep.Possible.mono {ix : DeclIndex} {g : Generics} {declared : Option Ty}
    {ids ids' : List NodeId} {step : BindStep} (h : step.Possible ix g none ids)
    (hids : ids ⊆ ids') : step.Possible ix g declared ids' := by
  cases h with
  | whole name node => exact .part name node
  | part name node => exact .part name node
  | typed name node ty => exact .typed name node ty
  | annotate ty hid => exact .annotate ty (hids hid)
  | unresolved ty hf => exact .unresolved ty hf
  | oneSided name span => exact .oneSided name span

namespace Pattern

/-- The names that only the right side of a choice binds. -/
def rightOnly (ix : DeclIndex) (left right : Pattern) : List String :=
  (right.bindingNames ix).filter fun name => name ∉ left.bindingNames ix

mutual

/-- The names that a pattern defines, from left to right. -/
def defined (ix : DeclIndex) : Pattern → List String
  | .bare _ name => if ix.isUnitVariant name then [] else [name]
  | .typed _ name _ => [name]
  | .literal _ _ => []
  | .wildcard _ => []
  | .tuple _ elements => definedAll ix elements
  | .array _ elements rest => definedAll ix elements ++ rest.toList
  | .struct _ _ fields => fieldsDefined ix fields
  | .tupleStruct _ _ elements => definedAll ix elements
  | .either _ left right => left.defined ix ++ rightOnly ix left right
  | .range _ _ _ _ => []

/-- The names that several patterns define. -/
def definedAll (ix : DeclIndex) : List Pattern → List String
  | [] => []
  | p :: ps => p.defined ix ++ definedAll ix ps

/-- The names that the fields of a struct pattern define. -/
def fieldsDefined (ix : DeclIndex) : List FieldPattern → List String
  | [] => []
  | .shorthand name :: fields => name :: fieldsDefined ix fields
  | .nested _ p :: fields => p.defined ix ++ fieldsDefined ix fields

end

theorem filterMap_name?_choiceSteps (ix : DeclIndex) (node : Node) (left right : Pattern) :
    (choiceSteps ix node left right).filterMap BindStep.name? = rightOnly ix left right := by
  unfold choiceSteps rightOnly
  rw [List.filterMap_append, List.filterMap_map, List.filterMap_map]
  have hreports : ∀ names : List String, names.filterMap
      (BindStep.name? ∘ fun name => .report ⟨.oneSidedBinding name, node.span⟩) = [] :=
    fun names => List.filterMap_eq_nil_iff.2 fun _ _ => rfl
  rw [hreports, List.append_nil]
  exact List.filterMap_some

mutual

/-- The names that the steps of a pattern bind are those that the pattern defines. -/
theorem filterMap_name?_steps (ix : DeclIndex) (g : Generics) (declared : Option Ty)
    (p : Pattern) : (p.steps ix g declared).filterMap BindStep.name? = p.defined ix := by
  match p with
  | .bare node name =>
    simp only [steps, defined]
    split <;> rfl
  | .typed node name ty =>
    have hreports : ∀ found : List Finding, (found.map BindStep.report).filterMap BindStep.name?
        = [] := fun found => by
      rw [List.filterMap_map]
      exact List.filterMap_eq_nil_iff.2 fun _ _ => rfl
    simp only [steps, defined, List.filterMap_append, hreports]
    rfl
  | .literal _ _ => rfl
  | .wildcard _ => rfl
  | .tuple _ elements | .tupleStruct _ _ elements => exact filterMap_name?_stepsAll ix g elements
  | .array node elements rest =>
    simp only [steps, defined, List.filterMap_append, filterMap_name?_stepsAll ix g elements,
      List.filterMap_map]
    congr 1
    exact List.filterMap_some
  | .struct node _ fields => exact filterMap_name?_fieldSteps ix g node fields
  | .either node left right =>
    simp only [steps, defined, List.filterMap_append, filterMap_name?_steps ix g none left,
      filterMap_name?_choiceSteps]
  | .range _ _ _ _ => rfl

theorem filterMap_name?_stepsAll (ix : DeclIndex) (g : Generics) (ps : List Pattern) :
    (stepsAll ix g ps).filterMap BindStep.name? = definedAll ix ps := by
  match ps with
  | [] => rfl
  | p :: ps =>
    simp only [stepsAll, definedAll, List.filterMap_append, filterMap_name?_steps ix g none p,
      filterMap_name?_stepsAll ix g ps]

theorem filterMap_name?_fieldSteps (ix : DeclIndex) (g : Generics) (node : Node)
    (fields : List FieldPattern) :
    (fieldSteps ix g node fields).filterMap BindStep.name? = fieldsDefined ix fields := by
  match fields with
  | [] => rfl
  | .shorthand name :: fields =>
    simp only [fieldSteps, fieldsDefined, List.filterMap_cons, BindStep.name?,
      filterMap_name?_fieldSteps ix g node fields]
  | .nested _ p :: fields =>
    simp only [fieldSteps, fieldsDefined, List.filterMap_append,
      filterMap_name?_steps ix g none p, filterMap_name?_fieldSteps ix g node fields]

end

variable (ix : DeclIndex) (g : Generics)

mutual

theorem possible_steps (declared : Option Ty) (p : Pattern) :
    ∀ step ∈ p.steps ix g declared, step.Possible ix g declared p.ids := by
  match p with
  | .bare node name =>
    simp only [steps]
    split
    · exact fun _ h => (List.not_mem_nil h).elim
    · exact List.forall_mem_singleton.2 (.whole name node)
  | .typed node name ty =>
    simp only [steps, List.forall_mem_append, List.forall_mem_map, List.forall_mem_cons]
    exact ⟨fun f hf => .unresolved ty hf, .annotate ty List.mem_cons_self, .typed name node ty,
      by simp⟩
  | .literal _ _ | .wildcard _ | .range _ _ _ _ => exact fun _ h => (List.not_mem_nil h).elim
  | .tuple _ elements | .tupleStruct _ _ elements =>
    exact fun step h => (possible_stepsAll elements step h).mono (List.subset_cons_self _ _)
  | .array node elements rest =>
    simp only [steps, List.forall_mem_append, List.forall_mem_map]
    exact ⟨fun step h => (possible_stepsAll elements step h).mono (List.subset_cons_self _ _),
      fun name _ => .part name node⟩
  | .struct node _ fields =>
    exact fun step h => (possible_fieldSteps node fields step h).mono (List.subset_cons_self _ _)
  | .either node left right =>
    simp only [steps, choiceSteps, List.forall_mem_append, List.forall_mem_map]
    refine ⟨fun step h => (possible_steps none left step h).mono ?_, fun name _ => .part name node,
      fun name _ => .oneSided name node.span, fun name _ => .oneSided name node.span⟩
    exact List.subset_cons_of_subset _ (List.subset_append_left _ _)

theorem possible_stepsAll (ps : List Pattern) :
    ∀ step ∈ stepsAll ix g ps, step.Possible ix g none (Pattern.idsAll ps) := by
  match ps with
  | [] => exact fun _ h => (List.not_mem_nil h).elim
  | p :: ps =>
    exact List.forall_mem_append.2
      ⟨fun step h => (possible_steps none p step h).mono (List.subset_append_left _ _),
        fun step h => (possible_stepsAll ps step h).mono (List.subset_append_right _ _)⟩

theorem possible_fieldSteps (node : Node) (fields : List FieldPattern) :
    ∀ step ∈ fieldSteps ix g node fields, step.Possible ix g none (FieldPattern.idsAll fields) := by
  match fields with
  | [] => exact fun _ h => (List.not_mem_nil h).elim
  | .shorthand name :: fields =>
    exact List.forall_mem_cons.2 ⟨.part name node, possible_fieldSteps node fields⟩
  | .nested _ p :: fields =>
    exact List.forall_mem_append.2
      ⟨fun step h => (possible_steps none p step h).mono (List.subset_append_left _ _),
        fun step h => (possible_fieldSteps node fields step h).mono
          (List.subset_append_right _ _)⟩

end

/-- A list of steps reports no problem of place. -/
def ReportsNoPlacement (steps : List BindStep) : Prop :=
  ∀ f, .report f ∈ steps → f.problem.isPlacement = false

theorem reportsNoPlacement_steps (ix : DeclIndex) (g : Generics) (declared : Option Ty)
    (p : Pattern) : ReportsNoPlacement (p.steps ix g declared) := by
  intro f hf
  cases p.possible_steps ix g declared _ hf with
  | unresolved ty hty =>
    exact placement_eq_nil_iff.1 ((reports_resolve ix g ty).placement_eq_nil (by decide)) f hty
  | oneSided name span => rfl

end Pattern

namespace Build

variable {ix : DeclIndex}

variable (scope : ScopeId) (g : Generics)

/-- Carrying out steps gives their names to the scope. The scope has the names `seen` already. -/
theorem runSteps_defines (isMutable : Bool) (site : Span) (steps : List BindStep)
    (hquiet : Pattern.ReportsNoPlacement steps) (seen : List String) (b : Builder)
    (hb : b.table.decls = ix)
    (hseen : ∀ name ∈ seen, scope.index < b.table.scopes.size → b.table.scopes.Binds scope name) :
    Builder.Defines scope (steps.filterMap BindStep.name?) [] b
      ((runSteps scope isMutable site seen steps).run b).2 := by
  induction steps generalizing seen b with
  | nil => exact .refl scope b
  | cons step rest ih =>
    have hrest : Pattern.ReportsNoPlacement rest :=
      fun f hf => hquiet f (List.mem_cons_of_mem _ hf)
    -- A step that binds no name leaves the scope with the names seen.
    have quiet : ∀ x : Build Unit, x.Defines ix scope [] [] →
        Builder.Defines scope (rest.filterMap BindStep.name?) [] b
          ((x >>= fun _ => runSteps scope isMutable site seen rest).run b).2 := by
      intro x hx
      have hfirst := hx.run b hb
      refine hfirst.trans (ih hrest seen _ (hfirst.decls.trans hb) fun name hname hlt => ?_)
      rw [hfirst.scopes.binds]
      exact .inl (hseen name hname (hfirst.scopes.size ▸ hlt))
    cases step with
    | report finding =>
      refine quiet _ (defines_report (placement_cons_of_not ?_ []))
      exact hquiet finding List.mem_cons_self
    | annotate id t => exact quiet _ (defines_annotate id t)
    | bind name node declared =>
      simp only [runSteps, List.filterMap_cons, BindStep.name?]
      split
      · next hname =>
          have h := quiet (report [⟨.duplicateBinding name, node.span⟩]) (defines_report rfl)
          exact { h with scopes := h.scopes.cons_of_binds (hseen name hname) }
      · -- The definition adds the name to those that the scope has.
        have hfirst := (defines_define scope
          { name, kind := .variableName, declaredType := declared, isMutable,
            origin := some node.id, span := node.span } site).run b hb
        refine hfirst.trans (ih hrest _ _ (hfirst.decls.trans hb) fun other hother hlt => ?_)
        rw [hfirst.scopes.size] at hlt
        rw [hfirst.scopes.binds]
        rcases List.mem_cons.1 hother with rfl | hmem
        · exact .inr ⟨rfl, hlt, List.mem_singleton_self _⟩
        · exact .inl (hseen other hmem hlt)

/-- Defining a pattern comes by the pattern and gives its names to the scope. -/
theorem defines_definePattern (scope : ScopeId) (isMutable : Bool)
    (declared : Option Ty) (site : Span) (p : Pattern) :
    (definePattern g scope isMutable declared site p).Defines ix scope (p.defined ix)
      (p.visits scope) := by
  have hsteps : ∀ b : Builder, b.table.decls = ix →
      (runSteps scope isMutable site [] (p.steps b.table.decls g declared)).Defines ix scope
        (p.defined ix) [] := by
    intro b hb
    refine ⟨fun b' hb' => ?_⟩
    rw [hb, ← Pattern.filterMap_name?_steps ix g declared p]
    exact runSteps_defines scope isMutable site _
      (Pattern.reportsNoPlacement_steps ix g declared p) [] b' hb' (by simp)
  have h := Defines.bind (defines_visitAll (p.visits scope)) fun _ => .get_bind hsteps
  rwa [List.append_nil] at h

theorem defines_defineLet (scope : ScopeId) (node : Node) (p : Pattern)
    (ty : Option TypeExpr) (isMutable : Bool) :
    (defineLet g scope node p ty isMutable).Defines ix scope (p.defined ix)
      (p.visits scope) := by
  unfold defineLet
  refine .bind (defines_resolveOption g ty) fun declared => ?_
  cases declared with
  | none => exact defines_definePattern ..
  | some t => exact .bind (defines_annotate ..) fun _ => defines_definePattern ..

/-! ## Other names of bodies -/

theorem defines_defineLambdaParams (scope : ScopeId) (site : Span) (params : List LambdaParam) :
    (defineLambdaParams g scope site params).Defines ix scope (params.map fun p => p.name) [] := by
  induction params with
  | nil => exact .pure _
  | cons p ps ih =>
    unfold defineLambdaParams
    refine .bind (defines_resolveOption g p.ty) fun declared => ?_
    cases declared with
    | none => exact .bind (defines_define ..) fun _ => ih
    | some t => exact .bind (defines_annotate ..) fun _ => .bind (defines_define ..) fun _ => ih

theorem defines_defineException (scope : ScopeId) (node : Node) (name : String)
    (ty : Option TypeExpr) :
    (defineException g scope node name ty).Defines ix scope [name] [] := by
  unfold defineException
  refine .bind (defines_resolveOption g ty) fun t => .bind (defines_annotate ..) fun _ => ?_
  exact (defines_define ..).then_quiet fun _ => .pure _

theorem defines_defineConcurrent (bindings : List ConcurrentBinding) :
    (defineConcurrent scope bindings).Defines ix scope (bindings.map fun b => b.name) [] := by
  induction bindings with
  | nil => exact .pure _
  | cons b bs ih => exact .bind (defines_tryDefine ..) fun _ => ih

theorem defines_defineParams (site : Span) (params : List Param) (types : List Ty) :
    (defineParams scope site params types).Defines ix scope (params.map fun p => p.name) [] := by
  induction params generalizing types with
  | nil => exact .pure _
  | cons p ps ih =>
    unfold defineParams
    exact .bind (defines_annotate ..) fun _ => .bind (defines_define ..) fun _ => ih types.tail

theorem defines_defineSelf (node : Node) (t : Ty) :
    (defineSelf scope node t).Defines ix scope ["self"] [] :=
  (defines_define ..).then_quiet fun _ => .pure _

theorem defines_defineFields (fields : List FieldDecl) :
    (defineFields scope fields).Defines ix scope (fields.map fun f => f.name) [] := by
  induction fields with
  | nil => exact .pure _
  | cons f fs ih =>
    unfold defineFields
    exact .get_bind fun _ _ => .bind (defines_tryDefine ..) fun _ => ih

theorem defines_defineMethods (methods : List FunctionDecl) :
    (defineMethods scope methods).Defines ix scope (methods.map fun f => f.name) [] := by
  induction methods with
  | nil => exact .pure _
  | cons f fs ih =>
    unfold defineMethods
    exact .get_bind fun _ _ => .bind (defines_tryDefine ..) fun _ => ih

/-! ## Functions -/

/-- What the walk through a function does in the scope of the function. -/
def insideFunction (g : Generics) (self : Option Ty) (f : FunctionDecl) (scope : ScopeId) :
    Build Unit := do
  match self with
  | some t => defineSelf scope f.node t
  | none => pure ()
  let types := match (← get).table.functions.get? f.node.id with
    | some s => s.paramTypes
    | none => []
  defineParams scope f.node.span f.params types
  visitBlock (g.extend f.typeParams) scope .block f.body

theorem visitFunction_eq (parent : ScopeId) (self : Option Ty) (f : FunctionDecl) :
    visitFunction g parent self f =
      enter parent (if self.isSome then .method else .function) f.node.id >>=
        insideFunction g self f :=
  rfl

end Build

end UnitAnalysis

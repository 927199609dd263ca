import UnitAnalysis.Proofs.Symbols.Alternatives
import UnitAnalysis.Proofs.Symbols.Occurrences

/-!
# The names that a pattern defines

Carrying out the steps of a pattern gives the scope the first symbol of each name, leaves every
other scope as it was, and reports what the steps report and the names that come again.
`Builder.Carries` says so of two states, step by step. From this the main result says which names an
empty scope has after a pattern was defined in it: those that the pattern binds, except the
constructors among them.
-/

set_option autoImplicit false

namespace UnitAnalysis

/-- What a step reports. -/
def BindStep.finding? : BindStep → Option Finding
  | bind _ _ _ => none
  | annotate _ _ => none
  | report finding => some finding

/-- Reports, without those about the names that a pattern binds. -/
def otherFindings (found : List Finding) : List Finding :=
  found.filter fun f => !f.isBindingProblem

theorem otherFindings_append (found more : List Finding) :
    otherFindings (found ++ more) = otherFindings found ++ otherFindings more :=
  List.filter_append ..

/-- A construction carried out steps in a scope. -/
structure Builder.Carries (scope : ScopeId) (isMutable : Bool) (steps : List BindStep)
    (b b' : Builder) : Prop where
  decls : b'.table.decls = b.table.decls
  /-- No scope came or went. -/
  size : b'.table.scopes.size = b.table.scopes.size
  /-- The other scopes are as they were. -/
  others : ∀ i, i ≠ scope → b'.table.scopes.get? i = b.table.scopes.get? i
  /-- A name keeps the symbol that it had, and has the first one of the steps if it had none. -/
  lookup : scope.index < b.table.scopes.size → ∀ name,
    b'.table.scopes.lookupLocal scope name =
      (b.table.scopes.lookupLocal scope name).or
        ((BindStep.symbols isMutable steps).find? fun s => s.name = name)
  /-- Beside the reports of the steps there are only reports about bindings. -/
  findings : ∃ found, b'.findings = b.findings ++ found ∧
    otherFindings found = otherFindings (steps.filterMap BindStep.finding?)

namespace Builder.Carries

variable {scope : ScopeId} {isMutable : Bool} {steps more : List BindStep} {b b' b'' : Builder}

theorem refl (scope : ScopeId) (isMutable : Bool) (b : Builder) : Carries scope isMutable [] b b :=
  ⟨rfl, rfl, fun _ _ => rfl, fun _ _ => Option.or_none.symm, [], (List.append_nil _).symm, rfl⟩

theorem trans (h : Carries scope isMutable steps b b') (h' : Carries scope isMutable more b' b'') :
    Carries scope isMutable (steps ++ more) b b'' where
  decls := h'.decls.trans h.decls
  size := h'.size.trans h.size
  others i hi := (h'.others i hi).trans (h.others i hi)
  lookup hlt name := by
    rw [h'.lookup (h.size ▸ hlt) name, h.lookup hlt name, BindStep.symbols_append,
      List.find?_append, Option.or_assoc]
  findings := by
    obtain ⟨found, hfound, hreports⟩ := h.findings
    obtain ⟨found', hfound', hreports'⟩ := h'.findings
    refine ⟨found ++ found', by rw [hfound', hfound, List.append_assoc], ?_⟩
    rw [otherFindings_append, hreports, hreports', List.filterMap_append, otherFindings_append]

/-- The names of a scope after steps are those of before and those that the steps bind. -/
theorem binds_iff (h : Carries scope isMutable steps b b')
    (hlt : scope.index < b.table.scopes.size) (name : String) :
    b'.table.scopes.Binds scope name ↔ b.table.scopes.Binds scope name ∨
      ∃ s ∈ BindStep.symbols isMutable steps, s.name = name := by
  unfold Arena.Binds
  rw [h.lookup hlt name, Option.isSome_or, Bool.or_eq_true, List.find?_isSome]
  simp only [decide_eq_true_eq]

end Builder.Carries

namespace Build

variable {scope : ScopeId} {isMutable : Bool}

theorem carries_report (finding : Finding) (b : Builder) :
    Builder.Carries scope isMutable [.report finding] b ((report [finding]).run b).2 :=
  ⟨rfl, rfl, fun _ _ => rfl, fun _ _ => Option.or_none.symm, [finding], rfl, rfl⟩

theorem carries_annotate (id : NodeId) (t : Ty) (b : Builder) :
    Builder.Carries scope isMutable [.annotate id t] b ((annotate id t).run b).2 :=
  ⟨rfl, rfl, fun _ _ => rfl, fun _ _ => Option.or_none.symm, [], (List.append_nil _).symm, rfl⟩

/-- A name that the scope has is reported and keeps its symbol. -/
theorem carries_repeated {name : String} {node : Node} {declared : Option Ty} {b : Builder}
    (hname : scope.index < b.table.scopes.size → b.table.scopes.Binds scope name) :
    Builder.Carries scope isMutable [.bind name node declared] b
      ((report [⟨.duplicateBinding name, node.span⟩]).run b).2 where
  decls := rfl
  size := rfl
  others _ _ := rfl
  lookup hlt other := by
    change b.table.scopes.lookupLocal scope other = _
    by_cases hother : name = other
    · subst hother
      rw [Option.or_of_isSome (hname hlt)]
    · simp [BindStep.symbols, BindStep.symbol?, hother]
  findings := ⟨_, rfl, rfl⟩

/-- A name that the scope does not have is defined. -/
theorem carries_define {name : String} (node : Node) (declared : Option Ty) (site : Span)
    {b : Builder} (hname : ¬ b.table.scopes.Binds scope name) :
    Builder.Carries scope isMutable [.bind name node declared] b
      ((define scope { name, kind := .variableName, declaredType := declared, isMutable,
                       origin := some node.id, span := node.span } site).run b).2 := by
  have hnone : b.table.scopes.lookupLocal scope name = none :=
    Option.not_isSome_iff_eq_none.1 hname
  simp only [define, tryDefine, StateT.run_bind, StateT.run_get, pure_bind, Arena.define, hnone]
  refine ⟨rfl, Array.size_modify, fun i hi => ?_, fun hlt other => ?_, [],
    (List.append_nil _).symm, rfl⟩
  · exact (Arena.get?_modifySymbols ..).trans (if_neg hi)
  · have hget : b.table.scopes.get? scope = some b.table.scopes.scopes[scope.index] :=
      Array.getElem?_eq_getElem hlt
    refine (Arena.lookupLocal_modifySymbols ..).trans ?_
    rw [if_pos rfl, hget, Option.bind_some]
    by_cases hother : name = other
    · subst hother
      rw [hnone]
      simp [BindStep.symbols, BindStep.symbol?]
    · simp [BindStep.symbols, BindStep.symbol?, hother, Arena.lookupLocal, hget,
        Table.get?_insert_of_ne]

/-- Carrying out steps in a scope that has the names seen before and no others. -/
theorem carries_runSteps (site : Span) (steps : List BindStep) (seen : List String) (b : Builder)
    (hlt : scope.index < b.table.scopes.size)
    (hseen : ∀ name, name ∈ seen ↔ b.table.scopes.Binds scope name) :
    Builder.Carries scope isMutable steps b
      ((runSteps scope isMutable site seen steps).run b).2 := by
  induction steps generalizing seen b with
  | nil => exact .refl scope isMutable b
  | cons step rest ih =>
    -- After a first step it is enough to know which names were seen by then.
    have next : ∀ {x : Build Unit} {seen' : List String},
        Builder.Carries scope isMutable [step] b (x.run b).2 →
        (∀ name, name ∈ seen' ↔ name ∈ seen ∨
          ∃ s ∈ BindStep.symbols isMutable [step], s.name = name) →
        Builder.Carries scope isMutable (step :: rest) b
          ((x >>= fun _ => runSteps scope isMutable site seen' rest).run b).2 := by
      intro x seen' hfirst hseen'
      refine hfirst.trans (ih seen' _ (hfirst.size ▸ hlt) fun name => ?_)
      rw [hseen', hseen, hfirst.binds_iff hlt]
    cases step with
    | report finding =>
      refine next (carries_report finding b) fun name => ?_
      simp [BindStep.symbols, BindStep.symbol?]
    | annotate id t =>
      refine next (carries_annotate id t b) fun name => ?_
      simp [BindStep.symbols, BindStep.symbol?]
    | bind name node declared =>
      simp only [runSteps]
      split
      · next hname =>
          refine next (carries_repeated fun _ => (hseen name).1 hname) fun other => ?_
          simp only [BindStep.symbols, BindStep.symbol?, List.filterMap_cons,
            List.filterMap_nil, List.mem_singleton, exists_eq_left]
          exact ⟨.inl, fun h => h.elim id fun heq => heq ▸ hname⟩
      · next hname =>
          have hfirst : Builder.Carries scope isMutable [.bind name node declared] b _ :=
            carries_define node declared site fun h => hname ((hseen name).2 h)
          refine hfirst.trans (ih _ _ (hfirst.size ▸ hlt) fun other => ?_)
          rw [hfirst.binds_iff hlt, ← hseen]
          simp [BindStep.symbols, BindStep.symbol?, or_comm, eq_comm]

end Build

/-! ## Reports of a pattern -/

/-- The reports on the written types among occurrences. -/
def annotationFindings (ix : DeclIndex) (g : Generics) (os : List Occurrence) : List Finding :=
  (os.filterMap Occurrence.annotation?).flatMap fun e => (e.resolve ix g).2

theorem annotationFindings_append (ix : DeclIndex) (g : Generics) (os more : List Occurrence) :
    annotationFindings ix g (os ++ more) =
      annotationFindings ix g os ++ annotationFindings ix g more := by
  unfold annotationFindings
  rw [List.filterMap_append, List.flatMap_append]

theorem annotationFindings_toRight (ix : DeclIndex) (g : Generics) (os : List Occurrence) :
    annotationFindings ix g (os.map Occurrence.toRight) = [] := by
  have hnone : (os.map Occurrence.toRight).filterMap Occurrence.annotation? = [] := by
    rw [List.filterMap_map]
    exact List.filterMap_eq_nil_iff.2 fun _ _ => rfl
  rw [annotationFindings, hnone, List.flatMap_nil]

/-- Reports on written types are not about bindings. -/
theorem otherFindings_resolve (ix : DeclIndex) (g : Generics) (e : TypeExpr) :
    otherFindings (e.resolve ix g).2 = (e.resolve ix g).2 := by
  refine List.filter_eq_self.2 fun f hf => ?_
  have hcode : f.code = .unknownType :=
    List.mem_singleton.1 ((reports_resolve ix g e).code_mem f hf)
  have hproblem : f.problem.code = .unknownType := hcode
  rw [Finding.isBindingProblem, hproblem]
  rfl

/-- The reports of steps, without those about bindings. -/
def otherReports (steps : List BindStep) : List Finding :=
  otherFindings (steps.filterMap BindStep.finding?)

theorem otherReports_append (steps more : List BindStep) :
    otherReports (steps ++ more) = otherReports steps ++ otherReports more := by
  unfold otherReports
  rw [List.filterMap_append, otherFindings_append]

namespace Pattern

theorem otherReports_choiceSteps (ix : DeclIndex) (node : Node) (left right : Pattern) :
    otherReports (choiceSteps ix node left right) = [] := by
  unfold choiceSteps
  rw [otherReports_append]
  refine List.append_eq_nil_iff.2 ⟨?_, List.filter_eq_nil_iff.2 fun f hf => ?_⟩
  · have hnone : ∀ names : List String,
        (names.map fun n => BindStep.bind n node none).filterMap BindStep.finding? = [] := by
      intro names
      rw [List.filterMap_map]
      exact List.filterMap_eq_nil_iff.2 fun _ _ => rfl
    rw [otherReports, hnone]
    rfl
  · obtain ⟨step, hstep, hfinding⟩ := List.mem_filterMap.1 hf
    obtain ⟨name, -, rfl⟩ := List.mem_map.1 hstep
    cases hfinding
    simp [Finding.isBindingProblem]

mutual

/-- Beside the names that it binds, a pattern reports on its written types alone. -/
theorem otherReports_steps (ix : DeclIndex) (g : Generics) (declared : Option Ty) (p : Pattern) :
    otherReports (p.steps ix g declared) = annotationFindings ix g p.occurrences := by
  match p with
  | .bare node name =>
    rw [steps]
    split <;> rfl
  | .typed node name ty =>
    simp only [steps, otherReports_append]
    have hreports : (((ty.resolve ix g).2).map BindStep.report).filterMap BindStep.finding? =
        (ty.resolve ix g).2 := by
      rw [List.filterMap_map]
      exact List.filterMap_some
    rw [otherReports, hreports, otherFindings_resolve]
    exact (List.append_nil _).trans (List.append_nil _).symm
  | .literal _ _ | .wildcard _ | .range _ _ _ _ => rfl
  | .tuple _ elements | .tupleStruct _ _ elements => exact otherReports_stepsAll ix g elements
  | .array node elements rest =>
    rw [steps, occurrences, otherReports_append, annotationFindings_append,
      otherReports_stepsAll ix g elements]
    cases rest <;> rfl
  | .struct node _ fields => exact otherReports_fieldSteps ix g node fields
  | .either node left right =>
    rw [steps, occurrences, otherReports_append, annotationFindings_append,
      otherReports_steps ix g none left, otherReports_choiceSteps, annotationFindings_toRight]

theorem otherReports_stepsAll (ix : DeclIndex) (g : Generics) (ps : List Pattern) :
    otherReports (stepsAll ix g ps) = annotationFindings ix g (occurrencesAll ps) := by
  match ps with
  | [] => rfl
  | p :: ps =>
    rw [stepsAll, occurrencesAll, otherReports_append, annotationFindings_append,
      otherReports_steps ix g none p, otherReports_stepsAll ix g ps]

theorem otherReports_fieldSteps (ix : DeclIndex) (g : Generics) (node : Node)
    (fields : List FieldPattern) :
    otherReports (fieldSteps ix g node fields) =
      annotationFindings ix g (fieldOccurrences fields) := by
  match fields with
  | [] => rfl
  | .shorthand name :: fields => exact otherReports_fieldSteps ix g node fields
  | .nested _ p :: fields =>
    rw [fieldSteps, fieldOccurrences, otherReports_append, annotationFindings_append,
      otherReports_steps ix g none p, otherReports_fieldSteps ix g node fields]

end

end Pattern

/-! ## Patterns in an empty scope -/

namespace Build

variable (g : Generics) (scope : ScopeId) (isMutable : Bool) (declared : Option Ty) (site : Span)
  (p : Pattern) (b : Builder)

/-- Defining a pattern in an empty scope carries out its steps. -/
theorem carries_definePattern (hlt : scope.index < b.table.scopes.size)
    (hfresh : ∀ name, ¬ b.table.scopes.Binds scope name) :
    Builder.Carries scope isMutable (p.steps b.table.decls g declared) b
      ((definePattern g scope isMutable declared site p).run b).2 := by
  have hvisits : Builder.Carries scope isMutable [] b ((visitAll (p.visits scope)).run b).2 :=
    ⟨rfl, rfl, fun _ _ => rfl, fun _ _ => Option.or_none.symm, [], (List.append_nil _).symm, rfl⟩
  refine hvisits.trans (carries_runSteps site _ [] _ hlt fun name => ?_)
  exact iff_of_false List.not_mem_nil (hfresh name)

/-- Beside bindings, defining a pattern reports on its written types alone. -/
theorem otherFindings_emitted_definePattern (hlt : scope.index < b.table.scopes.size)
    (hfresh : ∀ name, ¬ b.table.scopes.Binds scope name) :
    otherFindings ((definePattern g scope isMutable declared site p).emitted b) =
      annotationFindings b.table.decls g p.occurrences := by
  obtain ⟨found, hfound, hreports⟩ :=
    (carries_definePattern g scope isMutable declared site p b hlt hfresh).findings
  rw [emitted_eq hfound, hreports]
  exact p.otherReports_steps b.table.decls g declared

/-- A pattern reports no name that is defined before it. -/
theorem code_ne_of_mem_emitted_definePattern (hlt : scope.index < b.table.scopes.size)
    (hfresh : ∀ name, ¬ b.table.scopes.Binds scope name) {f : Finding}
    (hf : f ∈ (definePattern g scope isMutable declared site p).emitted b) :
    f.problem.code ≠ .duplicateDefinition := by
  intro hcode
  have hother : f.isBindingProblem = false := by
    rw [Finding.isBindingProblem, hcode]
    rfl
  have hmem : f ∈ annotationFindings b.table.decls g p.occurrences := by
    rw [← otherFindings_emitted_definePattern g scope isMutable declared site p b hlt hfresh]
    exact List.mem_filter.2 ⟨hf, by rw [hother]; rfl⟩
  obtain ⟨e, -, he⟩ := List.mem_flatMap.1 hmem
  have hunknown : f.problem.code = .unknownType :=
    List.mem_singleton.1 ((reports_resolve b.table.decls g e).code_mem f he)
  rw [hcode] at hunknown
  cases hunknown

/-- **Names of a pattern.** Let a pattern be defined in an empty scope, and let only bare names of
it be called like constructors without fields. Then the scope has the names that the pattern binds,
except those of such constructors. Each of them is a variable that may be assigned to as the caller
says. The other scopes stay as they were, and no name is reported as defined before. -/
theorem definePattern_binds_iff (hlt : scope.index < b.table.scopes.size)
    (hfresh : ∀ name, ¬ b.table.scopes.Binds scope name)
    (hnames : ∀ o ∈ p.occurrences, o.mention.isBare = false →
      b.table.decls.isUnitVariant o.name = false) :
    let after := ((definePattern g scope isMutable declared site p).run b).2.table.scopes
    (∀ name, after.Binds scope name ↔
      name ∈ p.bindings.map Prod.fst ∧ b.table.decls.isUnitVariant name = false) ∧
    (∀ name symbol, after.lookupLocal scope name = some symbol →
      symbol.name = name ∧ symbol.kind = .variableName ∧ symbol.isMutable = isMutable) ∧
    (∀ other, other ≠ scope → after.get? other = b.table.scopes.get? other) ∧
    ∀ f ∈ (definePattern g scope isMutable declared site p).emitted b,
      f.toDiagnostic.code ≠ "STB001" := by
  intro after
  have hcarries := carries_definePattern g scope isMutable declared site p b hlt hfresh
  have hdefines := (defines_definePattern g scope isMutable declared site p).run b rfl
  refine ⟨fun name => ?_, fun name symbol hsymbol => ?_, hcarries.others, fun f hf hcode => ?_⟩
  · have hbinds : after.Binds scope name ↔ name ∈ p.defined b.table.decls := by
      rw [hdefines.scopes.binds]
      simp [hfresh name, hlt]
    rw [hbinds, p.mem_defined_iff_exists_defines, p.mem_map_bindings, List.mem_map]
    constructor
    · rintro ⟨o, ho, rfl, hdef⟩
      refine ⟨⟨o, ho, rfl⟩, ?_⟩
      -- A constructor could be defined only through a name that is not bare.
      cases hbare : o.mention.isBare with
      | true => simpa [Occurrence.defines, hbare] using hdef
      | false => exact hnames o ho hbare
    · rintro ⟨⟨o, ho, rfl⟩, hunit⟩
      exact ⟨o, ho, rfl, by simp [Occurrence.defines, hunit]⟩
  · have hnone : b.table.scopes.lookupLocal scope name = none :=
      Option.not_isSome_iff_eq_none.1 (hfresh name)
    rw [hcarries.lookup hlt name, hnone, Option.none_or] at hsymbol
    have hname : symbol.name = name := by simpa using List.find?_some hsymbol
    obtain ⟨step, -, hstep⟩ := List.mem_filterMap.1 (List.mem_of_find?_eq_some hsymbol)
    cases step with
    | bind n node t =>
      cases hstep
      exact ⟨hname, rfl, rfl⟩
    | annotate _ _ => cases hstep
    | report _ => cases hstep
  · exact code_ne_of_mem_emitted_definePattern g scope isMutable declared site p b hlt hfresh hf
      (Finding.toDiagnostic_code_eq_iff.1 hcode)

/-- A construction with an empty scope, in which `Leaf` is a constructor without fields. -/
def freshLeaf : Builder :=
  let leaf : Variant := { name := "Leaf", parent := "Tree" }
  let variants : Table String Variant := ({} : Table _ _).insert "Leaf" leaf
  { freshBlock with table := { freshBlock.table with decls := { variants } } }

/-- A constructor, a struct with the rest of an array, and a pair that binds a name twice. -/
def treePattern : Pattern :=
  let node (n : UInt64) : Node := ⟨⟨n⟩, {}⟩
  .either (node 1) (.bare (node 2) "Leaf")
    (.either (node 3)
      (.struct (node 4) "Node" [.shorthand "left",
        .nested "right" (.array (node 5) [.bare (node 6) "x"] (some "more"))])
      (.tuple (node 7) [.bare (node 8) "x", .bare (node 9) "Leaf", .bare (node 10) "x"]))

theorem definePattern_binds_treePattern :
    treePattern.bindings.map Prod.fst = ["Leaf", "left", "x", "more"] ∧
      freshLeaf.table.decls.isUnitVariant "Leaf" = true ∧
      (∀ name, ((definePattern {} ⟨1⟩ true none {} treePattern).run
          freshLeaf).2.table.scopes.Binds ⟨1⟩ name ↔
        name ∈ treePattern.bindings.map Prod.fst ∧
          freshLeaf.table.decls.isUnitVariant name = false) ∧
      ((definePattern {} ⟨1⟩ true none {} treePattern).emitted freshLeaf).map
        (fun f => f.toDiagnostic.code) = ["STB004", "STB004", "STB004"] :=
  have hfresh (name : String) : ¬ freshLeaf.table.scopes.Binds ⟨1⟩ name := not_binds_freshBlock name
  ⟨by decide, by decide,
    (definePattern_binds_iff {} ⟨1⟩ true none {} treePattern freshLeaf (by decide) hfresh
      (by decide)).1, rfl⟩

end Build

end UnitAnalysis

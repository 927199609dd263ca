import UnitAnalysis.Proofs.Diagnostic.Code
import UnitAnalysis.Proofs.Symbols.Define

/-!
# Alternatives of a pattern

A pattern with choices stands for several patterns without, one for each way to take a side at every
choice. `Pattern.alternatives` lists the names that each of them binds. The names that a pattern
defines are those of its first alternative, unless something is reported.

Definitions look into the left sides of choices only, and compare the right sides by their names
as a whole. So a pattern with nothing to report may still have an alternative that binds a defined
name twice or not at all. The main result says for which patterns this cannot happen: those whose
choices, wherever they stand, have sides with first alternatives that bind each defined name equally
often.
-/

set_option autoImplicit false

namespace UnitAnalysis

/-! ## Alternatives -/

/-- Every way to put something of the one list before something of the other. -/
def combine (first second : List (List String)) : List (List String) :=
  first.flatMap fun names => second.map fun more => names ++ more

namespace Pattern

mutual

/-- The names that each alternative of a pattern binds, from left to right. -/
def alternatives (ix : DeclIndex) : Pattern → List (List String)
  | .bare _ name => if ix.isUnitVariant name then [[]] else [[name]]
  | .typed _ name _ => [[name]]
  | .literal _ _ => [[]]
  | .wildcard _ => [[]]
  | .tuple _ elements => alternativesAll ix elements
  | .array _ elements rest => combine (alternativesAll ix elements) [rest.toList]
  | .struct _ _ fields => fieldAlternatives ix fields
  | .tupleStruct _ _ elements => alternativesAll ix elements
  | .either _ left right => left.alternatives ix ++ right.alternatives ix
  | .range _ _ _ _ => [[]]

/-- The names that each alternative of several patterns binds. -/
def alternativesAll (ix : DeclIndex) : List Pattern → List (List String)
  | [] => [[]]
  | p :: ps => combine (p.alternatives ix) (alternativesAll ix ps)

/-- The names that each alternative of field patterns binds. -/
def fieldAlternatives (ix : DeclIndex) : List FieldPattern → List (List String)
  | [] => [[]]
  | .shorthand name :: fields => combine [[name]] (fieldAlternatives ix fields)
  | .nested _ p :: fields => combine (p.alternatives ix) (fieldAlternatives ix fields)

end

mutual

/-- The names of the first alternative, which takes the left side of every choice. -/
def firstNames (ix : DeclIndex) : Pattern → List String
  | .bare _ name => if ix.isUnitVariant name then [] else [name]
  | .typed _ name _ => [name]
  | .literal _ _ => []
  | .wildcard _ => []
  | .tuple _ elements => firstNamesAll ix elements
  | .array _ elements rest => firstNamesAll ix elements ++ rest.toList
  | .struct _ _ fields => fieldFirstNames ix fields
  | .tupleStruct _ _ elements => firstNamesAll ix elements
  | .either _ left _ => left.firstNames ix
  | .range _ _ _ _ => []

/-- The names of the first alternative of several patterns. -/
def firstNamesAll (ix : DeclIndex) : List Pattern → List String
  | [] => []
  | p :: ps => p.firstNames ix ++ firstNamesAll ix ps

/-- The names of the first alternative of field patterns. -/
def fieldFirstNames (ix : DeclIndex) : List FieldPattern → List String
  | [] => []
  | .shorthand name :: fields => name :: fieldFirstNames ix fields
  | .nested _ p :: fields => p.firstNames ix ++ fieldFirstNames ix fields

end

mutual

/-- At every choice, the first alternatives of both sides bind a name equally often. -/
def Agrees (ix : DeclIndex) (name : String) : Pattern → Prop
  | .tuple _ elements => AgreesAll ix name elements
  | .array _ elements _ => AgreesAll ix name elements
  | .struct _ _ fields => FieldsAgree ix name fields
  | .tupleStruct _ _ elements => AgreesAll ix name elements
  | .either _ left right => left.Agrees ix name ∧ right.Agrees ix name ∧
    (left.firstNames ix).count name = (right.firstNames ix).count name
  | .bare _ _ | .typed _ _ _ | .literal _ _ | .wildcard _ | .range _ _ _ _ => True

/-- The choices of several patterns agree on a name. -/
def AgreesAll (ix : DeclIndex) (name : String) : List Pattern → Prop
  | [] => True
  | p :: ps => p.Agrees ix name ∧ AgreesAll ix name ps

/-- The choices of field patterns agree on a name. -/
def FieldsAgree (ix : DeclIndex) (name : String) : List FieldPattern → Prop
  | [] => True
  | .shorthand _ :: fields => FieldsAgree ix name fields
  | .nested _ p :: fields => p.Agrees ix name ∧ FieldsAgree ix name fields

end

end Pattern

/-! ## Names that all alternatives bind equally often -/

/-- All lists have a name as often as the list `first`, which is one of them. -/
structure Uniform (name : String) (first : List String) (lists : List (List String)) (P : Prop) :
    Prop where
  mem : first ∈ lists
  iff : (∀ names ∈ lists, names.count name = first.count name) ↔ P

namespace Uniform

variable {name : String} {first second : List String} {lists more : List (List String)} {P Q : Prop}

theorem singleton (name : String) (first : List String) : Uniform name first [first] True :=
  ⟨List.mem_singleton_self _, by simp⟩

variable (h : Uniform name first lists P)

include h

/-- The two parts of a combination vary on their own, so they must be uniform one by one. -/
theorem combine (h' : Uniform name second more Q) :
    Uniform name (first ++ second) (UnitAnalysis.combine lists more) (P ∧ Q) where
  mem := List.mem_flatMap.2 ⟨first, h.mem, List.mem_map.2 ⟨second, h'.mem, rfl⟩⟩
  iff := by
    have hmem : ∀ {a b : List String}, a ∈ lists → b ∈ more →
        a ++ b ∈ UnitAnalysis.combine lists more := fun ha hb =>
      List.mem_flatMap.2 ⟨_, ha, List.mem_map.2 ⟨_, hb, rfl⟩⟩
    rw [← h.iff, ← h'.iff]
    constructor
    · intro hall
      refine ⟨fun a ha => ?_, fun b hb => ?_⟩
      · have hcount := hall _ (hmem ha h'.mem)
        rw [List.count_append, List.count_append] at hcount
        omega
      · have hcount := hall _ (hmem h.mem hb)
        rw [List.count_append, List.count_append] at hcount
        omega
    · rintro ⟨hlists, hmore⟩ names hnames
      obtain ⟨a, ha, hmap⟩ := List.mem_flatMap.1 hnames
      obtain ⟨b, hb, rfl⟩ := List.mem_map.1 hmap
      rw [List.count_append, List.count_append, hlists a ha, hmore b hb]

/-- The two sides of a choice must be uniform, and bind the name equally often. -/
theorem choice (h' : Uniform name second more Q) :
    Uniform name first (lists ++ more) (P ∧ Q ∧ first.count name = second.count name) where
  mem := List.mem_append_left _ h.mem
  iff := by
    rw [← h.iff, ← h'.iff]
    constructor
    · intro hall
      have hsecond := hall second (List.mem_append_right _ h'.mem)
      refine ⟨fun a ha => hall a (List.mem_append_left _ ha), fun b hb => ?_, hsecond.symm⟩
      rw [hall b (List.mem_append_right _ hb), hsecond]
    · rintro ⟨hlists, hmore, hcount⟩ names hnames
      rcases List.mem_append.1 hnames with hmem | hmem
      · exact hlists names hmem
      · rw [hmore names hmem, hcount]

theorem congr {P' : Prop} (hP : P ↔ P') : Uniform name first lists P' :=
  ⟨h.mem, h.iff.trans hP⟩

end Uniform

namespace Pattern

mutual

/-- The alternatives of a pattern bind a name equally often when its choices agree on the name. -/
theorem uniform_alternatives (ix : DeclIndex) (name : String) (p : Pattern) :
    Uniform name (p.firstNames ix) (p.alternatives ix) (p.Agrees ix name) := by
  match p with
  | .bare _ other =>
    simp only [firstNames, alternatives, Agrees]
    split <;> exact .singleton name _
  | .typed _ _ _ | .literal _ _ | .wildcard _ | .range _ _ _ _ => exact .singleton name _
  | .tuple _ elements | .tupleStruct _ _ elements => exact uniform_alternativesAll ix name elements
  | .array _ elements rest =>
    exact ((uniform_alternativesAll ix name elements).combine
      (.singleton name rest.toList)).congr (iff_of_eq (and_true _))
  | .struct _ _ fields => exact uniform_fieldAlternatives ix name fields
  | .either _ left right =>
    exact (uniform_alternatives ix name left).choice (uniform_alternatives ix name right)

theorem uniform_alternativesAll (ix : DeclIndex) (name : String) (ps : List Pattern) :
    Uniform name (firstNamesAll ix ps) (alternativesAll ix ps) (AgreesAll ix name ps) := by
  match ps with
  | [] => exact .singleton name []
  | p :: ps => exact (uniform_alternatives ix name p).combine (uniform_alternativesAll ix name ps)

theorem uniform_fieldAlternatives (ix : DeclIndex) (name : String) (fields : List FieldPattern) :
    Uniform name (fieldFirstNames ix fields) (fieldAlternatives ix fields)
      (FieldsAgree ix name fields) := by
  match fields with
  | [] => exact .singleton name []
  | .shorthand other :: fields =>
    exact ((Uniform.singleton name [other]).combine
      (uniform_fieldAlternatives ix name fields)).congr (iff_of_eq (true_and _))
  | .nested _ p :: fields =>
    exact (uniform_alternatives ix name p).combine (uniform_fieldAlternatives ix name fields)

end

end Pattern

/-! ## Definitions with nothing to report -/

/-- Whether a report is about the names that a pattern binds: one that is bound twice, or on one
side of a choice only. -/
def Finding.isBindingProblem (f : Finding) : Bool :=
  f.problem.code = .duplicatePatternBinding || f.problem.code = .orPatternBindingMismatch

/-- The codes of reports about the names that a pattern binds. -/
theorem Finding.isBindingProblem_eq_false {f : Finding} :
    f.isBindingProblem = false ↔
      f.toDiagnostic.code ≠ "STB003" ∧ f.toDiagnostic.code ≠ "STB004" := by
  have htwice := f.toDiagnostic_code_eq_iff (c := .duplicatePatternBinding)
  have honeSided := f.toDiagnostic_code_eq_iff (c := .orPatternBindingMismatch)
  rw [isBindingProblem, Bool.or_eq_false_iff, decide_eq_false_iff_not, decide_eq_false_iff_not]
  exact and_congr (not_congr htwice.symm) (not_congr honeSided.symm)

/-- Steps of a pattern report nothing about the names that it binds. -/
def ReportsNoBinding (steps : List BindStep) : Prop :=
  ∀ f, .report f ∈ steps → f.isBindingProblem = false

namespace Pattern

/-- A choice that reports nothing defines nothing beside the names of its left side. -/
theorem rightOnly_eq_nil {ix : DeclIndex} {node : Node} {left right : Pattern}
    (h : ReportsNoBinding (choiceSteps ix node left right)) : rightOnly ix left right = [] := by
  rw [List.eq_nil_iff_forall_not_mem]
  intro name hname
  have hreport := h ⟨.oneSidedBinding name, node.span⟩
    (List.mem_append_right _ (List.mem_map.2 ⟨name, List.mem_append_right _ hname, rfl⟩))
  cases hreport

mutual

/-- A pattern that reports nothing defines the names of its first alternative. -/
theorem defined_eq_firstNames {ix : DeclIndex} {g : Generics} {declared : Option Ty} (p : Pattern)
    (h : ReportsNoBinding (p.steps ix g declared)) : p.defined ix = p.firstNames ix := by
  match p with
  | .bare _ _ | .typed _ _ _ | .literal _ _ | .wildcard _ | .range _ _ _ _ => rfl
  | .tuple _ elements | .tupleStruct _ _ elements => exact definedAll_eq_firstNamesAll elements h
  | .array _ elements rest =>
    simp only [defined, firstNames]
    rw [definedAll_eq_firstNamesAll elements fun f hf => h f (List.mem_append_left _ hf)]
  | .struct node _ fields => exact fieldsDefined_eq_firstNames node fields h
  | .either node left right =>
    simp only [defined, firstNames]
    rw [rightOnly_eq_nil fun f hf => h f (List.mem_append_right _ hf), List.append_nil]
    exact left.defined_eq_firstNames fun f hf => h f (List.mem_append_left _ hf)

theorem definedAll_eq_firstNamesAll {ix : DeclIndex} {g : Generics} (ps : List Pattern)
    (h : ReportsNoBinding (stepsAll ix g ps)) : definedAll ix ps = firstNamesAll ix ps := by
  match ps with
  | [] => rfl
  | p :: ps =>
    simp only [definedAll, firstNamesAll]
    rw [p.defined_eq_firstNames fun f hf => h f (List.mem_append_left _ hf),
      definedAll_eq_firstNamesAll ps fun f hf => h f (List.mem_append_right _ hf)]

theorem fieldsDefined_eq_firstNames {ix : DeclIndex} {g : Generics} (node : Node)
    (fields : List FieldPattern) (h : ReportsNoBinding (fieldSteps ix g node fields)) :
    fieldsDefined ix fields = fieldFirstNames ix fields := by
  match fields with
  | [] => rfl
  | .shorthand name :: fields =>
    simp only [fieldsDefined, fieldFirstNames]
    rw [fieldsDefined_eq_firstNames node fields fun f hf => h f (List.mem_cons_of_mem _ hf)]
  | .nested _ p :: fields =>
    simp only [fieldsDefined, fieldFirstNames]
    rw [p.defined_eq_firstNames fun f hf => h f (List.mem_append_left _ hf),
      fieldsDefined_eq_firstNames node fields fun f hf => h f (List.mem_append_right _ hf)]

end

end Pattern

namespace Build

/-- What a step reports. -/
def emitted {α : Type} (x : Build α) (b : Builder) : List Finding :=
  (x.run b).2.findings.drop b.findings.length

theorem emitted_eq {α : Type} {x : Build α} {b : Builder} {found : List Finding}
    (h : (x.run b).2.findings = b.findings ++ found) : x.emitted b = found := by
  rw [emitted, h, List.drop_left]

/-- A definition may report that the name is taken, after what was reported before. -/
theorem define_findings (scope : ScopeId) (symbol : Symbol) (site : Span) (b : Builder) :
    ∃ found, ((define scope symbol site).run b).2.findings = b.findings ++ found := by
  unfold define tryDefine
  simp only [StateT.run_bind, StateT.run_get, pure_bind]
  cases hdefine : b.table.scopes.define scope symbol with
  | ok scopes => exact ⟨[], (List.append_nil _).symm⟩
  | error e =>
    cases e with
    | redefinition name first => exact ⟨_, rfl⟩
    | leftGlobal => exact ⟨[], (List.append_nil _).symm⟩

/-- Steps that report nothing about bindings bind no name twice, and none of those seen before. -/
theorem runSteps_clean (scope : ScopeId) (isMutable : Bool) (site : Span) (steps : List BindStep)
    (seen : List String) (b : Builder) :
    ∃ found, ((runSteps scope isMutable site seen steps).run b).2.findings = b.findings ++ found ∧
      ((∀ f ∈ found, f.isBindingProblem = false) →
        (steps.filterMap BindStep.name?).Nodup ∧
          (∀ name ∈ steps.filterMap BindStep.name?, name ∉ seen) ∧ ReportsNoBinding steps) := by
  induction steps generalizing seen b with
  | nil =>
    exact ⟨[], (List.append_nil _).symm, fun _ => ⟨List.nodup_nil, by simp, fun f hf => by cases hf⟩⟩
  | cons step rest ih =>
    cases step with
    | report finding =>
      obtain ⟨found, hfound, hclean⟩ := ih seen ((report [finding]).run b).2
      refine ⟨finding :: found, hfound.trans (List.append_assoc ..), fun hall => ?_⟩
      obtain ⟨hnodup, hseen, hreports⟩ := hclean fun f hf => hall f (List.mem_cons_of_mem _ hf)
      refine ⟨hnodup, hseen, fun f hf => ?_⟩
      rcases List.mem_cons.1 hf with heq | hmem
      · cases heq
        exact hall finding List.mem_cons_self
      · exact hreports f hmem
    | annotate id t =>
      obtain ⟨found, hfound, hclean⟩ := ih seen ((annotate id t).run b).2
      refine ⟨found, hfound, fun hall => ?_⟩
      obtain ⟨hnodup, hseen, hreports⟩ := hclean hall
      refine ⟨hnodup, hseen, fun f hf => hreports f ?_⟩
      exact (List.mem_cons.1 hf).resolve_left (by simp)
    | bind name node declared =>
      by_cases hname : name ∈ seen
      · -- The name is reported, so this is not a clean run.
        obtain ⟨found, hfound, -⟩ :=
          ih seen ((report [⟨.duplicateBinding name, node.span⟩]).run b).2
        refine ⟨⟨.duplicateBinding name, node.span⟩ :: found, ?_, fun hall => ?_⟩
        · simp only [runSteps, hname, if_true]
          exact hfound.trans (List.append_assoc ..)
        · cases hall _ List.mem_cons_self
      · let symbol : Symbol :=
          { name, kind := .variableName, declaredType := declared, isMutable,
            origin := some node.id, span := node.span }
        obtain ⟨first, hfirst⟩ := define_findings scope symbol site b
        obtain ⟨found, hfound, hclean⟩ := ih (name :: seen) ((define scope symbol site).run b).2
        refine ⟨first ++ found, ?_, fun hall => ?_⟩
        · simp only [runSteps, hname, if_false]
          rw [hfirst, List.append_assoc] at hfound
          exact hfound
        · obtain ⟨hnodup, hseen, hreports⟩ :=
            hclean fun f hf => hall f (List.mem_append_right _ hf)
          refine ⟨List.nodup_cons.2 ⟨fun hmem => hseen name hmem List.mem_cons_self, hnodup⟩,
            fun other hother => ?_, fun f hf => hreports f ?_⟩
          · rcases List.mem_cons.1 hother with rfl | hmem
            · exact hname
            · exact fun hin => hseen other hmem (List.mem_cons_of_mem _ hin)
          · exact (List.mem_cons.1 hf).resolve_left (by simp)

/-- A pattern with nothing to report on its bindings defines the names of its first alternative,
each of them once. -/
theorem definePattern_clean (g : Generics) (scope : ScopeId) (isMutable : Bool)
    (declared : Option Ty) (site : Span) (p : Pattern) (b : Builder)
    (hclean : ∀ f ∈ (definePattern g scope isMutable declared site p).emitted b,
      f.isBindingProblem = false) :
    p.defined b.table.decls = p.firstNames b.table.decls ∧
      (p.defined b.table.decls).Nodup := by
  obtain ⟨found, hfound, hsteps⟩ := runSteps_clean scope isMutable site
    (p.steps b.table.decls g declared) [] ((visitAll (p.visits scope)).run b).2
  have hemitted : (definePattern g scope isMutable declared site p).emitted b = found :=
    emitted_eq hfound
  obtain ⟨hnodup, -, hreports⟩ := hsteps (hemitted ▸ hclean)
  rw [Pattern.filterMap_name?_steps] at hnodup
  exact ⟨p.defined_eq_firstNames hreports, hnodup⟩

/-- **Bindings of alternatives.** Let the names of a pattern be defined in a fresh scope without a
report of a name that is bound twice or on one side of a choice only. Then the first alternative
binds every defined name exactly once, and all alternatives do so exactly when, at every choice of
the pattern, the first alternatives of both sides bind each defined name equally often. -/
theorem alternatives_bind_once_iff (g : Generics) (scope : ScopeId) (isMutable : Bool)
    (declared : Option Ty) (site : Span) (p : Pattern) (b : Builder)
    (hscope : scope.index < b.table.scopes.size)
    (hfresh : ∀ name, ¬ b.table.scopes.Binds scope name)
    (hclean : ∀ f ∈ (definePattern g scope isMutable declared site p).emitted b,
      f.toDiagnostic.code ≠ "STB003" ∧ f.toDiagnostic.code ≠ "STB004") :
    let after := ((definePattern g scope isMutable declared site p).run b).2.table.scopes
    (p.firstNames b.table.decls ∈ p.alternatives b.table.decls ∧
      ∀ name, after.Binds scope name → (p.firstNames b.table.decls).count name = 1) ∧
    ((∀ names ∈ p.alternatives b.table.decls, ∀ name, after.Binds scope name →
        names.count name = 1) ↔
      ∀ name, after.Binds scope name → p.Agrees b.table.decls name) := by
  intro after
  obtain ⟨hfirst, hnodup⟩ := definePattern_clean g scope isMutable declared site p b
    fun f hf => Finding.isBindingProblem_eq_false.2 (hclean f hf)
  have hdefines := (defines_definePattern g scope isMutable declared site p).run b rfl
  have hbinds (name : String) : after.Binds scope name ↔ name ∈ p.defined b.table.decls := by
    rw [hdefines.scopes.binds]
    simp [hfresh name, hscope]
  have honce (name : String) (hname : after.Binds scope name) :
      (p.firstNames b.table.decls).count name = 1 := by
    rw [← hfirst]
    exact List.count_eq_one_of_mem hnodup ((hbinds name).1 hname)
  have huniform := p.uniform_alternatives b.table.decls
  refine ⟨⟨(huniform "").mem, honce⟩, fun hall name hname => ?_,
    fun hall names hnames name hname => ?_⟩
  · refine (huniform name).iff.1 fun names hnames => ?_
    rw [hall names hnames name hname, honce name hname]
  · rw [(huniform name).iff.2 (hall name hname) names hnames, honce name hname]

/-- A construction with one scope below the global one, which has no names. -/
def freshBlock : Builder :=
  ((enter .global .block ⟨0⟩).run {}).2

theorem not_binds_freshBlock (name : String) : ¬ freshBlock.table.scopes.Binds ⟨1⟩ name := by
  rintro ⟨⟩

/-- A pair whose parts come in two orders, with a further choice inside the right side. -/
def swappedPair : Pattern :=
  let node (n : UInt64) : Node := ⟨⟨n⟩, {}⟩
  .either (node 1) (.tuple (node 2) [.bare (node 3) "a", .bare (node 4) "b"])
    (.tuple (node 5) [.bare (node 6) "b",
      .either (node 7) (.bare (node 8) "a") (.array (node 9) [] (some "a"))])

theorem alternatives_bind_once_swappedPair :
    (definePattern {} ⟨1⟩ false none {} swappedPair).emitted freshBlock = [] ∧
      swappedPair.alternatives {} = [["a", "b"], ["b", "a"], ["b", "a"]] ∧
      ∀ names ∈ swappedPair.alternatives {}, ∀ name,
        ((definePattern {} ⟨1⟩ false none {} swappedPair).run freshBlock).2.table.scopes.Binds ⟨1⟩
          name → names.count name = 1 := by
  have hclean : (definePattern {} ⟨1⟩ false none {} swappedPair).emitted freshBlock = [] := rfl
  have h := alternatives_bind_once_iff {} ⟨1⟩ false none {} swappedPair freshBlock (by decide)
    not_binds_freshBlock (by rw [hclean]; simp)
  refine ⟨hclean, rfl, h.2.2 fun name _ => ?_⟩
  refine ⟨⟨trivial, trivial, trivial⟩, ⟨trivial, ⟨trivial, trivial, rfl⟩, trivial⟩, ?_⟩
  exact (List.Perm.swap "b" "a" []).count_eq name

/-- A name that the right side of a choice binds twice. -/
def repeatedOnTheRight : Pattern :=
  let node (n : UInt64) : Node := ⟨⟨n⟩, {}⟩
  .either (node 1) (.bare (node 2) "x")
    (.tuple (node 3) [.bare (node 4) "x", .bare (node 5) "x"])

/-- A repeated name on the right side of a choice is defined without a report, and the alternative
of that side binds it twice. -/
theorem repeatedOnTheRight_not_reported :
    (∀ name, ¬ freshBlock.table.scopes.Binds ⟨1⟩ name) ∧
      (definePattern {} ⟨1⟩ false none {} repeatedOnTheRight).emitted freshBlock = [] ∧
      ((definePattern {} ⟨1⟩ false none {} repeatedOnTheRight).run
        freshBlock).2.table.scopes.Binds ⟨1⟩ "x" ∧
      ∃ names ∈ repeatedOnTheRight.alternatives freshBlock.table.decls, names.count "x" = 2 :=
  ⟨not_binds_freshBlock, rfl, rfl, ["x", "x"], by decide, rfl⟩

end Build

end UnitAnalysis

import UnitAnalysis.Check.Infer
import UnitAnalysis.Trait.Conformance

/-!
# Who reports what

Every judgement of the analysis can report problems of a few codes only. The lemmas here say which:
the resolution of written types, the registration of traits and implementations, and each rule of
the check. Whatever hangs on the code of a problem alone can be read off these lists.
-/

set_option autoImplicit false

namespace UnitAnalysis

/-- All findings have one of the listed codes. -/
structure Reports (codes : List Code) (found : List Finding) : Prop where
  code_mem : ∀ f ∈ found, f.code ∈ codes

namespace Reports

variable {codes more : List Code} {found found' : List Finding}

theorem nil : Reports codes [] :=
  ⟨by simp⟩

theorem one {f : Finding} (h : f.code ∈ codes) : Reports codes [f] :=
  ⟨by simpa using h⟩

theorem append (h : Reports codes found) (h' : Reports codes found') :
    Reports codes (found ++ found') := by
  refine ⟨fun f hf => ?_⟩
  rcases List.mem_append.1 hf with hf | hf
  · exact h.code_mem f hf
  · exact h'.code_mem f hf

theorem cons {f : Finding} (h : f.code ∈ codes) (h' : Reports codes found) :
    Reports codes (f :: found) :=
  (one h).append h'

theorem mono (h : Reports codes found) (hsub : codes ⊆ more) : Reports more found :=
  ⟨fun f hf => hsub (h.code_mem f hf)⟩

theorem flatMap {ι : Type} {xs : List ι} {g : ι → List Finding}
    (h : ∀ x ∈ xs, Reports codes (g x)) : Reports codes (xs.flatMap g) := by
  refine ⟨fun f hf => ?_⟩
  obtain ⟨x, hx, hf⟩ := List.mem_flatMap.1 hf
  exact (h x hx).code_mem f hf

theorem map {ι : Type} {xs : List ι} {g : ι → Finding} (h : ∀ x ∈ xs, (g x).code ∈ codes) :
    Reports codes (xs.map g) := by
  refine ⟨fun f hf => ?_⟩
  obtain ⟨x, hx, rfl⟩ := List.mem_map.1 hf
  exact h x hx

/-- A problem that is reported in one case and not in the other. -/
theorem ite {p : Prop} [Decidable p] (h : Reports codes found) (h' : Reports codes found') :
    Reports codes (if p then found else found') := by
  split
  · exact h
  · exact h'

/-- Nothing of another code is found. -/
theorem filter_eq_nil {p : Finding → Bool} (h : Reports codes found)
    (hp : ∀ f : Finding, p f = true → f.code ∉ codes) : found.filter p = [] :=
  List.filter_eq_nil_iff.2 fun f hf hpf => hp f hpf (h.code_mem f hf)

theorem filter_eq_self {p : Finding → Bool} (h : Reports codes found)
    (hp : ∀ f : Finding, f.code ∈ codes → p f = true) : found.filter p = found :=
  List.filter_eq_self.2 fun f hf => hp f (h.code_mem f hf)

end Reports

/-! ## Written types -/

theorem reports_resolveName (ix : DeclIndex) (g : Generics) (span : Span) (name : String)
    (args : List Ty) : Reports [.unknownType] (resolveName ix g span name args).2 := by
  unfold resolveName
  repeat' split
  all_goals first | exact .nil | exact .one (by simp)

mutual

theorem reports_resolve (ix : DeclIndex) (g : Generics) (e : TypeExpr) :
    Reports [.unknownType] (e.resolve ix g).2 := by
  match e with
  | .named span name args =>
    exact (reports_resolveAll ix g args).append (reports_resolveName ix g span name _)
  | .optional _ inner => exact reports_resolve ix g inner
  | .array _ element => exact reports_resolve ix g element
  | .tuple _ elements => exact reports_resolveAll ix g elements
  | .function _ params ret =>
    exact (reports_resolveAll ix g params).append (reports_resolve ix g ret)

theorem reports_resolveAll (ix : DeclIndex) (g : Generics) (es : List TypeExpr) :
    Reports [.unknownType] (TypeExpr.resolveAll ix g es).2 := by
  match es with
  | [] => exact .nil
  | e :: es => exact (reports_resolve ix g e).append (reports_resolveAll ix g es)

end

/-! ## Traits and implementations -/

namespace Conformance

theorem reports_parameterFindings (s : Subst) (trait : String) (provided : Signature)
    (position : Nat) (required actual : List (String × Ty)) :
    Reports [.parameterTypeMismatch]
      (parameterFindings s trait provided position required actual) := by
  induction required generalizing position actual with
  | nil => exact .nil
  | cons r required ih =>
    cases actual with
    | nil => exact .nil
    | cons p actual =>
      exact .append (.ite .nil (.one List.mem_cons_self)) (ih (position + 1) actual)

theorem reports_requiredFindings (t : Trait) (i : Implementation) (required : Signature) :
    Reports [.missingMethod, .parameterCountMismatch, .parameterTypeMismatch,
      .methodReturnMismatch] (requiredFindings t i required) := by
  unfold requiredFindings
  split
  · exact .one (by simp)
  · refine .ite (.append ?_ ?_) (.one (by simp))
    · exact Reports.mono (reports_parameterFindings ..) (by decide)
    · exact .ite .nil (.one (by simp))

/-- The problems of an implementation with its trait. -/
theorem reports_findings (t : Trait) (i : Implementation) :
    Reports [.missingMethod, .parameterCountMismatch, .parameterTypeMismatch,
      .methodReturnMismatch, .methodNotInTrait] (findings t i) := by
  refine .append (.flatMap fun m _ => ?_) (.flatMap fun m _ => ?_)
  · exact (reports_requiredFindings t i m).mono (by decide)
  · exact .ite .nil (.one (by simp))

end Conformance

namespace Registry

theorem reports_methodFindings (trait : String) (seen : List String) (ms : List Signature) :
    Reports [.duplicateTraitMethod, .missingReturnType] (methodFindings trait seen ms) := by
  induction ms generalizing seen with
  | nil => exact .nil
  | cons m ms ih =>
    refine .ite (.cons (by simp) (ih seen))
      (.append ?_ (ih (m.name :: seen)))
    exact .ite (.one (by simp)) .nil

/-- The codes of what is reported when traits and implementations are registered. -/
def codes : List Code :=
  [.duplicateTrait, .duplicateTraitMethod, .missingReturnType, .unknownTrait, .duplicateImpl,
    .missingMethod, .parameterCountMismatch, .parameterTypeMismatch, .methodReturnMismatch,
    .methodNotInTrait]

theorem reports_addTrait (r : Registry) (t : Trait) : Reports codes (r.addTrait t).findings := by
  unfold addTrait
  split
  · exact .one (by simp [codes])
  · exact (reports_methodFindings t.name [] t.methods).mono (by decide)

theorem reports_addImpl (r : Registry) (i : Implementation) :
    Reports codes (r.addImpl i).findings := by
  unfold addImpl
  repeat' split
  · exact .nil
  · exact .one (by simp [codes])
  · exact .one (by simp [codes])
  · exact (Conformance.reports_findings _ i).mono (by decide)

theorem reports_ofLists (traits : List Trait) (impls : List Implementation) :
    Reports codes (ofLists traits impls).2 := by
  refine List.foldlRecOn impls _ (motive := fun acc : Judged Registry => Reports codes acc.2) ?_ ?_
  · refine List.foldlRecOn traits _ (motive := fun acc : Judged Registry => Reports codes acc.2)
      .nil ?_
    intro acc hacc t _
    exact hacc.append (reports_addTrait acc.1 t)
  · intro acc hacc i _
    exact hacc.append (reports_addImpl acc.1 i)

end Registry

/-! ## Types of expressions -/

namespace Check

/-- Only a strict check reports comparisons: the other operators do not compare. -/
theorem reports_binaryType (isStrict : Bool) (op : BinaryOp) (left right : Ty) (span : Span) :
    Reports (if isStrict
        then [.arithmeticOperands, .bitwiseOperands, .logicalOperands, .comparisonOperands]
        else [.arithmeticOperands, .bitwiseOperands, .logicalOperands])
      (binaryType isStrict op left right span).2 := by
  have hother : op.family ≠ .comparison →
      (⟨.operands op left right, span⟩ : Finding).code ∈
        [Code.arithmeticOperands, .bitwiseOperands, .logicalOperands] := by
    intro hop
    cases h : op.family <;> simp_all
  have hsub : [Code.arithmeticOperands, .bitwiseOperands, .logicalOperands] ⊆ if isStrict
      then [.arithmeticOperands, .bitwiseOperands, .logicalOperands, .comparisonOperands]
      else [.arithmeticOperands, .bitwiseOperands, .logicalOperands] := by
    cases isStrict <;> decide
  unfold binaryType
  cases hop : op.family with
  | arithmetic =>
    refine Reports.mono ?_ hsub
    dsimp only [arithmeticType]
    repeat' split
    all_goals first | exact .nil | exact .one (hother (by simp [hop]))
  | bitwise | logical =>
    refine Reports.mono ?_ hsub
    dsimp only [uniformType]
    split
    · exact .nil
    · exact .one (hother (by simp [hop]))
  | comparison =>
    dsimp only [comparisonType]
    cases isStrict <;> cases left.compatible right
    case true.false => exact .one (by simp)
    all_goals exact .nil

theorem reports_unaryType (op : UnaryOp) (operand : Ty) (span : Span) :
    Reports [.unaryOperand, .unwrapNonOptional, .forceUnwrapNonOptional]
      (unaryType op operand span).2 := by
  unfold unaryType unwrapType
  repeat' split
  all_goals first | exact .nil | exact .one (by simp)

theorem reports_indexType (container : Ty) (span : Span) :
    Reports [.notIndexable] (indexType container span).2 := by
  unfold indexType
  repeat' split
  all_goals first | exact .nil | exact .one List.mem_cons_self

theorem reports_elementType (iterable : Ty) (span : Span) :
    Reports [.notIterable] (elementType iterable span).2 := by
  unfold elementType
  split
  · exact .nil
  · exact .one List.mem_cons_self

theorem reports_conditionFindings (t : Ty) (span : Span) :
    Reports [.nonBoolCondition] (conditionFindings t span) :=
  .ite .nil (.one List.mem_cons_self)

theorem reports_durationFindings (t : Ty) (span : Span) :
    Reports [.nonNumericTimeout] (durationFindings t span) :=
  .ite .nil (.one List.mem_cons_self)

theorem reports_fieldType (ix : DeclIndex) (receiver : Ty) (field : String) (span : Span) :
    Reports [.unknownField] (fieldType ix receiver field span).2 := by
  unfold fieldType
  repeat' split
  all_goals first | exact .nil | exact .one List.mem_cons_self

theorem reports_structType (ix : DeclIndex) (name : String) (inits : List Initializer)
    (span : Span) :
    Reports [.typeMismatch, .unknownField, .unknownType] (structType ix name inits span).2 := by
  unfold structType
  split
  · refine .flatMap fun init _ => ?_
    unfold initializerFindings
    repeat' split
    all_goals first | exact .nil | exact .one (by simp)
  · exact .one (by simp)

theorem reports_argumentFindings (callee : String) (s : Subst) (position : Nat) (params : List Ty)
    (args : List Argument) :
    Reports [.typeMismatch] (argumentFindings callee s position params args) := by
  induction params generalizing position args with
  | nil => exact .nil
  | cons p params ih =>
    cases args with
    | nil => exact .nil
    | cons a args =>
      exact .append (.ite (.one List.mem_cons_self) .nil) (ih (position + 1) args)

theorem reports_closeParams (r : Registry) (callee : String) (span : Span) (s : Subst)
    (typeParams : List Ty) :
    Reports [.unsatisfiedBound] (closeParams r callee span s typeParams).2 := by
  induction typeParams generalizing s with
  | nil => exact .nil
  | cons t rest ih =>
    cases t with
    | param name bounds =>
      simp only [closeParams]
      split
      · exact .append (.map fun _ _ => List.mem_cons_self) (ih s)
      · exact ih _
    | _ => exact ih s

theorem reports_applyTarget (r : Registry) (target : CallTarget) (args : List Argument)
    (span : Span) :
    Reports [.wrongArgumentCount, .typeMismatch, .unsatisfiedBound]
      (applyTarget r target args span).2 := by
  refine .append (.append (.ite .nil (.one (by simp))) ?_) ?_
  · exact Reports.mono (reports_argumentFindings ..) (by decide)
  · exact Reports.mono (reports_closeParams ..) (by decide)

theorem reports_callValue (callee : Ty) (span : Span) :
    Reports [.notCallable] (callValue callee span).2 := by
  unfold callValue
  split
  · exact .nil
  · exact .nil
  · exact .one List.mem_cons_self

theorem reports_callSymbol (ctx : Context) (owner : ScopeId) (symbol : Symbol)
    (args : List Argument) (span : Span) :
    Reports [.wrongArgumentCount, .typeMismatch, .unsatisfiedBound, .notCallable]
      (callSymbol ctx owner symbol args span).2 := by
  unfold callSymbol
  repeat' split
  · exact .nil
  · exact Reports.mono (reports_applyTarget ..) (by decide)
  · exact .nil
  · exact .nil
  · exact Reports.mono (reports_callValue ..) (by decide)

theorem code_of_resolveQualified {r : Registry} {receiver : Ty} {trait method : String}
    {problem : Problem} (h : r.resolveQualified receiver trait method = .error problem) :
    problem.code ∈ [Code.unknownTrait, .traitLacksMethod, .typeDoesNotImplement,
      .noConcreteMethod] := by
  unfold Registry.resolveQualified at h
  repeat' split at h
  all_goals cases h
  all_goals simp [Problem.code]

theorem reports_qualifiedOutcome {r : Registry} {receiver : Ty} {trait method : String} {span : Span}
    {answer : Option Signature} {found : List Finding}
    (h : r.qualifiedOutcome receiver trait method span = (answer, found)) :
    Reports [.unknownTrait, .traitLacksMethod, .typeDoesNotImplement, .noConcreteMethod] found := by
  unfold Registry.qualifiedOutcome at h
  split at h
  · cases h
    exact .nil
  · next hproblem =>
      cases h
      exact .one (code_of_resolveQualified hproblem)

theorem reports_callMethod (ctx : Context) (receiver : Ty) (qualifier : Option String)
    (method : String) (args : List Argument) (span : Span) :
    Reports [.wrongArgumentCount, .typeMismatch, .unsatisfiedBound, .unknownTrait,
      .traitLacksMethod, .typeDoesNotImplement, .noConcreteMethod, .ambiguousMethod,
      .unresolvedMethod] (callMethod ctx receiver qualifier method args span).2 := by
  have happly : ∀ s : Signature, Reports [.wrongArgumentCount, .typeMismatch, .unsatisfiedBound,
      .unknownTrait, .traitLacksMethod, .typeDoesNotImplement, .noConcreteMethod, .ambiguousMethod,
      .unresolvedMethod] (applyTarget ctx.registry s.callTarget args span).2 := by
    intro s
    exact Reports.mono (reports_applyTarget ..) (by decide)
  unfold callMethod callTraitMethod
  repeat' split
  · exact happly _
  · next found h =>
      have hsub : [Code.unknownTrait, .traitLacksMethod, .typeDoesNotImplement,
          .noConcreteMethod] ⊆ [.wrongArgumentCount, .typeMismatch, .unsatisfiedBound,
          .unknownTrait, .traitLacksMethod, .typeDoesNotImplement, .noConcreteMethod,
          .ambiguousMethod, .unresolvedMethod] := by decide
      exact Reports.mono (reports_qualifiedOutcome h) hsub
  · exact .nil
  · exact happly _
  · exact happly _
  · exact happly _
  · exact .one (by simp)
  · exact .nil
  · exact .one (by simp)

theorem reports_resultFindings (options : Options) (f : Frame) (found : Ty) (span : Span) :
    Reports [.returnTypeMismatch, .asyncReturnTypeMismatch]
      (resultFindings options f found span) := by
  unfold resultFindings returnProblem
  repeat' split
  all_goals first | exact .nil | exact .one (by simp)

theorem reports_returnFindings (options : Options) (w : Surroundings) (found : Ty) (span : Span) :
    Reports [.returnTypeMismatch, .asyncReturnTypeMismatch, .returnOutsideFunction]
      (returnFindings options w found span) := by
  unfold returnFindings
  split
  · exact (reports_resultFindings ..).mono (by simp)
  · exact .one (by simp)

theorem reports_assignedFindings (target value : Ty) (span : Span) :
    Reports [.assignmentTypeMismatch] (assignedFindings target value span) :=
  .ite .nil (.one List.mem_cons_self)

theorem reports_mutabilityFindings (symbol : Option Symbol) (span : Span) :
    Reports [.assignToImmutable] (mutabilityFindings symbol span) := by
  unfold mutabilityFindings
  repeat' split
  all_goals first | exact .nil | exact .one List.mem_cons_self

theorem reports_boundType (declared : Option Ty) (value : Ty) (span : Span) :
    Reports [.typeMismatch] (boundType declared value span).2 := by
  unfold boundType
  repeat' split
  all_goals first | exact .nil | exact .one List.mem_cons_self

theorem reports_nameType (found : Option (ScopeId × Symbol)) (name : String) (span : Span) :
    Reports [.unresolvedIdentifier] (nameType found name span).2 := by
  unfold nameType
  split
  · exact .nil
  · exact .one List.mem_cons_self

theorem reports_asyncFindings (w : Surroundings) (form : AsyncForm) (span : Span) :
    Reports [.awaitOutsideAsync, .concurrentOutsideAsync, .raceOutsideAsync, .timeoutOutsideAsync]
      (asyncFindings w form span) := by
  refine .ite .nil (.one ?_)
  cases form <;> simp

end Check

theorem Match.reports_findings (ix : DeclIndex) (scrutinee : Ty) (arms : List MatchArm)
    (span : Span) :
    Reports [.emptyMatch, .nonExhaustiveMatch, .unreachableArm]
      (findings ix scrutinee arms span) := by
  refine .append ?_ (.map fun _ _ => by simp)
  unfold exhaustiveness
  repeat' split
  all_goals first | exact .nil | exact .one (by simp)

end UnitAnalysis

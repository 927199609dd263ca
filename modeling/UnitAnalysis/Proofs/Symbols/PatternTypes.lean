import UnitAnalysis.Proofs.Order.Link
import UnitAnalysis.Proofs.Symbols.PatternNames

/-!
# The types of the names of a pattern

The names of a pattern get their types in two rounds. When they are defined, a name with a written
type gets that type. When the pattern meets a value, the names that have no type yet take theirs
from the value, except those with a written type. The main result says what this comes to: a name is
left without a type exactly when it has a written type wherever it stands and is defined by the
right side of a choice, where written types are not looked at.
-/

set_option autoImplicit false

namespace UnitAnalysis

/-! ## Types from a value -/

/-- The names of the occurrences without a written type. -/
def untypedNames (os : List Occurrence) : List String :=
  (os.filter fun o => o.mention.annotation?.isNone).map Occurrence.name

/-- Occurrences one after another. -/
theorem untypedNames_append (os more : List Occurrence) :
    untypedNames (os ++ more) = untypedNames os ++ untypedNames more := by
  unfold untypedNames
  rw [List.filter_append, List.map_append]

/-- The side does not matter. -/
theorem untypedNames_toRight (os : List Occurrence) :
    untypedNames (os.map Occurrence.toRight) = untypedNames os := by
  unfold untypedNames
  rw [List.filter_map, List.map_map]
  rfl

/-- Names without a written type. -/
theorem mem_untypedNames_iff {name : String} {os : List Occurrence} :
    name ∈ untypedNames os ↔ ∃ o ∈ os, o.name = name ∧ o.mention.annotation? = none := by
  unfold untypedNames
  simp only [List.mem_map, List.mem_filter, Option.isNone_iff_eq_none]
  exact exists_congr fun o => by rw [and_assoc, and_comm (a := o.mention.annotation? = none)]

namespace Pattern

mutual

/-- The names that take their types from a value are those without a written type. -/
theorem map_fst_typings (ix : DeclIndex) (t : Ty) (p : Pattern) :
    (p.typings ix t).map Prod.fst = untypedNames p.occurrences := by
  match p with
  | .bare _ _ | .typed _ _ _ | .literal _ _ | .wildcard _ | .range _ _ _ _ => rfl
  | .tuple _ elements => exact map_fst_typingsEach ix (elementTypes t elements.length) elements
  | .array _ elements rest =>
    simp only [typings, occurrences, List.map_append, untypedNames_append]
    rw [map_fst_typingsAll ix (t.elementType?.getD .any) elements]
    cases rest <;> rfl
  | .struct _ name fields => exact map_fst_fieldTypings ix (ix.patternFields name t) fields
  | .tupleStruct _ name elements =>
    exact map_fst_typingsEach ix ((ix.patternFields name t).map Prod.snd) elements
  | .either _ left right =>
    rw [typings, occurrences, List.map_append, untypedNames_append, untypedNames_toRight,
      map_fst_typings ix t left, map_fst_typings ix t right]

/-- Patterns against one type. -/
theorem map_fst_typingsAll (ix : DeclIndex) (t : Ty) (ps : List Pattern) :
    (typingsAll ix t ps).map Prod.fst = untypedNames (occurrencesAll ps) := by
  match ps with
  | [] => rfl
  | p :: ps =>
    rw [typingsAll, occurrencesAll, List.map_append, untypedNames_append, map_fst_typings ix t p,
      map_fst_typingsAll ix t ps]

/-- Patterns against a type each. -/
theorem map_fst_typingsEach (ix : DeclIndex) (types : List Ty) (ps : List Pattern) :
    (typingsEach ix types ps).map Prod.fst = untypedNames (occurrencesAll ps) := by
  match ps with
  | [] => rfl
  | p :: ps =>
    rw [typingsEach, occurrencesAll, List.map_append, untypedNames_append,
      map_fst_typings ix (types.head?.getD .any) p, map_fst_typingsEach ix types.tail ps]

/-- Field patterns. -/
theorem map_fst_fieldTypings (ix : DeclIndex) (declared : List (String × Ty))
    (fields : List FieldPattern) :
    (fieldTypings ix declared fields).map Prod.fst = untypedNames (fieldOccurrences fields) := by
  match fields with
  | [] => rfl
  | .shorthand name :: fields =>
    rw [fieldTypings, fieldOccurrences, List.map_cons, map_fst_fieldTypings ix declared fields]
    rfl
  | .nested name p :: fields =>
    rw [fieldTypings, fieldOccurrences, List.map_append, untypedNames_append,
      map_fst_typings ix ((declared.lookup name).getD .any) p,
      map_fst_fieldTypings ix declared fields]

end

/-- A type for the pattern as a whole matters to bare names only. -/
theorem firstType?_steps_of_not_mem {ix : DeclIndex} {g : Generics} {isMutable : Bool}
    {name : String} (declared : Option Ty) (p : Pattern) (h : name ∉ untypedNames p.occurrences) :
    firstType? name (BindStep.symbols isMutable (p.steps ix g declared)) =
      definedType? ix g name p.occurrences := by
  rw [← firstType?_steps ix g isMutable name p]
  cases p with
  | bare node n =>
    have hne : n ≠ name := fun heq => h (List.mem_singleton.2 heq.symm)
    rw [steps, steps]
    split
    · rfl
    · change firstType? name [_] = firstType? name [_]
      rw [firstType?_singleton, firstType?_singleton, if_neg hne, if_neg hne]
  | _ => rfl

end Pattern

namespace Check

/-- A name without a type takes the first one that is listed for it. -/
theorem lookupLocal_resolveNames (scope : ScopeId) (name : String) (typings : List (String × Ty))
    (s : Session) :
    ((resolveNames scope typings).run s).2.scopes.lookupLocal scope name =
      (s.scopes.lookupLocal scope name).map fun symbol =>
        { symbol with declaredType := symbol.declaredType.or (typings.lookup name) } := by
  induction typings generalizing s with
  | nil =>
    change s.scopes.lookupLocal scope name = _
    simp
  | cons typing rest ih =>
    obtain ⟨n, t⟩ := typing
    have hrest := ih ((resolveName scope n t).run s).2
    refine hrest.trans ?_
    change ((s.scopes.resolveType scope n t).lookupLocal scope name).map _ = _
    rw [Arena.lookupLocal_resolveType, List.lookup_cons]
    by_cases hname : n = name
    · subst hname
      simp only [and_self, if_true, beq_self_eq_true, Option.map_map]
      congr 1
      funext symbol
      simp
    · have hbeq : (name == n) = false := beq_false_of_ne (Ne.symm hname)
      simp only [hname, and_false, if_false, hbeq]

/-- Giving types reports nothing. -/
theorem findings_resolveNames (scope : ScopeId) (typings : List (String × Ty)) (s : Session) :
    ((resolveNames scope typings).run s).2.findings = s.findings := by
  induction typings generalizing s with
  | nil => rfl
  | cons typing rest ih => exact ih ((resolveName scope typing.1 typing.2).run s).2

end Check

/-! ## Types of names that were defined and met a value -/

namespace Build

variable (g : Generics) (scope : ScopeId) (isMutable : Bool) (declared : Option Ty) (site : Span)
  (p : Pattern) (b : Builder)

/-- The reports of unknown types that a pattern gives rise to are those on its written types. -/
theorem filter_emitted_definePattern (hlt : scope.index < b.table.scopes.size)
    (hfresh : ∀ name, ¬ b.table.scopes.Binds scope name) :
    ((definePattern g scope isMutable declared site p).emitted b).filter
        (fun f => f.problem.code = .unknownType) =
      (p.occurrences.filterMap Occurrence.annotation?).flatMap
        fun e => unknownTypes b.table.decls g e.mentions := by
  have hothers := otherFindings_emitted_definePattern g scope isMutable declared site p b hlt hfresh
  have htypes : annotationFindings b.table.decls g p.occurrences =
      (p.occurrences.filterMap Occurrence.annotation?).flatMap
        fun e => unknownTypes b.table.decls g e.mentions := by
    simp only [annotationFindings, TypeExpr.resolve_findings]
  rw [← htypes, ← hothers]
  refine List.filter_congr fun f hf => ?_
  cases hbinding : f.isBindingProblem with
  | true =>
    rw [Finding.isBindingProblem, Bool.or_eq_true, decide_eq_true_eq,
      decide_eq_true_eq] at hbinding
    rcases hbinding with hcode | hcode <;> rw [hcode] <;> rfl
  | false =>
    have hmem : f ∈ annotationFindings b.table.decls g p.occurrences := by
      rw [← hothers]
      exact List.mem_filter.2 ⟨hf, by rw [hbinding]; rfl⟩
    obtain ⟨e, -, he⟩ := List.mem_flatMap.1 hmem
    have hcode := (reports_resolve b.table.decls g e).code_mem f he
    exact decide_eq_true (List.mem_singleton.1 hcode)

variable {g scope isMutable declared site p b}

section BindPattern

variable (hlt : scope.index < b.table.scopes.size)
  (hfresh : ∀ name, ¬ b.table.scopes.Binds scope name) (ctx : Context) {s : Session} (t : Ty)
  (hs : s.scopes = ((definePattern g scope isMutable declared site p).run b).2.table.scopes)

include hlt hfresh hs

/-- The type of a name after both rounds: that of its definition, or else the first from the value.
-/
theorem map_declaredType_bindPattern (name : String) :
    (((Check.bindPattern ctx scope p t).run s).2.scopes.lookupLocal scope name).map
        Symbol.declaredType =
      (firstType? name (BindStep.symbols isMutable (p.steps b.table.decls g declared))).map
        fun first => first.or ((p.typings ctx.decls t).lookup name) := by
  have hcarries := carries_definePattern g scope isMutable declared site p b hlt hfresh
  have hnone : b.table.scopes.lookupLocal scope name = none :=
    Option.not_isSome_iff_eq_none.1 (hfresh name)
  have hfirst : s.scopes.lookupLocal scope name =
      (BindStep.symbols isMutable (p.steps b.table.decls g declared)).find?
        fun symbol => symbol.name = name := by
    rw [hs, hcarries.lookup hlt name, hnone, Option.none_or]
  have hbound := Check.lookupLocal_resolveNames scope name (p.typings ctx.decls t)
    ((Check.visitAll (p.visits scope)).run s).2
  refine (congrArg (Option.map Symbol.declaredType) hbound).trans ?_
  change ((s.scopes.lookupLocal scope name).map _).map _ = _
  rw [hfirst, firstType?, Option.map_map, Option.map_map]
  rfl

/-- A name that stands somewhere without a written type is not left without a type. -/
theorem declaredType_ne_none_of_mem {name : String} (hname : name ∈ untypedNames p.occurrences) :
    (((Check.bindPattern ctx scope p t).run s).2.scopes.lookupLocal scope name).map
      Symbol.declaredType ≠ some none := by
  obtain ⟨u, hu⟩ : ∃ u, (p.typings ctx.decls t).lookup name = some u := by
    rw [← p.map_fst_typings ctx.decls t] at hname
    obtain ⟨typing, htyping, rfl⟩ := List.mem_map.1 hname
    rw [← Option.isSome_iff_exists, List.lookup_isSome_iff]
    exact ⟨typing, htyping, beq_self_eq_true _⟩
  rw [map_declaredType_bindPattern hlt hfresh ctx t hs name, hu]
  intro h
  obtain ⟨first, -, hfirst⟩ := Option.map_eq_some_iff.1 h
  cases first <;> cases hfirst

/-- A name that has a written type wherever it stands has the type of its definition. -/
theorem declaredType_of_not_mem {name : String} (hname : name ∉ untypedNames p.occurrences) :
    (((Check.bindPattern ctx scope p t).run s).2.scopes.lookupLocal scope name).map
      Symbol.declaredType = definedType? b.table.decls g name p.occurrences := by
  have hlookup : (p.typings ctx.decls t).lookup name = none := by
    rw [← p.map_fst_typings ctx.decls t] at hname
    rw [List.lookup_eq_none_iff]
    intro typing htyping
    exact bne_iff_ne.2 fun heq => hname (List.mem_map.2 ⟨typing, htyping, heq.symm⟩)
  rw [map_declaredType_bindPattern hlt hfresh ctx t hs name,
    p.firstType?_steps_of_not_mem declared hname, hlookup]
  simp only [Option.or_none, Option.map_id_fun', id_eq]

end BindPattern

/-- **Types of the names of a pattern.** Let a pattern be defined in an empty scope and then meet a
value of some type there. A name of the scope is left without a type exactly when it has a written
type wherever it stands and the occurrence that defines it is in the right side of a choice. A name
whose written types all stand for one type gets that type, unless it is defined by the right side of
a choice or not at all. The unknown types that are reported are those written outside of right sides
of choices, in order. -/
theorem bindPattern_types (hlt : scope.index < b.table.scopes.size)
    (hfresh : ∀ name, ¬ b.table.scopes.Binds scope name) (ctx : Context) (s : Session) (t : Ty)
    (hs : s.scopes = ((definePattern g scope isMutable declared site p).run b).2.table.scopes) :
    let ix := b.table.decls
    let bound := ((Check.bindPattern ctx scope p t).run s).2
    let typeOf (name : String) := (bound.scopes.lookupLocal scope name).map Symbol.declaredType
    (∀ name, typeOf name = some none ↔
      (∀ o ∈ p.occurrences, o.name = name → o.mention.annotation?.isSome) ∧
        ∃ o, definer? ix name p.occurrences = some o ∧ o.onRight = true) ∧
    (∀ name u,
      (∀ o ∈ p.occurrences, o.name = name →
        o.mention.annotation?.map (fun e => (e.resolve ix g).1) = some u) →
      typeOf name =
        (definer? ix name p.occurrences).map fun o => if o.onRight then none else some u) ∧
    ((definePattern g scope isMutable declared site p).emitted b).filter
        (fun f => f.toDiagnostic.code = "TC003") =
      (p.occurrences.filterMap Occurrence.annotation?).flatMap
        (fun e => unknownTypes ix g e.mentions) ∧
    bound.findings = s.findings := by
  intro ix bound typeOf
  refine ⟨fun name => ?_, fun name u hu => ?_, ?_, ?_⟩
  · by_cases hname : name ∈ untypedNames p.occurrences
    · refine iff_of_false (declaredType_ne_none_of_mem hlt hfresh ctx t hs hname) ?_
      rintro ⟨hall, -⟩
      obtain ⟨o, ho, hoName, hnone⟩ := mem_untypedNames_iff.1 hname
      have hsome := hall o ho hoName
      rw [hnone] at hsome
      cases hsome
    · have htyped : ∀ o ∈ p.occurrences, o.name = name → o.mention.annotation?.isSome := by
        intro o ho hoName
        by_contra hnone
        exact hname (mem_untypedNames_iff.2
          ⟨o, ho, hoName, Option.not_isSome_iff_eq_none.1 hnone⟩)
      change (bound.scopes.lookupLocal scope name).map Symbol.declaredType = _ ↔ _
      rw [declaredType_of_not_mem hlt hfresh ctx t hs hname, definedType?, Option.map_eq_some_iff]
      constructor
      · rintro ⟨o, ho, htype⟩
        refine ⟨htyped, o, ho, ?_⟩
        obtain ⟨hmem, hoName, -⟩ := mem_of_definer?_eq_some ho
        obtain ⟨e, he⟩ := Option.isSome_iff_exists.1 (htyped o hmem hoName)
        -- Outside of right sides the written type would be the type of the name.
        cases hright : o.onRight with
        | true => rfl
        | false => simp [Occurrence.declaredType, Occurrence.annotation?, hright, he] at htype
      · rintro ⟨-, o, ho, hright⟩
        exact ⟨o, ho, by simp [Occurrence.declaredType, Occurrence.annotation?, hright]⟩
  · have hname : name ∉ untypedNames p.occurrences := fun hmem => by
      obtain ⟨o, ho, hoName, hnone⟩ := mem_untypedNames_iff.1 hmem
      have hsome := hu o ho hoName
      rw [hnone] at hsome
      cases hsome
    refine (declaredType_of_not_mem hlt hfresh ctx t hs hname).trans ?_
    refine Option.map_congr fun o ho => ?_
    obtain ⟨hmem, hoName, -⟩ := mem_of_definer?_eq_some ho
    cases hright : o.onRight with
    | true => simp [Occurrence.declaredType, Occurrence.annotation?, hright]
    | false =>
      simpa [Occurrence.declaredType, Occurrence.annotation?, hright] using hu o hmem hoName
  · have hcodes : (fun f : Finding => decide (f.toDiagnostic.code = "TC003")) =
        fun f => decide (f.problem.code = .unknownType) :=
      funext fun f => decide_eq_decide.2 (f.toDiagnostic_code_eq_iff (c := .unknownType))
    rw [hcodes]
    exact filter_emitted_definePattern g scope isMutable declared site p b hlt hfresh
  · exact Check.findings_resolveNames scope (p.typings ctx.decls t) _

/-- A pair with a written type on both sides of a choice, and one that is not known. -/
def typedOnBothSides : Pattern :=
  let node (n : UInt64) : Node := ⟨⟨n⟩, {}⟩
  let int : TypeExpr := .named {} "Int" []
  .tuple (node 1) [.either (node 2) (.typed (node 3) "x" int)
      (.array (node 4) [.typed (node 5) "x" int] (some "more")),
    .typed (node 6) "y" (.named {} "Missing" [])]

/-- What is checked after a construction, with nothing found yet. -/
def checkAfter (b : Builder) : Context × Session :=
  (⟨b.table, {}, {}⟩, { scopes := b.table.scopes })

/-- A choice with a type on each side. -/
theorem bindPattern_types_typedOnBothSides :
    let b := ((definePattern {} ⟨1⟩ false none {} typedOnBothSides).run freshBlock).2
    let bound := ((Check.bindPattern (checkAfter b).1 ⟨1⟩ typedOnBothSides .any).run
      (checkAfter b).2).2
    (bound.scopes.lookupLocal ⟨1⟩ "x").map Symbol.declaredType = some (some .int) ∧
      (bound.scopes.lookupLocal ⟨1⟩ "more").map Symbol.declaredType ≠ some none ∧
      ((definePattern {} ⟨1⟩ false none {} typedOnBothSides).emitted freshBlock).filter
        (fun f => f.toDiagnostic.code = "TC003") = [⟨.unknownType "Missing", {}⟩] := by
  intro b bound
  obtain ⟨hnone, htyped, hreports, -⟩ := bindPattern_types (g := {}) (p := typedOnBothSides)
    (by decide) not_binds_freshBlock (checkAfter b).1 (checkAfter b).2 .any rfl
  refine ⟨htyped "x" .int (by decide), fun h => ?_, hreports⟩
  exact absurd ((hnone "more").1 h).1 (by decide)

/-- Names with written types that only the right sides of choices have. -/
def typedOnTheRight : Pattern :=
  let node (n : UInt64) : Node := ⟨⟨n⟩, {}⟩
  .tuple (node 1) [.either (node 2) (.wildcard (node 3)) (.typed (node 4) "x" (.named {} "Int" [])),
    .either (node 5) (.wildcard (node 6)) (.typed (node 7) "y" (.named {} "Missing" []))]

/-- A written type on the right side of a choice is neither given to its name nor looked at: the
name has no type after the pattern met a value, and an unknown type is not reported. -/
theorem typedOnTheRight_not_typed :
    let b := ((definePattern {} ⟨1⟩ false none {} typedOnTheRight).run freshBlock).2
    let bound := ((Check.bindPattern (checkAfter b).1 ⟨1⟩ typedOnTheRight .any).run
      (checkAfter b).2).2
    (∀ name, ¬ freshBlock.table.scopes.Binds ⟨1⟩ name) ∧
      (∀ o ∈ typedOnTheRight.occurrences, o.name = "x" →
        o.mention.annotation?.map (fun e => (e.resolve {} {}).1) = some .int) ∧
      (bound.scopes.lookupLocal ⟨1⟩ "x").map Symbol.declaredType = some none ∧
      (bound.scopes.lookupLocal ⟨1⟩ "y").map Symbol.declaredType = some none ∧
      isKnownType {} {} "Missing" = false ∧
      (((definePattern {} ⟨1⟩ false none {} typedOnTheRight).emitted freshBlock).map
        fun f => f.toDiagnostic.code) = ["STB004", "STB004"] ∧ bound.findings = [] :=
  ⟨not_binds_freshBlock, by decide, rfl, rfl, rfl, rfl, rfl⟩

end Build

end UnitAnalysis

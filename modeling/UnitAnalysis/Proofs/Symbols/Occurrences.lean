import UnitAnalysis.Proofs.Scope.Lexical

/-!
# The names in a pattern

A name can stand in a pattern in four ways: on its own, with a type, as the rest of an array, or for
a field of the same name. `Pattern.occurrences` lists the names of a pattern in all of these ways,
from left to right, and notes which of them stand in the right side of a choice.

The names that a pattern binds and the names that it gives to a scope are computed apart from each
other, and both are read off this list: `Pattern.mem_map_bindings` and `Pattern.firstType?_steps`.
Not every occurrence gives its name to the scope. A bare name does not where it is a constructor,
and in the right side of a choice no name does that is called like a constructor.
-/

set_option autoImplicit false

namespace UnitAnalysis

/-- A way in which a pattern names something. -/
inductive Mention where
  /-- A name on its own. -/
  | bare
  /-- A name with the type that its value must have. -/
  | typed (ty : TypeExpr)
  /-- The rest of an array. -/
  | rest
  /-- A field whose name is also the name that is bound. -/
  | shorthand

namespace Mention

/-- Whether a name stands on its own. -/
def isBare : Mention → Bool
  | bare => true
  | _ => false

/-- The type that is written with a name. -/
def annotation? : Mention → Option TypeExpr
  | typed ty => some ty
  | _ => none

end Mention

/-- A name in a pattern. -/
structure Occurrence where
  /-- The name. -/
  name : String
  /-- How it stands there. -/
  mention : Mention
  /-- Whether it stands in the right side of a choice. -/
  onRight : Bool

namespace Occurrence

/-- Whether an occurrence gives its name to the scope. -/
def defines (ix : DeclIndex) (o : Occurrence) : Bool :=
  !ix.isUnitVariant o.name || (!o.mention.isBare && !o.onRight)

/-- The written type of a name, which counts only outside of right sides of choices. -/
def annotation? (o : Occurrence) : Option TypeExpr :=
  if o.onRight then none else o.mention.annotation?

/-- The type that a name is given to the scope with. -/
def declaredType (ix : DeclIndex) (g : Generics) (o : Occurrence) : Option Ty :=
  o.annotation?.map fun e => (e.resolve ix g).1

/-- The same name in the right side of a choice. -/
def toRight (o : Occurrence) : Occurrence :=
  { o with onRight := true }

end Occurrence

namespace Pattern

mutual

/-- The names in a pattern, from left to right. -/
def occurrences : Pattern → List Occurrence
  | .bare _ name => [⟨name, .bare, false⟩]
  | .typed _ name ty => [⟨name, .typed ty, false⟩]
  | .literal _ _ => []
  | .wildcard _ => []
  | .tuple _ elements => occurrencesAll elements
  | .array _ elements rest =>
    occurrencesAll elements ++ rest.toList.map fun name => ⟨name, .rest, false⟩
  | .struct _ _ fields => fieldOccurrences fields
  | .tupleStruct _ _ elements => occurrencesAll elements
  | .either _ left right => left.occurrences ++ right.occurrences.map Occurrence.toRight
  | .range _ _ _ _ => []

/-- The names in several patterns. -/
def occurrencesAll : List Pattern → List Occurrence
  | [] => []
  | p :: ps => p.occurrences ++ occurrencesAll ps

/-- The names in field patterns. -/
def fieldOccurrences : List FieldPattern → List Occurrence
  | [] => []
  | .shorthand name :: fields => ⟨name, .shorthand, false⟩ :: fieldOccurrences fields
  | .nested _ p :: fields => p.occurrences ++ fieldOccurrences fields

end

end Pattern

/-! ## The names that a pattern binds -/

namespace Pattern

mutual

theorem map_name_occurrences (p : Pattern) :
    p.occurrences.map Occurrence.name = p.boundNames [] := by
  match p with
  | .bare _ _ => simp [occurrences, boundNames]
  | .typed _ _ _ | .literal _ _ | .wildcard _ | .range _ _ _ _ => rfl
  | .tuple _ elements | .tupleStruct _ _ elements => exact map_name_occurrencesAll elements
  | .array _ elements rest =>
    rw [occurrences, boundNames, List.map_append, map_name_occurrencesAll elements, List.map_map]
    congr 1
    exact List.map_id _
  | .struct _ _ fields => exact map_name_fieldOccurrences fields
  | .either _ left right =>
    rw [occurrences, boundNames, List.map_append, map_name_occurrences left, List.map_map]
    congr 1
    exact map_name_occurrences right

theorem map_name_occurrencesAll (ps : List Pattern) :
    (occurrencesAll ps).map Occurrence.name = boundNamesAll [] ps := by
  match ps with
  | [] => rfl
  | p :: ps =>
    rw [occurrencesAll, boundNamesAll, List.map_append, map_name_occurrences p,
      map_name_occurrencesAll ps]

theorem map_name_fieldOccurrences (fields : List FieldPattern) :
    (fieldOccurrences fields).map Occurrence.name = FieldPattern.boundNamesAll [] fields := by
  match fields with
  | [] => rfl
  | .shorthand name :: fields =>
    rw [fieldOccurrences, FieldPattern.boundNamesAll, List.map_cons,
      map_name_fieldOccurrences fields]
  | .nested _ p :: fields =>
    rw [fieldOccurrences, FieldPattern.boundNamesAll, List.map_append, map_name_occurrences p,
      map_name_fieldOccurrences fields]

end

/-- A pattern binds the names that stand in it. -/
theorem mem_map_bindings (name : String) (p : Pattern) :
    name ∈ p.bindings.map Prod.fst ↔ name ∈ p.occurrences.map Occurrence.name := by
  rw [map_name_occurrences]
  exact p.mem_bindings_iff List.not_mem_nil

theorem mem_bindingNames_iff (ix : DeclIndex) (name : String) (p : Pattern) :
    name ∈ p.bindingNames ix ↔
      name ∈ p.occurrences.map Occurrence.name ∧ ix.isUnitVariant name = false := by
  rw [bindingNames, List.mem_filter, mem_map_bindings, Bool.not_eq_true']

end Pattern

/-! ## The names that a pattern gives to its scope -/

/-- The symbol that a step defines. -/
def BindStep.symbol? (isMutable : Bool) : BindStep → Option Symbol
  | bind name node declared =>
    some { name, kind := .variableName, declaredType := declared, isMutable, origin := some node.id,
           span := node.span }
  | annotate _ _ => none
  | report _ => none

/-- The symbols that steps define, the first one of each name and those that come too late. -/
def BindStep.symbols (isMutable : Bool) (steps : List BindStep) : List Symbol :=
  steps.filterMap (symbol? isMutable)

variable (isMutable : Bool)

theorem BindStep.symbols_append (steps more : List BindStep) :
    symbols isMutable (steps ++ more) = symbols isMutable steps ++ symbols isMutable more :=
  List.filterMap_append

theorem BindStep.symbols_reports {α : Type} (f : α → Finding) (as : List α) :
    symbols isMutable (as.map fun a => .report (f a)) = [] := by
  rw [symbols, List.filterMap_map]
  exact List.filterMap_eq_nil_iff.2 fun _ _ => rfl

theorem BindStep.map_name_symbols (steps : List BindStep) :
    (symbols isMutable steps).map Symbol.name = steps.filterMap name? := by
  rw [symbols, List.map_filterMap]
  refine List.filterMap_congr fun step _ => ?_
  cases step <;> rfl

/-- The first type that a list of symbols has for a name. -/
def firstType? (name : String) (symbols : List Symbol) : Option (Option Ty) :=
  (symbols.find? fun s => s.name = name).map Symbol.declaredType

theorem firstType?_isSome_iff {name : String} {symbols : List Symbol} :
    (firstType? name symbols).isSome ↔ name ∈ symbols.map Symbol.name := by
  rw [firstType?, Option.isSome_map, List.find?_isSome, List.mem_map]
  simp only [decide_eq_true_eq]

theorem firstType?_append (name : String) (symbols more : List Symbol) :
    firstType? name (symbols ++ more) = (firstType? name symbols).or (firstType? name more) := by
  unfold firstType?
  rw [List.find?_append, Option.map_or]

/-- The first occurrence of a name that gives it to the scope. -/
def definer? (ix : DeclIndex) (name : String) (os : List Occurrence) : Option Occurrence :=
  os.find? fun o => o.name = name && o.defines ix

theorem definer?_isSome_iff {ix : DeclIndex} {name : String} {os : List Occurrence} :
    (definer? ix name os).isSome ↔ ∃ o ∈ os, o.name = name ∧ o.defines ix = true := by
  simp [definer?]

theorem mem_of_definer?_eq_some {ix : DeclIndex} {name : String} {os : List Occurrence}
    {o : Occurrence} (h : definer? ix name os = some o) :
    o ∈ os ∧ o.name = name ∧ o.defines ix = true := by
  refine ⟨List.mem_of_find?_eq_some h, ?_⟩
  simpa using List.find?_some h

/-- The type that the first occurrence which gives a name to the scope gives it with. -/
def definedType? (ix : DeclIndex) (g : Generics) (name : String) (os : List Occurrence) :
    Option (Option Ty) :=
  (definer? ix name os).map (Occurrence.declaredType ix g)

theorem definedType?_append (ix : DeclIndex) (g : Generics) (name : String)
    (os more : List Occurrence) :
    definedType? ix g name (os ++ more) =
      (definedType? ix g name os).or (definedType? ix g name more) := by
  unfold definedType? definer?
  rw [List.find?_append, Option.map_or]

theorem firstType?_singleton (name : String) (s : Symbol) :
    firstType? name [s] = if s.name = name then some s.declaredType else none := by
  by_cases hname : s.name = name <;> simp [firstType?, hname]

theorem definedType?_singleton (ix : DeclIndex) (g : Generics) (name : String) (o : Occurrence) :
    definedType? ix g name [o] =
      if o.name = name ∧ o.defines ix = true then some (o.declaredType ix g) else none := by
  by_cases h : o.name = name ∧ o.defines ix = true <;> simp [definedType?, definer?, h]

/-- Among names that are listed without a type, a name is found without a type. -/
theorem firstType?_untyped (node : Node) (name : String) (names : List String) :
    firstType? name (BindStep.symbols isMutable (names.map fun n => .bind n node none)) =
      if name ∈ names then some none else none := by
  induction names with
  | nil => rfl
  | cons n names ih =>
    change firstType? name ([_] ++ BindStep.symbols isMutable _) = _
    rw [firstType?_append, firstType?_singleton, ih]
    by_cases hname : n = name
    · simp [hname]
    · simp [hname, Ne.symm hname]

/-- Occurrences that all give their names to the scope without a type. -/
theorem definedType?_untyped {ix : DeclIndex} (g : Generics) {name : String} {os : List Occurrence}
    (hos : ∀ o ∈ os, o.name = name → o.declaredType ix g = none) :
    definedType? ix g name os = if ∃ o ∈ os, o.name = name ∧ o.defines ix = true then some none
      else none := by
  unfold definedType?
  cases hfind : definer? ix name os with
  | none =>
    have hnone : ¬ ∃ o ∈ os, o.name = name ∧ o.defines ix = true := by
      rw [← definer?_isSome_iff, hfind]
      simp
    rw [if_neg hnone, Option.map_none]
  | some o =>
    obtain ⟨hmem, ho⟩ := mem_of_definer?_eq_some hfind
    rw [if_pos ⟨o, hmem, ho⟩, Option.map_some, hos o hmem ho.1]

namespace Pattern

/-- In the right side of a choice, the names that the side binds are given to the scope, without a
type. -/
theorem definedType?_toRight (ix : DeclIndex) (g : Generics) (name : String) (p : Pattern) :
    definedType? ix g name (p.occurrences.map Occurrence.toRight) =
      if name ∈ p.bindingNames ix then some none else none := by
  rw [definedType?_untyped]
  · congr 1
    rw [mem_bindingNames_iff, List.mem_map]
    refine propext ⟨?_, ?_⟩
    · rintro ⟨o, ho, hname, hdefines⟩
      obtain ⟨o', ho', rfl⟩ := List.mem_map.1 ho
      refine ⟨⟨o', ho', hname⟩, ?_⟩
      simpa [Occurrence.defines, Occurrence.toRight, ← hname] using hdefines
    · rintro ⟨⟨o, ho, rfl⟩, hunit⟩
      exact ⟨o.toRight, List.mem_map.2 ⟨o, ho, rfl⟩, rfl, by
        simp [Occurrence.defines, Occurrence.toRight, hunit]⟩
  · intro o ho _
    obtain ⟨o', _, rfl⟩ := List.mem_map.1 ho
    rfl

/-- Every name that a pattern binds is given to the scope, unless it is a constructor. -/
theorem definedType?_isSome_of_mem_bindingNames {ix : DeclIndex} (g : Generics) {name : String}
    {p : Pattern} (h : name ∈ p.bindingNames ix) :
    (definedType? ix g name p.occurrences).isSome = true := by
  obtain ⟨hmem, hunit⟩ := (mem_bindingNames_iff ix name p).1 h
  obtain ⟨o, ho, rfl⟩ := List.mem_map.1 hmem
  rw [definedType?, Option.isSome_map]
  exact definer?_isSome_iff.2 ⟨o, ho, rfl, by simp [Occurrence.defines, hunit]⟩

theorem symbols_choiceSteps (ix : DeclIndex) (isMutable : Bool) (node : Node)
    (left right : Pattern) :
    BindStep.symbols isMutable (choiceSteps ix node left right) =
      BindStep.symbols isMutable ((rightOnly ix left right).map fun n => .bind n node none) := by
  unfold choiceSteps rightOnly
  rw [BindStep.symbols_append, BindStep.symbols_reports, List.append_nil]

mutual

/-- The symbols that a pattern defines have the types of the occurrences that define them. -/
theorem firstType?_steps (ix : DeclIndex) (g : Generics) (isMutable : Bool) (name : String)
    (p : Pattern) :
    firstType? name (BindStep.symbols isMutable (p.steps ix g none)) =
      definedType? ix g name p.occurrences := by
  match p with
  | .bare node n =>
    rw [occurrences, definedType?_singleton, steps]
    cases hunit : ix.isUnitVariant n with
    | true => simp [Occurrence.defines, Mention.isBare, hunit, BindStep.symbols, firstType?]
    | false =>
      rw [if_neg Bool.false_ne_true]
      change firstType? name [_] = _
      rw [firstType?_singleton]
      simp [Occurrence.defines, hunit, Occurrence.declaredType, Occurrence.annotation?,
        Mention.annotation?]
  | .typed node n ty =>
    simp only [occurrences, definedType?_singleton, steps, BindStep.symbols_append]
    rw [BindStep.symbols_reports, List.nil_append]
    change firstType? name [_] = _
    rw [firstType?_singleton]
    simp [Occurrence.defines, Mention.isBare, Occurrence.declaredType, Occurrence.annotation?,
      Mention.annotation?]
  | .literal _ _ | .wildcard _ | .range _ _ _ _ => rfl
  | .tuple _ elements | .tupleStruct _ _ elements =>
    exact firstType?_stepsAll ix g isMutable name elements
  | .array node elements rest =>
    have hrest : definedType? ix g name (rest.toList.map fun n => ⟨n, .rest, false⟩) =
        if name ∈ rest.toList then some none else none := by
      cases rest with
      | none => rfl
      | some n =>
        change definedType? ix g name [_] = _
        rw [definedType?_singleton]
        simp [Occurrence.defines, Mention.isBare, Occurrence.declaredType,
          Occurrence.annotation?, Mention.annotation?, eq_comm]
    rw [steps, occurrences, definedType?_append, hrest, BindStep.symbols_append,
      firstType?_append, firstType?_stepsAll ix g isMutable name elements, firstType?_untyped]
  | .struct node _ fields => exact firstType?_fieldSteps ix g isMutable name node fields
  | .either node left right =>
    rw [steps, occurrences, definedType?_append, definedType?_toRight, BindStep.symbols_append,
      firstType?_append, firstType?_steps ix g isMutable name left, symbols_choiceSteps,
      firstType?_untyped, rightOnly]
    -- What the left side does not give to the scope, it does not bind.
    cases hleft : definedType? ix g name left.occurrences with
    | some t => rfl
    | none =>
      have hmem : name ∉ left.bindingNames ix := fun h => by
        have hsome := definedType?_isSome_of_mem_bindingNames g h
        rw [hleft] at hsome
        cases hsome
      simp [hmem]

theorem firstType?_stepsAll (ix : DeclIndex) (g : Generics) (isMutable : Bool) (name : String)
    (ps : List Pattern) :
    firstType? name (BindStep.symbols isMutable (stepsAll ix g ps)) =
      definedType? ix g name (occurrencesAll ps) := by
  match ps with
  | [] => rfl
  | p :: ps =>
    rw [stepsAll, occurrencesAll, definedType?_append, BindStep.symbols_append,
      firstType?_append, firstType?_steps ix g isMutable name p,
      firstType?_stepsAll ix g isMutable name ps]

theorem firstType?_fieldSteps (ix : DeclIndex) (g : Generics) (isMutable : Bool) (name : String)
    (node : Node) (fields : List FieldPattern) :
    firstType? name (BindStep.symbols isMutable (fieldSteps ix g node fields)) =
      definedType? ix g name (fieldOccurrences fields) := by
  match fields with
  | [] => rfl
  | .shorthand n :: fields =>
    rw [fieldSteps, fieldOccurrences]
    change firstType? name ([_] ++ BindStep.symbols isMutable _) =
      definedType? ix g name ([_] ++ _)
    rw [firstType?_append, definedType?_append, firstType?_singleton, definedType?_singleton,
      firstType?_fieldSteps ix g isMutable name node fields]
    simp [Occurrence.defines, Mention.isBare, Occurrence.declaredType, Occurrence.annotation?,
      Mention.annotation?]
  | .nested _ p :: fields =>
    rw [fieldSteps, fieldOccurrences, definedType?_append, BindStep.symbols_append,
      firstType?_append, firstType?_steps ix g isMutable name p,
      firstType?_fieldSteps ix g isMutable name node fields]

end

/-- A pattern defines the names whose occurrences give them to the scope. -/
theorem mem_defined_iff_exists_defines (ix : DeclIndex) (name : String) (p : Pattern) :
    name ∈ p.defined ix ↔ ∃ o ∈ p.occurrences, o.name = name ∧ o.defines ix = true := by
  rw [← filterMap_name?_steps ix {} none p, ← BindStep.map_name_symbols false,
    ← firstType?_isSome_iff, firstType?_steps, definedType?, Option.isSome_map,
    definer?_isSome_iff]

end Pattern

end UnitAnalysis

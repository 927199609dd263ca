import UnitAnalysis.Declared.Resolve

/-!
# Unknown names in written types

A written type is reported on for the names in it that stand for nothing, and for nothing else. The
names are listed with their places by `TypeExpr.mentions`, in the order of the reports: those in the
arguments of a name come before the name.
-/

set_option autoImplicit false

namespace UnitAnalysis

/-- Whether a name stands for a type. -/
def isKnownType (ix : DeclIndex) (g : Generics) (name : String) : Bool :=
  (g.get? name).isSome || (Primitive.ofName? name).isSome || (builtinArity? name).isSome ||
    ix.contains name

namespace TypeExpr

mutual

/-- The names in a written type, with their places. -/
def mentions : TypeExpr → List (String × Span)
  | .named span name args => mentionsAll args ++ [(name, span)]
  | .optional _ inner => inner.mentions
  | .array _ element => element.mentions
  | .tuple _ elements => mentionsAll elements
  | .function _ params ret => mentionsAll params ++ ret.mentions

/-- The names in several written types. -/
def mentionsAll : List TypeExpr → List (String × Span)
  | [] => []
  | e :: es => e.mentions ++ mentionsAll es

end

end TypeExpr

/-- A report for each name that stands for no type. -/
def unknownTypes (ix : DeclIndex) (g : Generics) (mentions : List (String × Span)) : List Finding :=
  (mentions.filter fun m => !isKnownType ix g m.1).map fun m => ⟨.unknownType m.1, m.2⟩

/-- Mentions are judged one by one. -/
theorem unknownTypes_append (ix : DeclIndex) (g : Generics) (mentions more : List (String × Span)) :
    unknownTypes ix g (mentions ++ more) =
      unknownTypes ix g mentions ++ unknownTypes ix g more := by
  unfold unknownTypes
  rw [List.filter_append, List.map_append]

/-- A name is reported if unknown. -/
theorem resolveName_findings (ix : DeclIndex) (g : Generics) (span : Span) (name : String)
    (args : List Ty) : (resolveName ix g span name args).2 = unknownTypes ix g [(name, span)] := by
  unfold resolveName
  cases hlayer : g.get? name with
  | some t => simp [unknownTypes, isKnownType, hlayer]
  | none =>
    cases hprim : Primitive.ofName? name with
    | some p => simp [unknownTypes, isKnownType, hprim]
    | none =>
      cases harity : builtinArity? name with
      | some arity => simp [unknownTypes, isKnownType, harity]
      | none =>
        cases hdecl : ix.contains name with
        | true => simp [unknownTypes, isKnownType, hdecl]
        | false => simp [unknownTypes, isKnownType, hlayer, hprim, harity, hdecl]

namespace TypeExpr

mutual

/-- A written type is reported on for its unknown names alone. -/
theorem resolve_findings (ix : DeclIndex) (g : Generics) (e : TypeExpr) :
    (e.resolve ix g).2 = unknownTypes ix g e.mentions := by
  match e with
  | .named span name args =>
    rw [mentions, unknownTypes_append, ← resolveAll_findings ix g args,
      ← resolveName_findings ix g span name (resolveAll ix g args).1]
    rfl
  | .optional _ inner => exact resolve_findings ix g inner
  | .array _ element => exact resolve_findings ix g element
  | .tuple _ elements => exact resolveAll_findings ix g elements
  | .function _ params ret =>
    rw [mentions, unknownTypes_append, ← resolveAll_findings ix g params,
      ← resolve_findings ix g ret]
    rfl

/-- Written types one after another. -/
theorem resolveAll_findings (ix : DeclIndex) (g : Generics) (es : List TypeExpr) :
    (resolveAll ix g es).2 = unknownTypes ix g (mentionsAll es) := by
  match es with
  | [] => rfl
  | e :: es =>
    rw [mentionsAll, unknownTypes_append, ← resolve_findings ix g e,
      ← resolveAll_findings ix g es]
    rfl

end

end TypeExpr

end UnitAnalysis

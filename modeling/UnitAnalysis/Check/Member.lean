import UnitAnalysis.Declared.Index
import UnitAnalysis.Diagnostic.Problem

/-!
# Fields

The types of field accesses and struct literals, and the types that the names of a pattern take from
the value that is matched.
-/

set_option autoImplicit false

namespace UnitAnalysis

/-- The number that a text of decimal digits stands for; a plus sign may stand before them. -/
def decimal? (s : String) : Option Nat :=
  let digits := match s.toList with
    | '+' :: rest => rest
    | cs => cs
  if digits.isEmpty || !digits.all (·.isDigit) then none
  else some (digits.foldl (fun n c => 10 * n + (c.toNat - '0'.toNat)) 0)

namespace Check

/-- The element of a tuple that a field name stands for: `t.0` is the first one. -/
def tupleElement? (receiver : Ty) (field : String) : Option Ty :=
  match receiver with
  | .tuple elements => (decimal? field).bind fun i => elements[i]?
  | _ => none

/-- The type of a field access. -/
def fieldType (ix : DeclIndex) (receiver : Ty) (field : String) (span : Span) : Judged Ty :=
  if receiver.isAny then (.any, [])
  else
    match (tupleElement? receiver field).or (ix.fieldOf receiver field) with
    | some t => (t, [])
    | none => (.any, [⟨.unknownField receiver field, span⟩])

/-- The fields of a literal of a name, and the type of the literal: first as the name of a type,
then as that of a variant. -/
def literalFields? (ix : DeclIndex) (name : String) : Option (List Field × Ty) :=
  match ix.get? name with
  | some d => some (d.fields, d.selfType)
  | none =>
    (ix.variant? name).map fun v =>
      (v.fields, match ix.get? v.parent with
        | some d => d.selfType
        | none => .named v.parent)

/-- A field of a struct literal: its name, its place and the type of its value. -/
structure Initializer where
  /-- The name. -/
  name : String
  /-- The place. -/
  span : Span
  /-- The type of the value. -/
  ty : Ty

/-- What is wrong with one field of a struct literal. A field whose declared type is open is not
judged. -/
def initializerFindings (owner : String) (fields : List Field) (init : Initializer) :
    List Finding :=
  match fields.find? fun f => f.name = init.name with
  | some f =>
    if !f.ty.hasParams && !f.ty.accepts init.ty then
      [⟨.fieldMismatch owner init.name f.ty init.ty, init.span⟩]
    else []
  | none => [⟨.unknownInitializer owner init.name, init.span⟩]

/-- The type of a struct literal. Fields may be missing. -/
def structType (ix : DeclIndex) (name : String) (inits : List Initializer) (span : Span) :
    Judged Ty :=
  match literalFields? ix name with
  | some (fields, result) => (result, inits.flatMap (initializerFindings name fields))
  | none => (.any, [⟨.unknownStruct name, span⟩])

end Check

/-- The fields that a pattern of a name takes apart, with their types for a scrutinee: first as the
name of a variant, then as that of a type. -/
def DeclIndex.patternFields (ix : DeclIndex) (name : String) (scrutinee : Ty) :
    List (String × Ty) :=
  match ix.variant? name with
  | some v =>
    v.fields.map fun f => (f.name, match ix.get? v.parent with
      | some d => d.instantiate scrutinee f.ty
      | none => f.ty)
  | none =>
    match ix.get? name with
    | some d => d.fields.map fun f => (f.name, d.instantiate scrutinee f.ty)
    | none => []

namespace Pattern

/-- The types of the elements of a tuple pattern: all `Any` unless the value is a tuple of the same
size. -/
def elementTypes (t : Ty) (count : Nat) : List Ty :=
  match t with
  | .tuple types => if types.length = count then types else []
  | _ => []

mutual

/-- The names of a pattern, from left to right, with the types that they take from a value of type
`t`. A name with a written type is left out. A name that both sides of a choice bind is listed for
both. -/
def typings (ix : DeclIndex) (t : Ty) : Pattern → List (String × Ty)
  | .bare _ name => [(name, t)]
  | .typed _ _ _ => []
  | .literal _ _ => []
  | .wildcard _ => []
  | .tuple _ elements => typingsEach ix (elementTypes t elements.length) elements
  | .array _ elements rest =>
    let element := t.elementType?.getD .any
    typingsAll ix element elements ++ rest.toList.map fun name => (name, .array element)
  | .struct _ name fields => fieldTypings ix (ix.patternFields name t) fields
  | .tupleStruct _ name elements =>
    typingsEach ix ((ix.patternFields name t).map Prod.snd) elements
  | .either _ left right => left.typings ix t ++ right.typings ix t
  | .range _ _ _ _ => []

/-- The names of several patterns for values of one type. -/
def typingsAll (ix : DeclIndex) (t : Ty) : List Pattern → List (String × Ty)
  | [] => []
  | p :: ps => p.typings ix t ++ typingsAll ix t ps

/-- The names of several patterns for values of the listed types, `Any` after the end of the list.
-/
def typingsEach (ix : DeclIndex) (types : List Ty) : List Pattern → List (String × Ty)
  | [] => []
  | p :: ps => p.typings ix (types.head?.getD .any) ++ typingsEach ix types.tail ps

/-- The names of field patterns. -/
def fieldTypings (ix : DeclIndex) (declared : List (String × Ty)) :
    List FieldPattern → List (String × Ty)
  | [] => []
  | .shorthand name :: fields =>
    (name, (declared.lookup name).getD .any) :: fieldTypings ix declared fields
  | .nested name p :: fields =>
    p.typings ix ((declared.lookup name).getD .any) ++ fieldTypings ix declared fields

end

end Pattern

end UnitAnalysis

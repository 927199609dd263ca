import UnitAnalysis.Declared.Index
import UnitAnalysis.Diagnostic.Problem

/-!
# Resolving written types

A written type is resolved against the type parameters in force (`Generics`) and the declared types.
A name stands for its innermost type parameter or alias, else for a scalar type, else for a built-in
container, else for a declared type. A name that is none of these is a problem and stands for `Any`.
-/

set_option autoImplicit false

namespace UnitAnalysis

/-- The type parameters and aliases in force, innermost first. -/
structure Generics where
  /-- What each name stands for. -/
  layers : List (String × Ty) := []
  deriving Repr

namespace Generics

/-- A type parameter as a type. -/
def paramType (p : TypeParam) : Ty :=
  .bounded p.name p.bounds

/-- The type parameters of a declaration as types. -/
def toTypes (params : List TypeParam) : List Ty :=
  params.map paramType

/-- Puts a name in force. -/
def withAlias (g : Generics) (name : String) (t : Ty) : Generics :=
  ⟨(name, t) :: g.layers⟩

/-- Puts type parameters in force, the last one innermost. -/
def extend (g : Generics) (params : List TypeParam) : Generics :=
  params.foldl (fun g p => g.withAlias p.name (paramType p)) g

/-- What a name stands for. -/
def get? (g : Generics) (name : String) : Option Ty :=
  Table.find name g.layers

end Generics

/-- What a name with resolved arguments stands for, at the given place. Arguments of a type
parameter or scalar type are dropped, and a container without arguments holds `Any`. -/
def resolveName (ix : DeclIndex) (g : Generics) (span : Span) (name : String) (args : List Ty) :
    Judged Ty :=
  match g.get? name with
  | some t => (t, [])
  | none =>
    match Primitive.ofName? name with
    | some p => (.prim p, [])
    | none =>
      match builtinArity? name with
      | some arity =>
        (.generic name (if args.isEmpty then List.replicate arity .any else args), [])
      | none =>
        if ix.contains name then (if args.isEmpty then .named name else .generic name args, [])
        else (.any, [⟨.unknownType name, span⟩])

mutual

/-- The type that a written type stands for. Problems come from left to right, those of arguments
before that of the name they belong to. -/
def TypeExpr.resolve (ix : DeclIndex) (g : Generics) : TypeExpr → Judged Ty
  | .named span name args =>
    let (args, found) := TypeExpr.resolveAll ix g args
    let (t, found') := resolveName ix g span name args
    (t, found ++ found')
  | .optional _ inner =>
    let (t, found) := inner.resolve ix g
    (.optional t, found)
  | .array _ element =>
    let (t, found) := element.resolve ix g
    (.array t, found)
  | .tuple _ elements =>
    let (ts, found) := TypeExpr.resolveAll ix g elements
    (.tuple ts, found)
  | .function _ params ret =>
    let (ts, found) := TypeExpr.resolveAll ix g params
    let (t, found') := ret.resolve ix g
    (.function ts t, found ++ found')

/-- The types that several written types stand for. -/
def TypeExpr.resolveAll (ix : DeclIndex) (g : Generics) : List TypeExpr → Judged (List Ty)
  | [] => ([], [])
  | e :: es =>
    let (t, found) := e.resolve ix g
    let (ts, found') := TypeExpr.resolveAll ix g es
    (t :: ts, found ++ found')

end

end UnitAnalysis

import UnitAnalysis.Syntax.Decl
import UnitAnalysis.Ty.Subst

/-!
# Declared types

The index of the types that a unit declares, with their fields, methods and variants. Members are
kept with the type parameters of their declaration, and `DeclaredType.instantiate` puts in the
arguments of an actual receiver.
-/

set_option autoImplicit false

namespace UnitAnalysis

/-- What declares a type. -/
inductive DeclKind where
  | classLike (kind : ClassKind)
  | struct | spark | data | trait | interface
  deriving DecidableEq, Repr

/-- The kinds of declarations, by name. -/
def DeclKind.names : List (String × DeclKind) :=
  [("Class", .classLike .plain), ("Actor", .classLike .actor), ("Exception", .classLike .exception),
    ("Struct", .struct), ("Spark", .spark), ("Data", .data), ("Trait", .trait),
    ("Interface", .interface)]

/-- A field with its resolved type. -/
structure Field where
  /-- The name. -/
  name : String
  /-- The type. -/
  ty : Ty
  /-- Whether it may be assigned to. -/
  isMutable : Bool := false
  /-- The place of its declaration. -/
  span : Span := {}
  deriving DecidableEq, Repr

/-- The resolved signature of a function or method. -/
structure Signature where
  /-- The name. -/
  name : String
  /-- The type parameters, with their bounds. -/
  typeParams : List Ty := []
  /-- The names and types of the parameters. -/
  params : List (String × Ty) := []
  /-- The written result. -/
  ret : Option Ty := none
  /-- Whether it is asynchronous. -/
  isAsync : Bool := false
  /-- The declaration that it belongs to. -/
  origin : NodeId
  /-- The place of that declaration. -/
  span : Span := {}
  deriving DecidableEq, Repr

namespace Signature

/-- The types of the parameters. -/
def paramTypes (s : Signature) : List Ty :=
  s.params.map Prod.snd

/-- The result, `Void` when none is written. -/
def returnType (s : Signature) : Ty :=
  s.ret.getD .void

/-- The type of the function itself. -/
def functionType (s : Signature) : Ty :=
  .function s.paramTypes s.returnType

/-- Changes the types of all parameters and of the result. -/
def mapTypes (f : Ty → Ty) (s : Signature) : Signature :=
  { s with params := s.params.map fun p => (p.1, f p.2), ret := s.ret.map f }

end Signature

/-- A variant of a data type. -/
structure Variant where
  /-- The name of the constructor. -/
  name : String
  /-- The data type that it belongs to. -/
  parent : String
  /-- Its fields. -/
  fields : List Field := []
  deriving DecidableEq, Repr

/-- A declared type. -/
structure DeclaredType where
  /-- The name. -/
  name : String
  /-- What declares it. -/
  kind : DeclKind
  /-- Its type parameters, with their bounds. -/
  typeParams : List Ty := []
  /-- Its fields. -/
  fields : List Field := []
  /-- Its methods, by name. -/
  methods : Table String Signature := {}
  /-- The names of its variants, in order. -/
  variants : List String := []
  /-- The place of the declaration. -/
  span : Span := {}
  deriving Repr

namespace DeclaredType

/-- The field of a name. -/
def field? (d : DeclaredType) (name : String) : Option Field :=
  d.fields.find? fun f => f.name = name

/-- The type of a value of the declaration, as the declaration itself sees it. -/
def selfType (d : DeclaredType) : Ty :=
  if d.typeParams.isEmpty then .named d.name else .generic d.name d.typeParams

/-- Pairs the type parameters of a declaration with arguments, as far as both go. -/
def pairParams (typeParams args : List Ty) : List (String × Ty) :=
  (typeParams.zip args).filterMap fun
    | (.param name _, arg) => some (name, arg)
    | _ => none

/-- The type of a member for a receiver: the arguments of the receiver take the places of the
type parameters of the declaration. -/
def instantiate (d : DeclaredType) (receiver member : Ty) : Ty :=
  match receiver with
  | .generic _ args => (Subst.ofList (pairParams d.typeParams args)).apply member
  | _ => member

end DeclaredType

/-- The types and variants that a unit declares, by name. -/
structure DeclIndex where
  /-- The declared types. -/
  types : Table String DeclaredType := {}
  /-- The variants of all data types. -/
  variants : Table String Variant := {}
  deriving Repr

namespace DeclIndex

instance : Inhabited DeclIndex := ⟨{}⟩

/-- The declared type of a name. -/
def get? (ix : DeclIndex) (name : String) : Option DeclaredType :=
  ix.types.get? name

/-- Whether a name is declared. -/
def contains (ix : DeclIndex) (name : String) : Bool :=
  ix.types.contains name

/-- The variant of a name. -/
def variant? (ix : DeclIndex) (name : String) : Option Variant :=
  ix.variants.get? name

/-- Declares a type, unless its name is taken. -/
def declare (ix : DeclIndex) (d : DeclaredType) : DeclIndex :=
  if ix.contains d.name then ix else { ix with types := ix.types.insert d.name d }

/-- Adds a variant and lists it with its data type. -/
def addVariant (ix : DeclIndex) (v : Variant) : DeclIndex :=
  { types := ix.types.modify v.parent fun d => { d with variants := d.variants ++ [v.name] }
    variants := ix.variants.insert v.name v }

/-- Changes a declared type. -/
def modify (ix : DeclIndex) (name : String) (f : DeclaredType → DeclaredType) : DeclIndex :=
  { ix with types := ix.types.modify name f }

/-- Whether a bare name in a pattern is a constructor without fields. -/
def isUnitVariant (ix : DeclIndex) (name : String) : Bool :=
  match ix.variant? name with
  | some v => v.fields.isEmpty
  | none => false

/-- The type of a field of a value of type `t`. -/
def fieldOf (ix : DeclIndex) (t : Ty) (field : String) : Option Ty := do
  let d ← ix.get? (← t.nominalName?)
  let f ← d.field? field
  return d.instantiate t f.ty

/-- The method that a declaration itself gives to values of type `t`. -/
def methodOf (ix : DeclIndex) (t : Ty) (method : String) : Option Signature := do
  let d ← ix.get? (← t.nominalName?)
  let s ← d.methods.get? method
  return s.mapTypes (d.instantiate t)

end DeclIndex

end UnitAnalysis

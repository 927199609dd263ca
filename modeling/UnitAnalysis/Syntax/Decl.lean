import UnitAnalysis.Syntax.Expr

/-!
# Declarations

A compilation unit is a list of declarations: functions, classes and their kin, structs and sparks,
data types, traits and interfaces, implementations, and the statements of a script.
-/

set_option autoImplicit false

namespace UnitAnalysis

/-- A parameter of a function or method. -/
structure Param where
  /-- The identity and place. -/
  node : Node
  /-- The name. -/
  name : String
  /-- The written type. -/
  ty : TypeExpr
  /-- Whether the body may assign to it. -/
  isMutable : Bool := false

/-- A function or method. -/
structure FunctionDecl where
  /-- The identity and place. -/
  node : Node
  /-- The name. -/
  name : String
  /-- The type parameters. -/
  typeParams : List TypeParam := []
  /-- The parameters. -/
  params : List Param := []
  /-- The written type of the result. -/
  returnType : Option TypeExpr := none
  /-- Whether it is asynchronous. -/
  isAsync : Bool := false
  /-- The body. -/
  body : Block

/-- The kinds of class-like declarations. -/
inductive ClassKind where
  | plain | actor | exception
  deriving DecidableEq, Repr

/-- A field of a class, struct, spark or variant. -/
structure FieldDecl where
  /-- The identity and place. -/
  node : Node
  /-- The name. -/
  name : String
  /-- The written type. -/
  ty : TypeExpr
  /-- Whether it may be assigned to. -/
  isMutable : Bool := false
  /-- Its first value. -/
  initializer : Option Expr := none

/-- A class, actor or exception. -/
structure ClassDecl where
  /-- The identity and place. -/
  node : Node
  /-- Which of the three it is. -/
  kind : ClassKind := .plain
  /-- The name. -/
  name : String
  /-- The type parameters. -/
  typeParams : List TypeParam := []
  /-- The fields. -/
  fields : List FieldDecl := []
  /-- The methods. -/
  methods : List FunctionDecl := []

/-- A struct or spark. -/
structure StructDecl where
  /-- The identity and place. -/
  node : Node
  /-- The name. -/
  name : String
  /-- The type parameters. -/
  typeParams : List TypeParam := []
  /-- The fields. -/
  fields : List FieldDecl := []

/-- A variant of a data type. -/
structure VariantDecl where
  /-- The identity and place. -/
  node : Node
  /-- The name of the constructor. -/
  name : String
  /-- Its fields. -/
  fields : List FieldDecl := []

/-- A data type. -/
structure DataDecl where
  /-- The identity and place. -/
  node : Node
  /-- The name. -/
  name : String
  /-- The type parameters. -/
  typeParams : List TypeParam := []
  /-- The variants. -/
  variants : List VariantDecl

/-- A method that a trait asks for. -/
structure MethodSig where
  /-- The identity and place. -/
  node : Node
  /-- The name. -/
  name : String
  /-- The type parameters. -/
  typeParams : List TypeParam := []
  /-- The parameters. -/
  params : List Param := []
  /-- The written type of the result. -/
  returnType : Option TypeExpr := none
  /-- Whether it is asynchronous. -/
  isAsync : Bool := false

/-- A trait or interface. -/
structure TraitDecl where
  /-- The identity and place. -/
  node : Node
  /-- The name. -/
  name : String
  /-- The type parameters. -/
  typeParams : List TypeParam := []
  /-- The methods. -/
  methods : List MethodSig := []

/-- Methods for a type, on their own or on behalf of a trait. -/
structure ImplDecl where
  /-- The identity and place. -/
  node : Node
  /-- The trait, if there is one. -/
  traitName : Option String := none
  /-- The arguments of the trait. -/
  traitArgs : List TypeExpr := []
  /-- The type parameters. -/
  typeParams : List TypeParam := []
  /-- The type that gets the methods. -/
  target : TypeExpr
  /-- The methods. -/
  methods : List FunctionDecl := []

/-- A declaration of a unit. -/
inductive Decl where
  | function (decl : FunctionDecl)
  | classLike (decl : ClassDecl)
  | struct (decl : StructDecl)
  | spark (decl : StructDecl)
  | data (decl : DataDecl)
  | trait (decl : TraitDecl)
  | interface (decl : TraitDecl)
  | impl (decl : ImplDecl)
  /-- A statement of the script; its names are global. -/
  | script (stmt : Stmt)

/-- The identity and place of a declaration. -/
def Decl.node : Decl → Node
  | function d => d.node
  | classLike d => d.node
  | struct d => d.node
  | spark d => d.node
  | data d => d.node
  | trait d => d.node
  | interface d => d.node
  | impl d => d.node
  | script s => s.node

/-- One source file. -/
structure SourceUnit where
  /-- The identity and place. -/
  node : Node
  /-- The name. -/
  name : String := ""
  /-- The declarations. -/
  decls : List Decl

end UnitAnalysis

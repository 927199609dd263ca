import UnitAnalysis.Syntax.Decl

/-!
# Making trees

Short ways to make trees without places, in which every node has an identity of its own. `Fresh`
gives out the identities one after the other.
-/

set_option autoImplicit false

namespace UnitAnalysis

/-- Making something with new identities. The state is the next free one. -/
abbrev Fresh := StateM NodeId

namespace Make

/-- A new identity, without a place. -/
def node : Fresh Node :=
  fun next => ({ id := next, span := {} }, next.next)

/-- A type by its name, with arguments. -/
def ty (name : String) (args : List TypeExpr := []) : TypeExpr :=
  .named {} name args

/-- A literal. -/
def lit (value : Literal) : Fresh Expr :=
  return .literal (← node) value

/-- A name. -/
def ident (name : String) : Fresh Expr :=
  return .ident (← node) name

/-- An operator with two operands. -/
def binary (op : BinaryOp) (left right : Expr) : Fresh Expr :=
  return .binary (← node) op left right

/-- An operator with one operand. -/
def unary (op : UnaryOp) (operand : Expr) : Fresh Expr :=
  return .unary (← node) op operand

/-- A call of a named function. -/
def call (callee : String) (args : List Expr) : Fresh Expr :=
  return .call (← node) (← ident callee) args

/-- A call of a method, perhaps of a certain trait. -/
def methodCall (receiver : Expr) (qualifier : Option String) (method : String) (args : List Expr) :
    Fresh Expr :=
  return .methodCall (← node) receiver qualifier method args

/-- An access to a field. -/
def fieldAccess (object : Expr) (name : String) : Fresh Expr :=
  return .fieldAccess (← node) object name

/-- A choice by a condition. -/
def ifElse (cond : Expr) (thenBranch : Block) (elseBranch : Option Expr) : Fresh Expr :=
  return .ifElse (← node) cond thenBranch elseBranch

/-- A match. -/
def matchOn (scrutinee : Expr) (arms : List MatchArm) : Fresh Expr :=
  return .matchOn (← node) scrutinee arms

/-- An arm of a match, perhaps with a condition. -/
def arm (pattern : Pattern) (guard : Option Expr) (body : Expr) : Fresh MatchArm :=
  return { node := ← node, pattern, guard, body }

/-- A block as an expression. -/
def blockExpr (body : Block) : Fresh Expr :=
  return .block (← node) body

/-- Parameters of a lambda, by their names. -/
def lambdaParams : List String → Fresh (List LambdaParam)
  | [] => return []
  | name :: names => do
    let p : LambdaParam := { node := ← node, name, ty := none }
    return p :: (← lambdaParams names)

/-- A lambda whose parameters have no written types. -/
def lambda (params : List String) (isAsync : Bool) (body : Block) : Fresh Expr :=
  return .lambda (← node) (← lambdaParams params) isAsync body

/-- A loop over a container. -/
def forLoop (pattern : Pattern) (iterable : Expr) (body : Block) : Fresh Expr :=
  return .forLoop (← node) pattern iterable body

/-- A loop with a condition. -/
def whileLoop (cond : Expr) (body : Block) : Fresh Expr :=
  return .whileLoop (← node) cond body

/-- A `return`. -/
def ret (value : Option Expr) : Fresh Expr :=
  return .ret (← node) value

/-- An assignment. -/
def assign (target value : Expr) : Fresh Expr :=
  return .assign (← node) target value

/-- An array. -/
def array (elements : List Expr) : Fresh Expr :=
  return .arrayLit (← node) elements

/-- A tuple. -/
def tuple (elements : List Expr) : Fresh Expr :=
  return .tupleLit (← node) elements

/-- A struct literal. -/
def structLit (name : String) (fields : List (String × Expr)) : Fresh Expr :=
  return .structLit (← node) name
    (fields.map fun (name, value) => { span := {}, name, value })

/-- A block with one handler. -/
def tryCatch (body : Block) (name : String) (ty : Option TypeExpr) (handler : Block) :
    Fresh Expr :=
  return .tryCatch (← node) body [{ node := ← node, name, ty, body := handler }] none

/-- An awaited value. -/
def await (value : Expr) : Fresh Expr :=
  return .await (← node) value

/-- Names with their values in a `concurrent` block. -/
def bindings : List (String × Expr) → Fresh (List ConcurrentBinding)
  | [] => return []
  | (name, value) :: rest => do
    let b : ConcurrentBinding := { node := ← node, name, value }
    return b :: (← bindings rest)

/-- A `concurrent` block. -/
def concurrent (values : List (String × Expr)) : Fresh Expr :=
  return .concurrent (← node) (← bindings values)

/-- A `race`. -/
def race (body : Block) : Fresh Expr :=
  return .race (← node) body

/-- A `timeout`. -/
def timeout (duration : Expr) (body : Block) : Fresh Expr :=
  return .timeout (← node) duration body

/-- A `let`. -/
def letBind (pattern : Pattern) (ty : Option TypeExpr) (isMutable : Bool) (value : Expr) :
    Fresh Stmt :=
  return .letBind (← node) pattern ty isMutable value

/-- An expression as a statement. -/
def exprStmt (value : Expr) : Fresh Stmt :=
  return .expr (← node) value

/-- A block. -/
def block (stmts : List Stmt) (result : Option Expr) : Fresh Block :=
  return { node := ← node, stmts, result }

/-- A pattern that is a bare name. -/
def bare (name : String) : Fresh Pattern :=
  return .bare (← node) name

/-- A pattern that is a name with its type. -/
def typed (name : String) (ty : TypeExpr) : Fresh Pattern :=
  return .typed (← node) name ty

/-- The pattern `_`. -/
def wildcard : Fresh Pattern :=
  return .wildcard (← node)

/-- A pattern that is a literal. -/
def litPattern (value : Literal) : Fresh Pattern :=
  return .literal (← node) value

/-- A tuple of patterns. -/
def tuplePattern (elements : List Pattern) : Fresh Pattern :=
  return .tuple (← node) elements

/-- An array of patterns, perhaps with a name for the rest. -/
def arrayPattern (elements : List Pattern) (rest : Option String) : Fresh Pattern :=
  return .array (← node) elements rest

/-- A pattern for the fields of a struct. -/
def structPattern (name : String) (fields : List FieldPattern) : Fresh Pattern :=
  return .struct (← node) name fields

/-- A pattern for a variant. -/
def variantPattern (name : String) (elements : List Pattern) : Fresh Pattern :=
  return .tupleStruct (← node) name elements

/-- Either of two patterns. -/
def either (left right : Pattern) : Fresh Pattern :=
  return .either (← node) left right

/-- A range of whole numbers. -/
def range (first last : Int64) (isInclusive : Bool) : Fresh Pattern :=
  return .range (← node) (.int first) (.int last) isInclusive

/-- A parameter. -/
def param (name : String) (ty : TypeExpr) : Fresh Param :=
  return { node := ← node, name, ty }

/-- A function. -/
def function (name : String) (typeParams : List TypeParam) (params : List Param)
    (returnType : Option TypeExpr) (isAsync : Bool) (body : Block) : Fresh FunctionDecl :=
  return { node := ← node, name, typeParams, params, returnType, isAsync, body }

/-- A field. -/
def field (name : String) (ty : TypeExpr) (initializer : Option Expr := none) : Fresh FieldDecl :=
  return { node := ← node, name, ty, initializer }

/-- A class. -/
def classLike (name : String) (fields : List FieldDecl) (methods : List FunctionDecl) :
    Fresh ClassDecl :=
  return { node := ← node, name, fields, methods }

/-- A struct or spark. -/
def struct (name : String) (fields : List FieldDecl) : Fresh StructDecl :=
  return { node := ← node, name, fields }

/-- A variant. -/
def variant (name : String) (fields : List FieldDecl) : Fresh VariantDecl :=
  return { node := ← node, name, fields }

/-- A data type. -/
def data (name : String) (variants : List VariantDecl) : Fresh DataDecl :=
  return { node := ← node, name, variants }

/-- A method that a trait asks for. -/
def methodSig (name : String) (params : List Param) (returnType : Option TypeExpr) :
    Fresh MethodSig :=
  return { node := ← node, name, params, returnType }

/-- A trait or interface. -/
def trait (name : String) (methods : List MethodSig) : Fresh TraitDecl :=
  return { node := ← node, name, methods }

/-- An implementation, perhaps of a trait. -/
def impl (traitName : Option String) (target : TypeExpr) (methods : List FunctionDecl) :
    Fresh ImplDecl :=
  return { node := ← node, traitName, target, methods }

/-- A unit with the name `test`. -/
def sourceUnit (decls : List Decl) : Fresh SourceUnit :=
  return { node := ← node, name := "test", decls }

end Make

end UnitAnalysis

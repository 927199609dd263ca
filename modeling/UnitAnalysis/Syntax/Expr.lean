import UnitAnalysis.Syntax.Pattern

/-!
# Expressions and statements

The bodies of functions and scripts. An expression is an identifier, an operation, a control
structure or a construct of concurrency; a block is a list of statements with an expression at its
end, when it has a value.
-/

set_option autoImplicit false

namespace UnitAnalysis

/-- The operators between two operands. -/
inductive BinaryOp where
  | add | sub | mul | div | mod | pow
  | bitAnd | bitOr | bitXor | shl | shr
  | eq | ne | lt | le | gt | ge
  | and | or
  deriving DecidableEq, Repr

/-- What kind of operands an operator works on. -/
inductive BinaryOp.Family where
  | arithmetic | bitwise | comparison | logical
  deriving DecidableEq, Repr

namespace BinaryOp

/-- The way an operator is written. -/
def symbol : BinaryOp → String
  | add => "+"
  | sub => "-"
  | mul => "*"
  | div => "/"
  | mod => "%"
  | pow => "^"
  | bitAnd => "&"
  | bitOr => "|"
  | bitXor => "xor"
  | shl => "<<"
  | shr => ">>"
  | eq => "=="
  | ne => "!="
  | lt => "<"
  | le => "<="
  | gt => ">"
  | ge => ">="
  | and => "&&"
  | or => "||"

/-- The kind of operands of an operator. -/
def family : BinaryOp → Family
  | add | sub | mul | div | mod | pow => .arithmetic
  | bitAnd | bitOr | bitXor | shl | shr => .bitwise
  | eq | ne | lt | le | gt | ge => .comparison
  | and | or => .logical

end BinaryOp

/-- The operators on one operand. -/
inductive UnaryOp where
  /-- `-x` -/
  | neg
  /-- `!x` -/
  | not
  /-- `x?` -/
  | unwrap
  /-- `x!!` -/
  | forceUnwrap
  deriving DecidableEq, Repr

/-- A parameter of a lambda, with or without a type. -/
structure LambdaParam where
  /-- The identity and place. -/
  node : Node
  /-- The name. -/
  name : String
  /-- The written type. -/
  ty : Option TypeExpr := none

mutual

/-- An expression. -/
inductive Expr where
  | literal (node : Node) (value : Literal)
  | ident (node : Node) (name : String)
  | binary (node : Node) (op : BinaryOp) (left right : Expr)
  | unary (node : Node) (op : UnaryOp) (operand : Expr)
  | call (node : Node) (callee : Expr) (args : List Expr)
  /-- `receiver.method(args)`, or `receiver.Trait::method(args)` with a qualifier. -/
  | methodCall (node : Node) (receiver : Expr) (qualifier : Option String) (method : String)
      (args : List Expr)
  | fieldAccess (node : Node) (object : Expr) (field : String)
  | index (node : Node) (object position : Expr)
  | ifElse (node : Node) (cond : Expr) (thenBranch : Block) (elseBranch : Option Expr)
  | matchOn (node : Node) (scrutinee : Expr) (arms : List MatchArm)
  | block (node : Node) (body : Block)
  | lambda (node : Node) (params : List LambdaParam) (isAsync : Bool) (body : Block)
  | whileLoop (node : Node) (cond : Expr) (body : Block)
  | forLoop (node : Node) (pattern : Pattern) (iterable : Expr) (body : Block)
  | breakLoop (node : Node)
  | continueLoop (node : Node)
  | ret (node : Node) (value : Option Expr)
  | assign (node : Node) (target value : Expr)
  | arrayLit (node : Node) (elements : List Expr)
  | tupleLit (node : Node) (elements : List Expr)
  | structLit (node : Node) (name : String) (fields : List FieldInit)
  | tryCatch (node : Node) (body : Block) (catches : List CatchClause) (cleanup : Option Block)
  | throw (node : Node) (value : Expr)
  | await (node : Node) (value : Expr)
  /-- Bindings that are computed at the same time; they stay visible to the statements that follow
  in the enclosing block. -/
  | concurrent (node : Node) (bindings : List ConcurrentBinding)
  | race (node : Node) (body : Block)
  | timeout (node : Node) (duration : Expr) (body : Block)

/-- Statements with an expression at the end. -/
structure Block where
  /-- The identity and place. -/
  node : Node
  /-- The statements. -/
  stmts : List Stmt
  /-- The expression at the end. -/
  result : Option Expr

/-- A statement. -/
inductive Stmt where
  | letBind (node : Node) (pattern : Pattern) (ty : Option TypeExpr) (isMutable : Bool)
      (value : Expr)
  | expr (node : Node) (value : Expr)

/-- An arm of a match. -/
structure MatchArm where
  /-- The identity and place. -/
  node : Node
  /-- The pattern that a value must match. -/
  pattern : Pattern
  /-- The condition that must hold as well. -/
  guard : Option Expr
  /-- The value of the arm. -/
  body : Expr

/-- A handler of exceptions. -/
structure CatchClause where
  /-- The identity and place. -/
  node : Node
  /-- The name of the exception. -/
  name : String
  /-- The written type of the exception. -/
  ty : Option TypeExpr
  /-- What to do. -/
  body : Block

/-- A field with its value in a struct literal. -/
structure FieldInit where
  /-- The place. -/
  span : Span
  /-- The name of the field. -/
  name : String
  /-- Its value. -/
  value : Expr

/-- A name with its value in a `concurrent` block. -/
structure ConcurrentBinding where
  /-- The identity and place. -/
  node : Node
  /-- The name. -/
  name : String
  /-- Its value. -/
  value : Expr

end

namespace Expr

/-- The identity and place of an expression. -/
def node : Expr → Node
  | literal node _ => node
  | ident node _ => node
  | binary node _ _ _ => node
  | unary node _ _ => node
  | call node _ _ => node
  | methodCall node _ _ _ _ => node
  | fieldAccess node _ _ => node
  | index node _ _ => node
  | ifElse node _ _ _ => node
  | matchOn node _ _ => node
  | block node _ => node
  | lambda node _ _ _ => node
  | whileLoop node _ _ => node
  | forLoop node _ _ _ => node
  | breakLoop node => node
  | continueLoop node => node
  | ret node _ => node
  | assign node _ _ => node
  | arrayLit node _ => node
  | tupleLit node _ => node
  | structLit node _ _ => node
  | tryCatch node _ _ _ => node
  | throw node _ => node
  | await node _ => node
  | concurrent node _ => node
  | race node _ => node
  | timeout node _ _ => node

/-- The identity of an expression. -/
def id (e : Expr) : NodeId :=
  e.node.id

/-- The place of an expression. -/
def span (e : Expr) : Span :=
  e.node.span

instance : Inhabited Expr := ⟨breakLoop ⟨⟨0⟩, {}⟩⟩

end Expr

/-- The identity and place of a statement. -/
def Stmt.node : Stmt → Node
  | letBind node _ _ _ _ => node
  | expr node _ => node

/-- The identity of a block. -/
def Block.id (b : Block) : NodeId :=
  b.node.id

/-- The place of a block. -/
def Block.span (b : Block) : Span :=
  b.node.span

instance : Inhabited Block := ⟨⟨⟨⟨0⟩, {}⟩, [], none⟩⟩

end UnitAnalysis

import UnitAnalysis.Syntax.Decl

/-!
# Trees with finite doubles

Whether every double among the literals of a tree is a finite number. Such doubles only can be
written as numbers in a document.
-/

set_option autoImplicit false

namespace UnitAnalysis

/-- Whether a literal is no double, or a finite one. -/
def Literal.isFinite : Literal → Bool
  | float x => x.isFinite
  | _ => true

mutual

/-- Whether all doubles of a pattern are finite. -/
def Pattern.isFinite : Pattern → Bool
  | .literal _ value => value.isFinite
  | .tuple _ elements => Pattern.allFinite elements
  | .array _ elements _ => Pattern.allFinite elements
  | .struct _ _ fields => FieldPattern.allFinite fields
  | .tupleStruct _ _ elements => Pattern.allFinite elements
  | .either _ left right => left.isFinite && right.isFinite
  | .range _ first last _ => first.isFinite && last.isFinite
  | _ => true

/-- Whether all doubles of several patterns are finite. -/
def Pattern.allFinite : List Pattern → Bool
  | [] => true
  | p :: ps => p.isFinite && Pattern.allFinite ps

/-- Whether all doubles of field patterns are finite. -/
def FieldPattern.allFinite : List FieldPattern → Bool
  | [] => true
  | .shorthand _ :: fields => FieldPattern.allFinite fields
  | .nested _ p :: fields => p.isFinite && FieldPattern.allFinite fields

end

mutual

/-- Whether all doubles of an expression are finite. -/
def Expr.isFinite : Expr → Bool
  | .literal _ value => value.isFinite
  | .binary _ _ left right => left.isFinite && right.isFinite
  | .unary _ _ operand => operand.isFinite
  | .call _ callee args => callee.isFinite && Expr.allFinite args
  | .methodCall _ receiver _ _ args => receiver.isFinite && Expr.allFinite args
  | .fieldAccess _ object _ => object.isFinite
  | .index _ object position => object.isFinite && position.isFinite
  | .ifElse _ cond thenBranch elseBranch =>
    cond.isFinite && thenBranch.isFinite && Expr.isFiniteOption elseBranch
  | .matchOn _ scrutinee arms => scrutinee.isFinite && Expr.armsFinite arms
  | .block _ body => body.isFinite
  | .lambda _ _ _ body => body.isFinite
  | .whileLoop _ cond body => cond.isFinite && body.isFinite
  | .forLoop _ pattern iterable body => pattern.isFinite && iterable.isFinite && body.isFinite
  | .ret _ value => Expr.isFiniteOption value
  | .assign _ target value => target.isFinite && value.isFinite
  | .arrayLit _ elements => Expr.allFinite elements
  | .tupleLit _ elements => Expr.allFinite elements
  | .structLit _ _ fields => Expr.initsFinite fields
  | .tryCatch _ body catches cleanup =>
    body.isFinite && Expr.catchesFinite catches && Block.isFiniteOption cleanup
  | .throw _ value => value.isFinite
  | .await _ value => value.isFinite
  | .concurrent _ bindings => Expr.bindingsFinite bindings
  | .race _ body => body.isFinite
  | .timeout _ duration body => duration.isFinite && body.isFinite
  | _ => true

/-- Whether all doubles of an expression are finite, if there is one. -/
def Expr.isFiniteOption : Option Expr → Bool
  | none => true
  | some e => e.isFinite

/-- Whether all doubles of several expressions are finite. -/
def Expr.allFinite : List Expr → Bool
  | [] => true
  | e :: es => e.isFinite && Expr.allFinite es

/-- Whether all doubles of match arms are finite. -/
def Expr.armsFinite : List MatchArm → Bool
  | [] => true
  | arm :: arms => arm.isFinite && Expr.armsFinite arms

/-- Whether all doubles among the fields of a struct literal are finite. -/
def Expr.initsFinite : List FieldInit → Bool
  | [] => true
  | ⟨_, _, value⟩ :: fields => value.isFinite && Expr.initsFinite fields

/-- Whether all doubles of handlers are finite. -/
def Expr.catchesFinite : List CatchClause → Bool
  | [] => true
  | ⟨_, _, _, body⟩ :: catches => body.isFinite && Expr.catchesFinite catches

/-- Whether all doubles of concurrent bindings are finite. -/
def Expr.bindingsFinite : List ConcurrentBinding → Bool
  | [] => true
  | ⟨_, _, value⟩ :: bindings => value.isFinite && Expr.bindingsFinite bindings

/-- Whether all doubles of a match arm are finite. -/
def MatchArm.isFinite : MatchArm → Bool
  | ⟨_, pattern, guard, body⟩ =>
    pattern.isFinite && Expr.isFiniteOption guard && body.isFinite

/-- Whether all doubles of a block are finite. -/
def Block.isFinite : Block → Bool
  | ⟨_, stmts, result⟩ => Stmt.allFinite stmts && Expr.isFiniteOption result

/-- Whether all doubles of a block are finite, if there is one. -/
def Block.isFiniteOption : Option Block → Bool
  | none => true
  | some b => b.isFinite

/-- Whether all doubles of a statement are finite. -/
def Stmt.isFinite : Stmt → Bool
  | .letBind _ pattern _ _ value => pattern.isFinite && value.isFinite
  | .expr _ value => value.isFinite

/-- Whether all doubles of several statements are finite. -/
def Stmt.allFinite : List Stmt → Bool
  | [] => true
  | s :: ss => s.isFinite && Stmt.allFinite ss

end

/-- Whether all doubles in the first value of a field are finite. -/
def FieldDecl.isFinite (f : FieldDecl) : Bool :=
  Expr.isFiniteOption f.initializer

/-- Whether all doubles of a declaration are finite. -/
def Decl.isFinite : Decl → Bool
  | function d => d.body.isFinite
  | classLike d => d.fields.all FieldDecl.isFinite && d.methods.all fun m => m.body.isFinite
  | struct d => d.fields.all FieldDecl.isFinite
  | spark d => d.fields.all FieldDecl.isFinite
  | data d => d.variants.all fun v => v.fields.all FieldDecl.isFinite
  | trait _ => true
  | interface _ => true
  | impl d => d.methods.all fun m => m.body.isFinite
  | script s => s.isFinite

/-- Whether all doubles of a unit are finite. -/
def SourceUnit.isFinite (u : SourceUnit) : Bool :=
  u.decls.all Decl.isFinite

end UnitAnalysis

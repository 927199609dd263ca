import UnitAnalysis.Json.Basic
import UnitAnalysis.Syntax.Decl

/-!
# Writing syntax trees

The JSON form of units and all their parts. Every field is written, also one that has its default,
and what is absent is written as `null`; so the form says all that there is to say about a tree, and
the readers take it back.
-/

set_option autoImplicit false

namespace UnitAnalysis

/-- The JSON form of an unsigned 64-bit number. -/
def UInt64.toJson (n : UInt64) : Json :=
  .int n.toNat

/-- The JSON form of a double. One that is not finite has none. -/
def Float.toJson (x : Float) : Json :=
  if x.isFinite then .float x else .null

/-- The JSON form of something that may be absent. -/
def Option.toJson {α : Type} (write : α → Json) : Option α → Json
  | some a => write a
  | none => .null

/-- The JSON form of a place. -/
def Span.toJson (s : Span) : Json :=
  .obj [("file", .str s.file), ("start", UInt64.toJson s.start), ("end", UInt64.toJson s.stop),
    ("line", UInt64.toJson s.line), ("col", UInt64.toJson s.col)]

/-- The fields of an identity and a place. -/
def Node.fields (n : Node) : List (String × Json) :=
  [("id", UInt64.toJson n.id.val), ("span", n.span.toJson)]

mutual

/-- The JSON form of a written type. -/
def TypeExpr.toJson : TypeExpr → Json
  | .named span name args =>
    .obj [("type", .str "Named"), ("span", span.toJson), ("name", .str name),
      ("args", .arr (TypeExpr.toJsonAll args))]
  | .optional span inner =>
    .obj [("type", .str "Optional"), ("span", span.toJson), ("inner", inner.toJson)]
  | .array span element =>
    .obj [("type", .str "Array"), ("span", span.toJson), ("element", element.toJson)]
  | .tuple span elements =>
    .obj [("type", .str "Tuple"), ("span", span.toJson),
      ("elements", .arr (TypeExpr.toJsonAll elements))]
  | .function span params ret =>
    .obj [("type", .str "Function"), ("span", span.toJson),
      ("params", .arr (TypeExpr.toJsonAll params)), ("ret", ret.toJson)]

/-- The JSON forms of several written types. -/
def TypeExpr.toJsonAll : List TypeExpr → List Json
  | [] => []
  | t :: ts => t.toJson :: TypeExpr.toJsonAll ts

end

/-- The JSON form of a type parameter. -/
def TypeParam.toJson (p : TypeParam) : Json :=
  .obj [("name", .str p.name), ("bounds", .arr (p.bounds.map .str))]

/-- The JSON form of a literal. -/
def Literal.toJson : Literal → Json
  | int n => .obj [("Int", .int n.toInt)]
  | float x => .obj [("Float", Float.toJson x)]
  | string s => .obj [("String", .str s)]
  | char c => .obj [("Char", .str (String.singleton c))]
  | bool b => .obj [("Bool", .bool b)]
  | none => .str "None"

mutual

/-- The JSON form of a pattern. -/
def Pattern.toJson : Pattern → Json
  | .bare node name => .obj (("kind", .str "Variable") :: node.fields ++ [("name", .str name)])
  | .typed node name ty =>
    .obj (("kind", .str "Typed") :: node.fields ++ [("name", .str name), ("ty", ty.toJson)])
  | .literal node value =>
    .obj (("kind", .str "Literal") :: node.fields ++ [("value", value.toJson)])
  | .wildcard node => .obj (("kind", .str "Wildcard") :: node.fields)
  | .tuple node elements =>
    .obj (("kind", .str "Tuple") :: node.fields
      ++ [("elements", .arr (Pattern.toJsonAll elements))])
  | .array node elements rest =>
    .obj (("kind", .str "Array") :: node.fields
      ++ [("elements", .arr (Pattern.toJsonAll elements)), ("rest", Option.toJson .str rest)])
  | .struct node name fields =>
    .obj (("kind", .str "Struct") :: node.fields
      ++ [("name", .str name), ("fields", .arr (Pattern.fieldsToJson fields))])
  | .tupleStruct node name elements =>
    .obj (("kind", .str "TupleStruct") :: node.fields
      ++ [("name", .str name), ("elements", .arr (Pattern.toJsonAll elements))])
  | .either node left right =>
    .obj (("kind", .str "Or") :: node.fields ++ [("left", left.toJson), ("right", right.toJson)])
  | .range node first last isInclusive =>
    .obj (("kind", .str "Range") :: node.fields
      ++ [("start", first.toJson), ("end", last.toJson), ("inclusive", .bool isInclusive)])

/-- The JSON forms of several patterns. -/
def Pattern.toJsonAll : List Pattern → List Json
  | [] => []
  | p :: ps => p.toJson :: Pattern.toJsonAll ps

/-- The JSON forms of field patterns. -/
def Pattern.fieldsToJson : List FieldPattern → List Json
  | [] => []
  | .shorthand name :: fields =>
    .obj [("name", .str name), ("pattern", .null)] :: Pattern.fieldsToJson fields
  | .nested name p :: fields =>
    .obj [("name", .str name), ("pattern", p.toJson)] :: Pattern.fieldsToJson fields

end

/-- The name of an operator in a document. -/
def BinaryOp.tag : BinaryOp → String
  | add => "Add"
  | sub => "Sub"
  | mul => "Mul"
  | div => "Div"
  | mod => "Mod"
  | pow => "Pow"
  | bitAnd => "BitAnd"
  | bitOr => "BitOr"
  | bitXor => "BitXor"
  | shl => "Shl"
  | shr => "Shr"
  | eq => "Eq"
  | ne => "Ne"
  | lt => "Lt"
  | le => "Le"
  | gt => "Gt"
  | ge => "Ge"
  | and => "And"
  | or => "Or"

/-- The name of an operator in a document. -/
def UnaryOp.tag : UnaryOp → String
  | neg => "Neg"
  | not => "Not"
  | unwrap => "Unwrap"
  | forceUnwrap => "ForceUnwrap"

/-- The name of a kind of class in a document. -/
def ClassKind.tag : ClassKind → String
  | plain => "class"
  | actor => "actor"
  | exception => "exception"

/-- The JSON form of a lambda parameter. -/
def LambdaParam.toJson (p : LambdaParam) : Json :=
  .obj (p.node.fields ++ [("name", .str p.name), ("ty", Option.toJson TypeExpr.toJson p.ty)])

mutual

/-- The JSON form of an expression. -/
def Expr.toJson : Expr → Json
  | .literal node value =>
    .obj (("kind", .str "Literal") :: node.fields ++ [("value", value.toJson)])
  | .ident node name => .obj (("kind", .str "Ident") :: node.fields ++ [("name", .str name)])
  | .binary node op left right =>
    .obj (("kind", .str "Binary") :: node.fields
      ++ [("op", .str op.tag), ("left", left.toJson), ("right", right.toJson)])
  | .unary node op operand =>
    .obj (("kind", .str "Unary") :: node.fields ++ [("op", .str op.tag), ("expr", operand.toJson)])
  | .call node callee args =>
    .obj (("kind", .str "Call") :: node.fields
      ++ [("callee", callee.toJson), ("args", .arr (Expr.toJsonAll args))])
  | .methodCall node receiver qualifier method args =>
    .obj (("kind", .str "MethodCall") :: node.fields
      ++ [("receiver", receiver.toJson), ("qualifier", Option.toJson .str qualifier),
        ("method", .str method), ("args", .arr (Expr.toJsonAll args))])
  | .fieldAccess node object field =>
    .obj (("kind", .str "FieldAccess") :: node.fields
      ++ [("expr", object.toJson), ("field", .str field)])
  | .index node object position =>
    .obj (("kind", .str "Index") :: node.fields
      ++ [("expr", object.toJson), ("index", position.toJson)])
  | .ifElse node cond thenBranch elseBranch =>
    .obj (("kind", .str "If") :: node.fields
      ++ [("cond", cond.toJson), ("then_branch", thenBranch.toJson),
        ("else_branch", Expr.toJsonOption elseBranch)])
  | .matchOn node scrutinee arms =>
    .obj (("kind", .str "Match") :: node.fields
      ++ [("scrutinee", scrutinee.toJson), ("arms", .arr (Expr.armsToJson arms))])
  | .block node body => .obj (("kind", .str "Block") :: node.fields ++ [("block", body.toJson)])
  | .lambda node params isAsync body =>
    .obj (("kind", .str "Lambda") :: node.fields
      ++ [("params", .arr (params.map LambdaParam.toJson)), ("is_async", .bool isAsync),
        ("body", body.toJson)])
  | .whileLoop node cond body =>
    .obj (("kind", .str "While") :: node.fields ++ [("cond", cond.toJson), ("body", body.toJson)])
  | .forLoop node pattern iterable body =>
    .obj (("kind", .str "For") :: node.fields
      ++ [("pattern", pattern.toJson), ("iterable", iterable.toJson), ("body", body.toJson)])
  | .breakLoop node => .obj (("kind", .str "Break") :: node.fields)
  | .continueLoop node => .obj (("kind", .str "Continue") :: node.fields)
  | .ret node value =>
    .obj (("kind", .str "Return") :: node.fields ++ [("value", Expr.toJsonOption value)])
  | .assign node target value =>
    .obj (("kind", .str "Assign") :: node.fields
      ++ [("target", target.toJson), ("value", value.toJson)])
  | .arrayLit node elements =>
    .obj (("kind", .str "ArrayLit") :: node.fields
      ++ [("elements", .arr (Expr.toJsonAll elements))])
  | .tupleLit node elements =>
    .obj (("kind", .str "TupleLit") :: node.fields
      ++ [("elements", .arr (Expr.toJsonAll elements))])
  | .structLit node name fields =>
    .obj (("kind", .str "StructLit") :: node.fields
      ++ [("name", .str name), ("fields", .arr (Expr.initsToJson fields))])
  | .tryCatch node body catches cleanup =>
    .obj (("kind", .str "Try") :: node.fields
      ++ [("body", body.toJson), ("catches", .arr (Expr.catchesToJson catches)),
        ("finally", Block.toJsonOption cleanup)])
  | .throw node value => .obj (("kind", .str "Throw") :: node.fields ++ [("expr", value.toJson)])
  | .await node value => .obj (("kind", .str "Await") :: node.fields ++ [("expr", value.toJson)])
  | .concurrent node bindings =>
    .obj (("kind", .str "Concurrent") :: node.fields
      ++ [("bindings", .arr (Expr.bindingsToJson bindings))])
  | .race node body => .obj (("kind", .str "Race") :: node.fields ++ [("body", body.toJson)])
  | .timeout node duration body =>
    .obj (("kind", .str "Timeout") :: node.fields
      ++ [("duration", duration.toJson), ("body", body.toJson)])

/-- The JSON form of an expression that may be absent. -/
def Expr.toJsonOption : Option Expr → Json
  | none => .null
  | some e => e.toJson

/-- The JSON forms of several expressions. -/
def Expr.toJsonAll : List Expr → List Json
  | [] => []
  | e :: es => e.toJson :: Expr.toJsonAll es

/-- The JSON forms of match arms. -/
def Expr.armsToJson : List MatchArm → List Json
  | [] => []
  | arm :: arms => arm.toJson :: Expr.armsToJson arms

/-- The JSON forms of the fields of a struct literal. -/
def Expr.initsToJson : List FieldInit → List Json
  | [] => []
  | ⟨span, name, value⟩ :: fields =>
    .obj [("span", span.toJson), ("name", .str name), ("value", value.toJson)]
      :: Expr.initsToJson fields

/-- The JSON forms of handlers. -/
def Expr.catchesToJson : List CatchClause → List Json
  | [] => []
  | ⟨node, name, ty, body⟩ :: catches =>
    .obj (node.fields ++ [("name", .str name), ("ty", Option.toJson TypeExpr.toJson ty),
        ("body", body.toJson)]) :: Expr.catchesToJson catches

/-- The JSON forms of concurrent bindings. -/
def Expr.bindingsToJson : List ConcurrentBinding → List Json
  | [] => []
  | ⟨node, name, value⟩ :: bindings =>
    .obj (node.fields ++ [("name", .str name), ("value", value.toJson)])
      :: Expr.bindingsToJson bindings

/-- The JSON form of a match arm. -/
def MatchArm.toJson : MatchArm → Json
  | ⟨node, pattern, guard, body⟩ =>
    .obj (node.fields ++ [("pattern", pattern.toJson), ("guard", Expr.toJsonOption guard),
      ("body", body.toJson)])

/-- The JSON form of a block. -/
def Block.toJson : Block → Json
  | ⟨node, stmts, result⟩ =>
    .obj (node.fields ++ [("stmts", .arr (Stmt.toJsonAll stmts)),
      ("expr", Expr.toJsonOption result)])

/-- The JSON form of a block that may be absent. -/
def Block.toJsonOption : Option Block → Json
  | none => .null
  | some b => b.toJson

/-- The JSON form of a statement. -/
def Stmt.toJson : Stmt → Json
  | .letBind node pattern ty isMutable value =>
    .obj (("type", .str "Let") :: node.fields
      ++ [("pattern", pattern.toJson), ("ty", Option.toJson TypeExpr.toJson ty),
        ("mutable", .bool isMutable), ("value", value.toJson)])
  | .expr node value => .obj (("type", .str "Expr") :: node.fields ++ [("expr", value.toJson)])

/-- The JSON forms of several statements. -/
def Stmt.toJsonAll : List Stmt → List Json
  | [] => []
  | s :: ss => s.toJson :: Stmt.toJsonAll ss

end

/-- The JSON form of a parameter. -/
def Param.toJson (p : Param) : Json :=
  .obj (p.node.fields ++ [("name", .str p.name), ("ty", p.ty.toJson),
    ("mutable", .bool p.isMutable)])

/-- The fields of a function. -/
def FunctionDecl.jsonFields (f : FunctionDecl) : List (String × Json) :=
  f.node.fields ++ [("name", .str f.name),
    ("type_params", .arr (f.typeParams.map TypeParam.toJson)),
    ("params", .arr (f.params.map Param.toJson)),
    ("return_type", Option.toJson TypeExpr.toJson f.returnType), ("is_async", .bool f.isAsync),
    ("body", f.body.toJson)]

/-- The JSON form of a declared field. -/
def FieldDecl.toJson (f : FieldDecl) : Json :=
  .obj (f.node.fields ++ [("name", .str f.name), ("ty", f.ty.toJson),
    ("mutable", .bool f.isMutable), ("initializer", Expr.toJsonOption f.initializer)])

/-- The fields of a class. -/
def ClassDecl.jsonFields (c : ClassDecl) : List (String × Json) :=
  c.node.fields ++ [("kind", .str c.kind.tag), ("name", .str c.name),
    ("type_params", .arr (c.typeParams.map TypeParam.toJson)),
    ("fields", .arr (c.fields.map FieldDecl.toJson)),
    ("methods", .arr (c.methods.map fun m => .obj m.jsonFields))]

/-- The fields of a struct. -/
def StructDecl.jsonFields (s : StructDecl) : List (String × Json) :=
  s.node.fields ++ [("name", .str s.name),
    ("type_params", .arr (s.typeParams.map TypeParam.toJson)),
    ("fields", .arr (s.fields.map FieldDecl.toJson))]

/-- The JSON form of a variant. -/
def VariantDecl.toJson (v : VariantDecl) : Json :=
  .obj (v.node.fields ++ [("name", .str v.name), ("fields", .arr (v.fields.map FieldDecl.toJson))])

/-- The fields of a data type. -/
def DataDecl.jsonFields (d : DataDecl) : List (String × Json) :=
  d.node.fields ++ [("name", .str d.name),
    ("type_params", .arr (d.typeParams.map TypeParam.toJson)),
    ("variants", .arr (d.variants.map VariantDecl.toJson))]

/-- The JSON form of a method that a trait asks for. -/
def MethodSig.toJson (m : MethodSig) : Json :=
  .obj (m.node.fields ++ [("name", .str m.name),
    ("type_params", .arr (m.typeParams.map TypeParam.toJson)),
    ("params", .arr (m.params.map Param.toJson)),
    ("return_type", Option.toJson TypeExpr.toJson m.returnType), ("is_async", .bool m.isAsync)])

/-- The fields of a trait. -/
def TraitDecl.jsonFields (t : TraitDecl) : List (String × Json) :=
  t.node.fields ++ [("name", .str t.name),
    ("type_params", .arr (t.typeParams.map TypeParam.toJson)),
    ("methods", .arr (t.methods.map MethodSig.toJson))]

/-- The fields of an implementation. -/
def ImplDecl.jsonFields (i : ImplDecl) : List (String × Json) :=
  i.node.fields ++ [("trait_name", Option.toJson .str i.traitName),
    ("trait_args", .arr (TypeExpr.toJsonAll i.traitArgs)),
    ("type_params", .arr (i.typeParams.map TypeParam.toJson)), ("target", i.target.toJson),
    ("methods", .arr (i.methods.map fun m => .obj m.jsonFields))]

/-- The JSON form of a declaration. -/
def Decl.toJson : Decl → Json
  | function d => .obj (("type", .str "Function") :: d.jsonFields)
  | classLike d => .obj (("type", .str "Class") :: d.jsonFields)
  | struct d => .obj (("type", .str "Struct") :: d.jsonFields)
  | spark d => .obj (("type", .str "Spark") :: d.jsonFields)
  | data d => .obj (("type", .str "Data") :: d.jsonFields)
  | trait d => .obj (("type", .str "Trait") :: d.jsonFields)
  | interface d => .obj (("type", .str "Interface") :: d.jsonFields)
  | impl d => .obj (("type", .str "Impl") :: d.jsonFields)
  | script s => s.toJson

/-- The JSON form of a unit. -/
def SourceUnit.toJson (u : SourceUnit) : Json :=
  .obj (u.node.fields ++ [("name", .str u.name), ("decls", .arr (u.decls.map Decl.toJson))])

end UnitAnalysis

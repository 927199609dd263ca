import Mathlib.Logic.Function.Basic
import UnitAnalysis.Syntax.Decl

/-!
# Renaming nodes

`rename f` gives every node of a tree a new identity and leaves all else as it is: the places, the
names and the shape. Nothing says that the old identities are distinct; two nodes that share one
share the new one.
-/

set_option autoImplicit false

namespace UnitAnalysis

/-- The node under its new identity, at its old place. -/
def Node.rename (f : NodeId → NodeId) (n : Node) : Node :=
  { n with id := f n.id }

section

variable (f : NodeId → NodeId)

/-! ## Patterns -/

mutual

/-- Renames the nodes of a pattern. -/
def Pattern.rename : Pattern → Pattern
  | .bare node name => .bare (node.rename f) name
  | .typed node name ty => .typed (node.rename f) name ty
  | .literal node value => .literal (node.rename f) value
  | .wildcard node => .wildcard (node.rename f)
  | .tuple node elements => .tuple (node.rename f) (Pattern.renameAll elements)
  | .array node elements rest => .array (node.rename f) (Pattern.renameAll elements) rest
  | .struct node name fields => .struct (node.rename f) name (FieldPattern.renameAll fields)
  | .tupleStruct node name elements =>
    .tupleStruct (node.rename f) name (Pattern.renameAll elements)
  | .either node left right => .either (node.rename f) left.rename right.rename
  | .range node first last isInclusive => .range (node.rename f) first last isInclusive

/-- Renames the nodes of several patterns. -/
def Pattern.renameAll : List Pattern → List Pattern
  | [] => []
  | p :: ps => p.rename :: Pattern.renameAll ps

/-- Renames the nodes in the fields of a struct pattern. -/
def FieldPattern.renameAll : List FieldPattern → List FieldPattern
  | [] => []
  | .shorthand name :: fields => .shorthand name :: FieldPattern.renameAll fields
  | .nested name p :: fields => .nested name p.rename :: FieldPattern.renameAll fields

end

/-! ## Bodies -/

/-- Renames the node of a parameter of a lambda. -/
def LambdaParam.rename (p : LambdaParam) : LambdaParam :=
  { p with node := p.node.rename f }

mutual

/-- Renames the nodes of an expression. -/
def Expr.rename : Expr → Expr
  | .literal node value => .literal (node.rename f) value
  | .ident node name => .ident (node.rename f) name
  | .binary node op left right => .binary (node.rename f) op left.rename right.rename
  | .unary node op operand => .unary (node.rename f) op operand.rename
  | .call node callee args => .call (node.rename f) callee.rename (Expr.renameAll args)
  | .methodCall node receiver qualifier method args =>
    .methodCall (node.rename f) receiver.rename qualifier method (Expr.renameAll args)
  | .fieldAccess node object field => .fieldAccess (node.rename f) object.rename field
  | .index node object position => .index (node.rename f) object.rename position.rename
  | .ifElse node cond thenBranch none =>
    .ifElse (node.rename f) cond.rename thenBranch.rename none
  | .ifElse node cond thenBranch (some other) =>
    .ifElse (node.rename f) cond.rename thenBranch.rename (some other.rename)
  | .matchOn node scrutinee arms =>
    .matchOn (node.rename f) scrutinee.rename (MatchArm.renameAll arms)
  | .block node body => .block (node.rename f) body.rename
  | .lambda node params isAsync body =>
    .lambda (node.rename f) (params.map (LambdaParam.rename f)) isAsync body.rename
  | .whileLoop node cond body => .whileLoop (node.rename f) cond.rename body.rename
  | .forLoop node pattern iterable body =>
    .forLoop (node.rename f) (pattern.rename f) iterable.rename body.rename
  | .breakLoop node => .breakLoop (node.rename f)
  | .continueLoop node => .continueLoop (node.rename f)
  | .ret node none => .ret (node.rename f) none
  | .ret node (some value) => .ret (node.rename f) (some value.rename)
  | .assign node target value => .assign (node.rename f) target.rename value.rename
  | .arrayLit node elements => .arrayLit (node.rename f) (Expr.renameAll elements)
  | .tupleLit node elements => .tupleLit (node.rename f) (Expr.renameAll elements)
  | .structLit node name fields => .structLit (node.rename f) name (FieldInit.renameAll fields)
  | .tryCatch node body catches none =>
    .tryCatch (node.rename f) body.rename (CatchClause.renameAll catches) none
  | .tryCatch node body catches (some cleanup) =>
    .tryCatch (node.rename f) body.rename (CatchClause.renameAll catches) (some cleanup.rename)
  | .throw node value => .throw (node.rename f) value.rename
  | .await node value => .await (node.rename f) value.rename
  | .concurrent node bindings =>
    .concurrent (node.rename f) (ConcurrentBinding.renameAll bindings)
  | .race node body => .race (node.rename f) body.rename
  | .timeout node duration body => .timeout (node.rename f) duration.rename body.rename

/-- Renames the nodes of several expressions. -/
def Expr.renameAll : List Expr → List Expr
  | [] => []
  | e :: es => e.rename :: Expr.renameAll es

/-- Renames the nodes of the values of a struct literal. -/
def FieldInit.renameAll : List FieldInit → List FieldInit
  | [] => []
  | ⟨span, name, value⟩ :: fields => ⟨span, name, value.rename⟩ :: FieldInit.renameAll fields

/-- Renames the nodes of a `concurrent` block. -/
def ConcurrentBinding.renameAll : List ConcurrentBinding → List ConcurrentBinding
  | [] => []
  | ⟨node, name, value⟩ :: bindings =>
    ⟨node.rename f, name, value.rename⟩ :: ConcurrentBinding.renameAll bindings

/-- Renames the nodes of match arms. -/
def MatchArm.renameAll : List MatchArm → List MatchArm
  | [] => []
  | ⟨node, pattern, none, body⟩ :: arms =>
    ⟨node.rename f, pattern.rename f, none, body.rename⟩ :: MatchArm.renameAll arms
  | ⟨node, pattern, some guard, body⟩ :: arms =>
    ⟨node.rename f, pattern.rename f, some guard.rename, body.rename⟩ :: MatchArm.renameAll arms

/-- Renames the nodes of handlers. -/
def CatchClause.renameAll : List CatchClause → List CatchClause
  | [] => []
  | ⟨node, name, ty, body⟩ :: catches =>
    ⟨node.rename f, name, ty, body.rename⟩ :: CatchClause.renameAll catches

/-- Renames the nodes of a block. -/
def Block.rename : Block → Block
  | ⟨node, stmts, none⟩ => ⟨node.rename f, Stmt.renameAll stmts, none⟩
  | ⟨node, stmts, some result⟩ => ⟨node.rename f, Stmt.renameAll stmts, some result.rename⟩

/-- Renames the nodes of several statements. -/
def Stmt.renameAll : List Stmt → List Stmt
  | [] => []
  | .letBind node pattern ty isMutable value :: rest =>
    .letBind (node.rename f) (pattern.rename f) ty isMutable value.rename :: Stmt.renameAll rest
  | .expr node value :: rest => .expr (node.rename f) value.rename :: Stmt.renameAll rest

end

/-- Renames the nodes of a statement. -/
def Stmt.rename : Stmt → Stmt
  | .letBind node pattern ty isMutable value =>
    .letBind (node.rename f) (pattern.rename f) ty isMutable (value.rename f)
  | .expr node value => .expr (node.rename f) (value.rename f)

/-! ## Declarations -/

/-- Renames the node of a parameter. -/
def Param.rename (p : Param) : Param :=
  { p with node := p.node.rename f }

/-- Renames the nodes of a function. -/
def FunctionDecl.rename (d : FunctionDecl) : FunctionDecl :=
  { d with
    node := d.node.rename f
    params := d.params.map (Param.rename f)
    body := d.body.rename f }

/-- Renames the nodes of a field. -/
def FieldDecl.rename (d : FieldDecl) : FieldDecl :=
  { d with
    node := d.node.rename f
    initializer := d.initializer.map (Expr.rename f) }

/-- Renames the nodes of a class. -/
def ClassDecl.rename (d : ClassDecl) : ClassDecl :=
  { d with
    node := d.node.rename f
    fields := d.fields.map (FieldDecl.rename f)
    methods := d.methods.map (FunctionDecl.rename f) }

/-- Renames the nodes of a struct. -/
def StructDecl.rename (d : StructDecl) : StructDecl :=
  { d with
    node := d.node.rename f
    fields := d.fields.map (FieldDecl.rename f) }

/-- Renames the node of a variant. -/
def VariantDecl.rename (d : VariantDecl) : VariantDecl :=
  { d with
    node := d.node.rename f
    fields := d.fields.map (FieldDecl.rename f) }

/-- Renames the nodes of a data type. -/
def DataDecl.rename (d : DataDecl) : DataDecl :=
  { d with
    node := d.node.rename f
    variants := d.variants.map (VariantDecl.rename f) }

/-- Renames the nodes of a method without body. -/
def MethodSig.rename (m : MethodSig) : MethodSig :=
  { m with
    node := m.node.rename f
    params := m.params.map (Param.rename f) }

/-- Renames the nodes of a trait. -/
def TraitDecl.rename (d : TraitDecl) : TraitDecl :=
  { d with
    node := d.node.rename f
    methods := d.methods.map (MethodSig.rename f) }

/-- Renames the nodes of an implementation. -/
def ImplDecl.rename (d : ImplDecl) : ImplDecl :=
  { d with
    node := d.node.rename f
    methods := d.methods.map (FunctionDecl.rename f) }

/-- Renames the nodes of a declaration. -/
def Decl.rename : Decl → Decl
  | .function d => .function (d.rename f)
  | .classLike d => .classLike (d.rename f)
  | .struct d => .struct (d.rename f)
  | .spark d => .spark (d.rename f)
  | .data d => .data (d.rename f)
  | .trait d => .trait (d.rename f)
  | .interface d => .interface (d.rename f)
  | .impl d => .impl (d.rename f)
  | .script s => .script (s.rename f)

/-- Renames the nodes of a unit. -/
def SourceUnit.rename (u : SourceUnit) : SourceUnit :=
  { u with
    node := u.node.rename f
    decls := u.decls.map (Decl.rename f) }

/-! ## What stays -/

@[simp] theorem Expr.node_rename (e : Expr) : (e.rename f).node = e.node.rename f := by
  cases e with
  | ifElse _ _ _ other => cases other <;> rfl
  | ret _ value => cases value <;> rfl
  | tryCatch _ _ _ cleanup => cases cleanup <;> rfl
  | _ => rfl

@[simp] theorem Expr.id_rename (e : Expr) : (e.rename f).id = f e.id := by
  simp [Expr.id, Node.rename]

@[simp] theorem Expr.span_rename (e : Expr) : (e.rename f).span = e.span := by
  simp [Expr.span, Node.rename]

@[simp] theorem Block.id_rename (b : Block) : (b.rename f).id = f b.id := by
  obtain ⟨node, stmts, result⟩ := b
  cases result <;> rfl

end

/-! ## Renaming to the same -/

@[simp] theorem renameNode_id (n : Node) : n.rename id = n := rfl

mutual

/-- A pattern with its own identities. -/
theorem Pattern.rename_id (p : Pattern) : p.rename id = p := by
  match p with
  | .bare _ _ | .typed _ _ _ | .literal _ _ | .wildcard _ | .range _ _ _ _ => rfl
  | .tuple _ elements | .array _ elements _ | .tupleStruct _ _ elements =>
    simp [Pattern.rename, Pattern.renameAll_id elements]
  | .struct _ _ fields => simp [Pattern.rename, FieldPattern.renameAll_id fields]
  | .either _ left right => simp [Pattern.rename, left.rename_id, right.rename_id]

/-- Patterns with their own identities. -/
theorem Pattern.renameAll_id (ps : List Pattern) : Pattern.renameAll id ps = ps := by
  match ps with
  | [] => rfl
  | p :: ps => simp [Pattern.renameAll, p.rename_id, Pattern.renameAll_id ps]

/-- Fields of a pattern with their own identities. -/
theorem FieldPattern.renameAll_id (fields : List FieldPattern) :
    FieldPattern.renameAll id fields = fields := by
  match fields with
  | [] => rfl
  | .shorthand _ :: fields => simp [FieldPattern.renameAll, FieldPattern.renameAll_id fields]
  | .nested _ p :: fields =>
    simp [FieldPattern.renameAll, p.rename_id, FieldPattern.renameAll_id fields]

end

/-- A parameter of a lambda with its own identity. -/
theorem LambdaParam.rename_id : LambdaParam.rename id = id := rfl

mutual

/-- An expression with its own identities. -/
theorem Expr.rename_id (e : Expr) : e.rename id = e := by
  match e with
  | .literal _ _ | .ident _ _ | .breakLoop _ | .continueLoop _ | .ret _ none => rfl
  | .unary _ _ e | .fieldAccess _ e _ | .ret _ (some e) | .throw _ e | .await _ e =>
    simp [Expr.rename, e.rename_id]
  | .binary _ _ left right | .index _ left right | .assign _ left right =>
    simp [Expr.rename, left.rename_id, right.rename_id]
  | .call _ e args | .methodCall _ e _ _ args =>
    simp [Expr.rename, e.rename_id, Expr.renameAll_id args]
  | .ifElse _ cond thenBranch (some other) =>
    simp [Expr.rename, cond.rename_id, thenBranch.rename_id, other.rename_id]
  | .matchOn _ scrutinee arms => simp [Expr.rename, scrutinee.rename_id, MatchArm.renameAll_id arms]
  | .block _ body | .race _ body => simp [Expr.rename, body.rename_id]
  | .lambda _ _ _ body => simp [Expr.rename, LambdaParam.rename_id, body.rename_id]
  | .whileLoop _ e body | .timeout _ e body | .ifElse _ e body none =>
    simp [Expr.rename, e.rename_id, body.rename_id]
  | .forLoop _ pattern iterable body =>
    simp [Expr.rename, pattern.rename_id, iterable.rename_id, body.rename_id]
  | .arrayLit _ elements | .tupleLit _ elements => simp [Expr.rename, Expr.renameAll_id elements]
  | .structLit _ _ fields => simp [Expr.rename, FieldInit.renameAll_id fields]
  | .tryCatch _ body catches none =>
    simp [Expr.rename, body.rename_id, CatchClause.renameAll_id catches]
  | .tryCatch _ body catches (some cleanup) =>
    simp [Expr.rename, body.rename_id, CatchClause.renameAll_id catches, cleanup.rename_id]
  | .concurrent _ bindings => simp [Expr.rename, ConcurrentBinding.renameAll_id bindings]

/-- Expressions with their own identities. -/
theorem Expr.renameAll_id (es : List Expr) : Expr.renameAll id es = es := by
  match es with
  | [] => rfl
  | e :: es => simp [Expr.renameAll, e.rename_id, Expr.renameAll_id es]

/-- Values of a struct literal with their own identities. -/
theorem FieldInit.renameAll_id (fields : List FieldInit) :
    FieldInit.renameAll id fields = fields := by
  match fields with
  | [] => rfl
  | ⟨_, _, value⟩ :: fields =>
    simp [FieldInit.renameAll, value.rename_id, FieldInit.renameAll_id fields]

/-- A `concurrent` block with its own identities. -/
theorem ConcurrentBinding.renameAll_id (bindings : List ConcurrentBinding) :
    ConcurrentBinding.renameAll id bindings = bindings := by
  match bindings with
  | [] => rfl
  | ⟨_, _, value⟩ :: bindings =>
    simp [ConcurrentBinding.renameAll, value.rename_id, ConcurrentBinding.renameAll_id bindings]

/-- Match arms with their own identities. -/
theorem MatchArm.renameAll_id (arms : List MatchArm) : MatchArm.renameAll id arms = arms := by
  match arms with
  | [] => rfl
  | ⟨_, pattern, none, body⟩ :: arms =>
    simp [MatchArm.renameAll, pattern.rename_id, body.rename_id, MatchArm.renameAll_id arms]
  | ⟨_, pattern, some guard, body⟩ :: arms =>
    simp [MatchArm.renameAll, pattern.rename_id, guard.rename_id, body.rename_id,
      MatchArm.renameAll_id arms]

/-- Handlers with their own identities. -/
theorem CatchClause.renameAll_id (catches : List CatchClause) :
    CatchClause.renameAll id catches = catches := by
  match catches with
  | [] => rfl
  | ⟨_, _, _, body⟩ :: catches =>
    simp [CatchClause.renameAll, body.rename_id, CatchClause.renameAll_id catches]

/-- A block with its own identities. -/
theorem Block.rename_id (b : Block) : b.rename id = b := by
  match b with
  | ⟨_, stmts, none⟩ => simp [Block.rename, Stmt.renameAll_id stmts]
  | ⟨_, stmts, some result⟩ => simp [Block.rename, Stmt.renameAll_id stmts, result.rename_id]

/-- Statements with their own identities. -/
theorem Stmt.renameAll_id (stmts : List Stmt) : Stmt.renameAll id stmts = stmts := by
  match stmts with
  | [] => rfl
  | .letBind _ pattern _ _ value :: rest =>
    simp [Stmt.renameAll, pattern.rename_id, value.rename_id, Stmt.renameAll_id rest]
  | .expr _ value :: rest => simp [Stmt.renameAll, value.rename_id, Stmt.renameAll_id rest]

end

/-- A statement with its own identities. -/
theorem Stmt.rename_id (s : Stmt) : s.rename id = s := by
  cases s <;> simp [Stmt.rename, Pattern.rename_id, Expr.rename_id]

/-- A function with its own identities. -/
theorem FunctionDecl.rename_id : FunctionDecl.rename id = id := by
  funext d
  have hparams : d.params.map (Param.rename id) = d.params := List.map_id _
  simp [FunctionDecl.rename, hparams, Block.rename_id]

/-- A field with its own identities. -/
theorem FieldDecl.rename_id : FieldDecl.rename id = id := by
  funext d
  simp [FieldDecl.rename, funext Expr.rename_id]

/-- A variant with its own identity. -/
theorem VariantDecl.rename_id : VariantDecl.rename id = id := by
  funext d
  simp [VariantDecl.rename, FieldDecl.rename_id]

/-- A method without body with its own identities. -/
theorem MethodSig.rename_id : MethodSig.rename id = id := by
  funext m
  have hparams : m.params.map (Param.rename id) = m.params := List.map_id _
  simp [MethodSig.rename, hparams]

/-- A declaration with its own identities. -/
theorem Decl.rename_id : Decl.rename id = id := by
  funext d
  cases d <;> simp [Decl.rename, FunctionDecl.rename_id, ClassDecl.rename, StructDecl.rename,
    DataDecl.rename, TraitDecl.rename, ImplDecl.rename, FieldDecl.rename_id, VariantDecl.rename_id,
    MethodSig.rename_id, Stmt.rename_id]

/-- A unit with its own identities stays what it is. -/
theorem SourceUnit.rename_id (u : SourceUnit) : u.rename id = u := by
  simp [SourceUnit.rename, Decl.rename_id]

end UnitAnalysis

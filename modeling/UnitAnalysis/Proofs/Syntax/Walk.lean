import UnitAnalysis.Scope
import UnitAnalysis.Syntax.Decl

/-!
# The places of a unit

Every expression, block and pattern of a unit stands in a region, and regions are made by the
constructs that open a scope. `SourceUnit.sites` lists all of them, each with what it inherits from
the constructs around it. What is inherited is left open: `Rules` says how it changes on the way
into a construct, so that one list serves for scopes, for the names in force and for the functions
around a place.

A target that cannot be assigned to is listed too, under the rule `Rules.skip`, because the symbol
table has scopes for it. The first values of the fields of variants are not listed: nothing looks at
them.
-/

set_option autoImplicit false

namespace UnitAnalysis

/-- A construct that opens a scope. -/
inductive Opening where
  /-- A function, or a method of a class or implementation. -/
  | function (decl : FunctionDecl) (isMethod : Bool)
  | classBody (decl : ClassDecl)
  /-- A block, whose scope is that of a loop or a plain one. -/
  | block (kind : ScopeKind) (body : Block)
  /-- A `let` inside a block, with the rest of the block as its region. -/
  | letBind (node : Node) (pattern : Pattern)
  | arm (node : Node) (pattern : Pattern)
  | lambda (node : Node) (params : List LambdaParam) (isAsync : Bool)
  | forLoop (node : Node) (pattern : Pattern)
  | catchClause (node : Node) (name : String)
  /-- A `concurrent` block. As a statement it has the rest of the enclosing block as its region, and
  elsewhere its region is empty. -/
  | concurrent (node : Node) (bindings : List ConcurrentBinding)

namespace Opening

/-- The node under which the scope is remembered. -/
def id : Opening → NodeId
  | function f _ => f.node.id
  | classBody c => c.node.id
  | block _ b => b.id
  | letBind node _ => node.id
  | arm node _ => node.id
  | lambda node _ _ => node.id
  | forLoop node _ => node.id
  | catchClause node _ => node.id
  | concurrent node _ => node.id

/-- The kind of scope that is opened. -/
def kind : Opening → ScopeKind
  | function _ isMethod => if isMethod then .method else .function
  | classBody _ => .classBody
  | block kind _ => kind
  | letBind _ _ => .block
  | arm _ _ => .matchArm
  | lambda _ _ _ => .lambda
  | forLoop _ _ => .loop
  | catchClause _ _ => .catchClause
  | concurrent _ _ => .block

end Opening

/-- How a place inherits from the constructs around it. -/
structure Rules (α : Type) where
  /-- What is in force inside a construct. -/
  enter : α → Opening → α
  /-- What is in force inside a target that cannot be assigned to. -/
  skip : α → α

/-- Rules under which nothing is inherited, for a list of what there is in a body. -/
def blindRules : Rules Unit :=
  ⟨fun _ _ => (), fun _ => ()⟩

/-- What is in force after a statement. -/
def Rules.after {α : Type} (R : Rules α) (a : α) : Stmt → α
  | .letBind node pattern _ _ _ => R.enter a (.letBind node pattern)
  | .expr _ (.concurrent node bindings) => R.enter a (.concurrent node bindings)
  | .expr _ _ => a

/-- Something of a unit, with what is in force there. For a pattern that is the region that receives
its names, and for a construct that opens a scope it is the region around the construct. -/
inductive Site (α : Type) where
  | expr (place : α) (e : Expr)
  | block (place : α) (b : Block)
  | pattern (place : α) (p : Pattern)
  | opening (place : α) (o : Opening)

/-- Whether an expression can be assigned to. -/
def Expr.isTarget : Expr → Bool
  | .ident _ _ => true
  | .fieldAccess _ _ _ => true
  | .index _ _ _ => true
  | _ => false

section Walk

variable {α : Type}

mutual

/-- The sites of an expression, from left to right. -/
def Expr.sites (R : Rules α) (a : α) (e : Expr) : List (Site α) :=
  .expr a e :: match e with
    | .literal _ _ => []
    | .ident _ _ => []
    | .binary _ _ left right => left.sites R a ++ right.sites R a
    | .unary _ _ operand => operand.sites R a
    | .call _ callee args => callee.sites R a ++ Expr.sitesAll R a args
    | .methodCall _ receiver _ _ args => receiver.sites R a ++ Expr.sitesAll R a args
    | .fieldAccess _ object _ => object.sites R a
    | .index _ object position => object.sites R a ++ position.sites R a
    | .ifElse _ cond thenBranch none => cond.sites R a ++ thenBranch.sites R .block a
    | .ifElse _ cond thenBranch (some other) =>
      cond.sites R a ++ (thenBranch.sites R .block a ++ other.sites R a)
    | .matchOn _ scrutinee arms => scrutinee.sites R a ++ MatchArm.sitesAll R a arms
    | .block _ body => body.sites R .block a
    | .lambda node params isAsync body =>
      .opening a (.lambda node params isAsync) ::
        body.sites R .block (R.enter a (.lambda node params isAsync))
    | .whileLoop _ cond body => cond.sites R a ++ body.sites R .loop a
    | .forLoop node pattern iterable body =>
      iterable.sites R a ++ .opening a (.forLoop node pattern) ::
        .pattern (R.enter a (.forLoop node pattern)) pattern ::
        body.sites R .block (R.enter a (.forLoop node pattern))
    | .breakLoop _ => []
    | .continueLoop _ => []
    | .ret _ none => []
    | .ret _ (some value) => value.sites R a
    | .assign _ target value =>
      target.sites R (if target.isTarget then a else R.skip a) ++ value.sites R a
    | .arrayLit _ elements => Expr.sitesAll R a elements
    | .tupleLit _ elements => Expr.sitesAll R a elements
    | .structLit _ _ fields => FieldInit.sitesAll R a fields
    | .tryCatch _ body catches none => body.sites R .block a ++ CatchClause.sitesAll R a catches
    | .tryCatch _ body catches (some cleanup) =>
      body.sites R .block a ++ (CatchClause.sitesAll R a catches ++ cleanup.sites R .block a)
    | .throw _ value => value.sites R a
    | .await _ value => value.sites R a
    | .concurrent node bindings =>
      ConcurrentBinding.sitesAll R a bindings ++ [.opening a (.concurrent node bindings)]
    | .race _ body => body.sites R .block a
    | .timeout _ duration body => duration.sites R a ++ body.sites R .block a

/-- The sites of several expressions. -/
def Expr.sitesAll (R : Rules α) (a : α) : List Expr → List (Site α)
  | [] => []
  | e :: es => e.sites R a ++ Expr.sitesAll R a es

/-- The sites of the values in a struct literal. -/
def FieldInit.sitesAll (R : Rules α) (a : α) : List FieldInit → List (Site α)
  | [] => []
  | ⟨_, _, value⟩ :: fields => value.sites R a ++ FieldInit.sitesAll R a fields

/-- The sites of the values in a `concurrent` block. -/
def ConcurrentBinding.sitesAll (R : Rules α) (a : α) : List ConcurrentBinding → List (Site α)
  | [] => []
  | ⟨_, _, value⟩ :: bindings => value.sites R a ++ ConcurrentBinding.sitesAll R a bindings

/-- The sites of match arms. -/
def MatchArm.sitesAll (R : Rules α) (a : α) : List MatchArm → List (Site α)
  | [] => []
  | ⟨node, pattern, none, body⟩ :: arms =>
    .opening a (.arm node pattern) :: .pattern (R.enter a (.arm node pattern)) pattern ::
      (body.sites R (R.enter a (.arm node pattern)) ++ MatchArm.sitesAll R a arms)
  | ⟨node, pattern, some guard, body⟩ :: arms =>
    .opening a (.arm node pattern) :: .pattern (R.enter a (.arm node pattern)) pattern ::
      ((guard.sites R (R.enter a (.arm node pattern)) ++
        body.sites R (R.enter a (.arm node pattern))) ++ MatchArm.sitesAll R a arms)

/-- The sites of handlers. -/
def CatchClause.sitesAll (R : Rules α) (a : α) : List CatchClause → List (Site α)
  | [] => []
  | ⟨node, name, _, body⟩ :: catches =>
    .opening a (.catchClause node name) ::
      (body.sites R .block (R.enter a (.catchClause node name)) ++ CatchClause.sitesAll R a catches)

/-- The sites of a block that opens a scope of the given kind. -/
def Block.sites (R : Rules α) (kind : ScopeKind) (a : α) (b : Block) : List (Site α) :=
  .block a b :: .opening a (.block kind b) :: match b with
    | ⟨_, stmts, none⟩ => Stmt.sitesAll R (R.enter a (.block kind b)) stmts
    | ⟨_, stmts, some result⟩ =>
      Stmt.sitesAll R (R.enter a (.block kind b)) stmts ++
        result.sites R (stmts.foldl R.after (R.enter a (.block kind b)))

/-- The sites of statements. The names of a `let` are in force from the next statement on. -/
def Stmt.sitesAll (R : Rules α) (a : α) : List Stmt → List (Site α)
  | [] => []
  | .letBind node pattern _ _ value :: rest =>
    value.sites R a ++ .opening a (.letBind node pattern) ::
      .pattern (R.enter a (.letBind node pattern)) pattern ::
      Stmt.sitesAll R (R.enter a (.letBind node pattern)) rest
  | .expr node value :: rest =>
    value.sites R a ++ Stmt.sitesAll R (R.after a (.expr node value)) rest

end

/-- The sites of a function or method. -/
def FunctionDecl.sites (R : Rules α) (a : α) (isMethod : Bool) (f : FunctionDecl) :
    List (Site α) :=
  .opening a (.function f isMethod) :: f.body.sites R .block (R.enter a (.function f isMethod))

/-- The sites of the first value of a field. -/
def FieldDecl.sites (R : Rules α) (a : α) (f : FieldDecl) : List (Site α) :=
  match f.initializer with
  | some e => e.sites R a
  | none => []

/-- The sites of a class. -/
def ClassDecl.sites (R : Rules α) (a : α) (c : ClassDecl) : List (Site α) :=
  .opening a (.classBody c) ::
    (c.fields.flatMap (FieldDecl.sites R (R.enter a (.classBody c))) ++
      c.methods.flatMap (FunctionDecl.sites R (R.enter a (.classBody c)) true))

/-- The sites of a statement of the script, whose names are global. -/
def Stmt.scriptSites (R : Rules α) (a : α) : Stmt → List (Site α)
  | .letBind _ pattern _ _ value => value.sites R a ++ [.pattern a pattern]
  | .expr _ value => value.sites R a

/-- The sites of a declaration. -/
def Decl.sites (R : Rules α) (a : α) : Decl → List (Site α)
  | .function f => f.sites R a false
  | .classLike c => c.sites R a
  | .struct s => s.fields.flatMap (FieldDecl.sites R a)
  | .spark s => s.fields.flatMap (FieldDecl.sites R a)
  | .data _ => []
  | .trait _ => []
  | .interface _ => []
  | .impl i => i.methods.flatMap (FunctionDecl.sites R a true)
  | .script s => s.scriptSites R a

/-- Whether a declaration is a statement of the script. -/
def Decl.isScript : Decl → Bool
  | script _ => true
  | _ => false

/-- The sites of a unit. -/
def SourceUnit.sites (R : Rules α) (a : α) (u : SourceUnit) : List (Site α) :=
  u.decls.flatMap (Decl.sites R a)

end Walk

/-! ## The functions of a unit -/

/-- The functions and methods of a declaration. -/
def Decl.functions : Decl → List FunctionDecl
  | function f => [f]
  | classLike c => c.methods
  | impl i => i.methods
  | struct _ | spark _ | data _ | trait _ | interface _ | script _ => []

/-- The functions and methods of a unit. -/
def SourceUnit.functions (u : SourceUnit) : List FunctionDecl :=
  u.decls.flatMap Decl.functions

/-- The sites of a function are among those of its declaration, where nothing but a class is around
it. -/
theorem Decl.sites_function {α : Type} (R : Rules α) (a : α) (d : Decl) {f : FunctionDecl}
    (hf : f ∈ d.functions) :
    ∃ place isMethod, (place = a ∨ ∃ o, place = R.enter a o) ∧
      f.sites R place isMethod ⊆ d.sites R a := by
  cases d with
  | function g =>
    obtain rfl := List.mem_singleton.1 hf
    exact ⟨a, false, .inl rfl, List.Subset.refl _⟩
  | classLike c =>
    exact ⟨_, true, .inr ⟨.classBody c, rfl⟩, fun site hsite => List.mem_cons_of_mem _
      (List.mem_append_right _ (List.mem_flatMap.2 ⟨f, hf, hsite⟩))⟩
  | impl i => exact ⟨a, true, .inl rfl, fun site hsite => List.mem_flatMap.2 ⟨f, hf, hsite⟩⟩
  | _ => cases hf

/-! ## The identities of a unit -/

mutual

/-- The identities of the nodes of an expression. -/
def Expr.ids (e : Expr) : List NodeId :=
  e.id :: match e with
    | .literal _ _ => []
    | .ident _ _ => []
    | .binary _ _ left right => left.ids ++ right.ids
    | .unary _ _ operand => operand.ids
    | .call _ callee args => callee.ids ++ Expr.idsAll args
    | .methodCall _ receiver _ _ args => receiver.ids ++ Expr.idsAll args
    | .fieldAccess _ object _ => object.ids
    | .index _ object position => object.ids ++ position.ids
    | .ifElse _ cond thenBranch none => cond.ids ++ thenBranch.ids
    | .ifElse _ cond thenBranch (some other) => cond.ids ++ (thenBranch.ids ++ other.ids)
    | .matchOn _ scrutinee arms => scrutinee.ids ++ MatchArm.idsAll arms
    | .block _ body => body.ids
    | .lambda _ params _ body => params.map (fun p => p.node.id) ++ body.ids
    | .whileLoop _ cond body => cond.ids ++ body.ids
    | .forLoop _ pattern iterable body => iterable.ids ++ (pattern.ids ++ body.ids)
    | .breakLoop _ => []
    | .continueLoop _ => []
    | .ret _ none => []
    | .ret _ (some value) => value.ids
    | .assign _ target value => target.ids ++ value.ids
    | .arrayLit _ elements => Expr.idsAll elements
    | .tupleLit _ elements => Expr.idsAll elements
    | .structLit _ _ fields => FieldInit.idsAll fields
    | .tryCatch _ body catches none => body.ids ++ CatchClause.idsAll catches
    | .tryCatch _ body catches (some cleanup) =>
      body.ids ++ (CatchClause.idsAll catches ++ cleanup.ids)
    | .throw _ value => value.ids
    | .await _ value => value.ids
    | .concurrent _ bindings => ConcurrentBinding.idsAll bindings
    | .race _ body => body.ids
    | .timeout _ duration body => duration.ids ++ body.ids

/-- The identities of the nodes of several expressions. -/
def Expr.idsAll : List Expr → List NodeId
  | [] => []
  | e :: es => e.ids ++ Expr.idsAll es

/-- The identities of the nodes of the values in a struct literal. -/
def FieldInit.idsAll : List FieldInit → List NodeId
  | [] => []
  | ⟨_, _, value⟩ :: fields => value.ids ++ FieldInit.idsAll fields

/-- The identities of the nodes of a `concurrent` block. -/
def ConcurrentBinding.idsAll : List ConcurrentBinding → List NodeId
  | [] => []
  | ⟨node, _, value⟩ :: bindings => node.id :: (value.ids ++ ConcurrentBinding.idsAll bindings)

/-- The identities of the nodes of match arms. -/
def MatchArm.idsAll : List MatchArm → List NodeId
  | [] => []
  | ⟨node, pattern, none, body⟩ :: arms =>
    node.id :: (pattern.ids ++ (body.ids ++ MatchArm.idsAll arms))
  | ⟨node, pattern, some guard, body⟩ :: arms =>
    node.id :: (pattern.ids ++ ((guard.ids ++ body.ids) ++ MatchArm.idsAll arms))

/-- The identities of the nodes of handlers. -/
def CatchClause.idsAll : List CatchClause → List NodeId
  | [] => []
  | ⟨node, _, _, body⟩ :: catches => node.id :: (body.ids ++ CatchClause.idsAll catches)

/-- The identities of the nodes of a block. -/
def Block.ids (b : Block) : List NodeId :=
  b.id :: match b with
    | ⟨_, stmts, none⟩ => Stmt.idsAll stmts
    | ⟨_, stmts, some result⟩ => Stmt.idsAll stmts ++ result.ids

/-- The identities of the nodes of statements. -/
def Stmt.idsAll : List Stmt → List NodeId
  | [] => []
  | .letBind node pattern _ _ value :: rest =>
    node.id :: (value.ids ++ (pattern.ids ++ Stmt.idsAll rest))
  | .expr node value :: rest => node.id :: (value.ids ++ Stmt.idsAll rest)

end

/-- The identities of the nodes of a function or method. -/
def FunctionDecl.ids (f : FunctionDecl) : List NodeId :=
  f.node.id :: (f.params.map (fun p => p.node.id) ++ f.body.ids)

/-- The identities of the nodes of a field. -/
def FieldDecl.ids (f : FieldDecl) : List NodeId :=
  f.node.id :: match f.initializer with
    | some e => e.ids
    | none => []

/-- The identities of the nodes of a variant. -/
def VariantDecl.ids (v : VariantDecl) : List NodeId :=
  v.node.id :: v.fields.flatMap FieldDecl.ids

/-- The identities of the nodes of a method that a trait asks for. -/
def MethodSig.ids (m : MethodSig) : List NodeId :=
  m.node.id :: m.params.map (fun p => p.node.id)

/-- The identities of the nodes of a declaration. -/
def Decl.ids : Decl → List NodeId
  | .function f => f.ids
  | .classLike c =>
    c.node.id :: (c.fields.flatMap FieldDecl.ids ++ c.methods.flatMap FunctionDecl.ids)
  | .struct s => s.node.id :: s.fields.flatMap FieldDecl.ids
  | .spark s => s.node.id :: s.fields.flatMap FieldDecl.ids
  | .data d => d.node.id :: d.variants.flatMap VariantDecl.ids
  | .trait t => t.node.id :: t.methods.flatMap MethodSig.ids
  | .interface t => t.node.id :: t.methods.flatMap MethodSig.ids
  | .impl i => i.node.id :: i.methods.flatMap FunctionDecl.ids
  | .script s => Stmt.idsAll [s]

/-- The identities of all nodes of a unit, each as often as a node has it. -/
def SourceUnit.ids (u : SourceUnit) : List NodeId :=
  u.node.id :: u.decls.flatMap Decl.ids

end UnitAnalysis

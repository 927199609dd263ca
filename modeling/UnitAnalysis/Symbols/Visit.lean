import UnitAnalysis.Symbols.Binding
import UnitAnalysis.Symbols.Declare

/-!
# Scopes of bodies

The third round over the declarations of a unit opens the scopes of all bodies and defines the names
that are bound in them. A `let` opens a scope for the statements after it, so its names are visible
from there to the end of the block and not in its own value. The names of a `concurrent` statement
stay visible in the same way.

The walk is written once, over the steps that it takes (`Steps`): it asks them to open a scope, to
give names to one and to go out of one. The construction of the table takes them as they are
(`direct`), with nothing to do on the way out, because every step is told its scope.
-/

set_option autoImplicit false

namespace UnitAnalysis

namespace Build

/-- Defines the parameters of a lambda. -/
def defineLambdaParams (g : Generics) (scope : ScopeId) (site : Span) :
    List LambdaParam → Build Unit
  | [] => return ()
  | p :: ps => do
    let declared ← resolveOption g p.ty
    match declared with
    | some t => annotate p.node.id t
    | none => pure ()
    let symbol : Symbol :=
      { name := p.name, kind := .parameter, declaredType := declared, origin := some p.node.id,
        span := p.node.span }
    let _ ← define scope symbol site
    defineLambdaParams g scope site ps

/-- Defines the exception of a handler. -/
def defineException (g : Generics) (scope : ScopeId) (node : Node) (name : String)
    (ty : Option TypeExpr) : Build Unit := do
  let t := (← resolveOption g ty).getD .any
  annotate node.id t
  let symbol : Symbol :=
    { name, kind := .variableName, declaredType := some t, origin := some node.id,
      span := node.span }
  let _ ← define scope symbol node.span

/-- Defines the names of a `concurrent` block. The check of bodies reports a name that is bound
again. -/
def defineConcurrent (scope : ScopeId) : List ConcurrentBinding → Build Unit
  | [] => return ()
  | b :: bs => do
    let symbol : Symbol :=
      { name := b.name, kind := .variableName, declaredType := none, origin := some b.node.id,
        span := b.node.span }
    let _ ← tryDefine scope symbol
    defineConcurrent scope bs

/-- Defines the parameters of a function; a parameter without a known type has type `Any`. -/
def defineParams (scope : ScopeId) (site : Span) : List Param → List Ty → Build Unit
  | [], _ => return ()
  | p :: ps, types => do
    let t := types.head?.getD .any
    annotate p.node.id t
    let symbol : Symbol :=
      { name := p.name, kind := .parameter, declaredType := some t, isMutable := p.isMutable,
        origin := some p.node.id, span := p.node.span }
    let _ ← define scope symbol site
    defineParams scope site ps types.tail

/-- Defines `self` in the scope of a method. -/
def defineSelf (scope : ScopeId) (node : Node) (t : Ty) : Build Unit := do
  let symbol : Symbol :=
    { name := "self", kind := .parameter, declaredType := some t, origin := some node.id }
  let _ ← define scope symbol node.span

/-- Defines the fields of a class in its scope. A name that is taken was reported before. -/
def defineFields (scope : ScopeId) : List FieldDecl → Build Unit
  | [] => return ()
  | f :: fs => do
    let t := ((← get).table.annotations.get? f.node.id).getD .any
    let symbol : Symbol :=
      { name := f.name, kind := .field, declaredType := some t, isMutable := f.isMutable,
        origin := some f.node.id, span := f.node.span }
    let _ ← tryDefine scope symbol
    defineFields scope fs

/-- Defines the methods of a class in its scope. A name that is taken was reported before. -/
def defineMethods (scope : ScopeId) : List FunctionDecl → Build Unit
  | [] => return ()
  | f :: fs => do
    let t := match (← get).table.functions.get? f.node.id with
      | some s => s.functionType
      | none => .any
    let symbol : Symbol :=
      { name := f.name, kind := .function, declaredType := some t, isAsync := f.isAsync,
        origin := some f.node.id, span := f.node.span }
    let _ ← tryDefine scope symbol
    defineMethods scope fs

/-- The steps of a walk through bodies, in a monad of its own. -/
structure Steps (m : Type → Type) where
  /-- A step that uses no scope. -/
  plain {α : Type} : Build α → m α
  /-- A step that uses one scope. -/
  inScope {α : Type} : ScopeId → Build α → m α
  /-- Opens a scope for a node. -/
  enter : ScopeId → ScopeKind → NodeId → m ScopeId
  /-- Goes out of scopes until the target is reached. -/
  leave (scope target : ScopeId) : m Unit

/-- The steps as they are. -/
abbrev direct : Steps Build where
  plain x := x
  inScope _ x := x
  enter := enter
  leave _ _ := return ()

section Walk

variable {m : Type → Type} [Monad m] (w : Steps m)

mutual

/-- Opens the scopes of an expression. -/
def walkExpr (g : Generics) (scope : ScopeId) (e : Expr) : m Unit := do
  w.plain (visit ⟨.expr, e.id, scope⟩)
  match e with
  | .literal _ _ => return ()
  | .ident _ _ => return ()
  | .binary _ _ left right => do
    walkExpr g scope left
    walkExpr g scope right
  | .unary _ _ operand => walkExpr g scope operand
  | .call _ callee args => do
    walkExpr g scope callee
    walkExprs g scope args
  | .methodCall _ receiver _ _ args => do
    walkExpr g scope receiver
    walkExprs g scope args
  | .fieldAccess _ object _ => walkExpr g scope object
  | .index _ object position => do
    walkExpr g scope object
    walkExpr g scope position
  | .ifElse _ cond thenBranch elseBranch => do
    walkExpr g scope cond
    walkBlock g scope .block thenBranch
    match elseBranch with
    | some e => walkExpr g scope e
    | none => return ()
  | .matchOn _ scrutinee arms => do
    walkExpr g scope scrutinee
    walkArms g scope arms
  | .block _ body => walkBlock g scope .block body
  | .lambda node params _ body => do
    let inner ← w.enter scope .lambda node.id
    w.inScope inner (defineLambdaParams g inner node.span params)
    walkBlock g inner .block body
    w.leave inner scope
  | .whileLoop _ cond body => do
    walkExpr g scope cond
    walkBlock g scope .loop body
  | .forLoop node pattern iterable body => do
    walkExpr g scope iterable
    let inner ← w.enter scope .loop node.id
    w.inScope inner (definePattern g inner false none node.span pattern)
    walkBlock g inner .block body
    w.leave inner scope
  | .breakLoop _ => return ()
  | .continueLoop _ => return ()
  | .ret _ (some value) => walkExpr g scope value
  | .ret _ none => return ()
  | .assign _ target value => do
    walkExpr g scope target
    walkExpr g scope value
  | .arrayLit _ elements => walkExprs g scope elements
  | .tupleLit _ elements => walkExprs g scope elements
  | .structLit _ _ fields => walkInits g scope fields
  | .tryCatch _ body catches cleanup => do
    walkBlock g scope .block body
    walkCatches g scope catches
    match cleanup with
    | some b => walkBlock g scope .block b
    | none => return ()
  | .throw _ value => walkExpr g scope value
  | .await _ value => walkExpr g scope value
  | .concurrent node bindings => do
    walkBindings g scope bindings
    let inner ← w.enter scope .block node.id
    w.inScope inner (defineConcurrent inner bindings)
  | .race _ body => walkBlock g scope .block body
  | .timeout _ duration body => do
    walkExpr g scope duration
    walkBlock g scope .block body

/-- Opens the scopes of several expressions. -/
def walkExprs (g : Generics) (scope : ScopeId) : List Expr → m Unit
  | [] => return ()
  | e :: es => do
    walkExpr g scope e
    walkExprs g scope es

/-- Opens the scopes of the values in a struct literal. -/
def walkInits (g : Generics) (scope : ScopeId) : List FieldInit → m Unit
  | [] => return ()
  | ⟨_, _, value⟩ :: fields => do
    walkExpr g scope value
    walkInits g scope fields

/-- Opens the scopes of the values in a `concurrent` block. -/
def walkBindings (g : Generics) (scope : ScopeId) : List ConcurrentBinding → m Unit
  | [] => return ()
  | ⟨_, _, value⟩ :: bindings => do
    walkExpr g scope value
    walkBindings g scope bindings

/-- Opens the scopes of match arms, one for each arm. -/
def walkArms (g : Generics) (scope : ScopeId) : List MatchArm → m Unit
  | [] => return ()
  | ⟨node, pattern, guard, body⟩ :: arms => do
    let inner ← w.enter scope .matchArm node.id
    w.inScope inner (definePattern g inner false none node.span pattern)
    match guard with
    | some e => walkExpr g inner e
    | none => pure ()
    walkExpr g inner body
    w.leave inner scope
    walkArms g scope arms

/-- Opens the scopes of handlers, one for each handler. -/
def walkCatches (g : Generics) (scope : ScopeId) : List CatchClause → m Unit
  | [] => return ()
  | ⟨node, name, ty, body⟩ :: catches => do
    let inner ← w.enter scope .catchClause node.id
    w.inScope inner (defineException g inner node name ty)
    walkBlock g inner .block body
    w.leave inner scope
    walkCatches g scope catches

/-- Opens the scope of a block and the scopes in it. -/
def walkBlock (g : Generics) (parent : ScopeId) (kind : ScopeKind) (b : Block) : m Unit := do
  w.plain (visit ⟨.block, b.id, parent⟩)
  match b with
  | ⟨node, stmts, result⟩ =>
    let scope ← w.enter parent kind node.id
    let last ← walkStmts g scope stmts
    match result with
    | some e => walkExpr g last e
    | none => pure ()
    w.leave last parent

/-- Opens the scopes of statements, and gives the scope in which the block goes on after them. -/
def walkStmts (g : Generics) (scope : ScopeId) : List Stmt → m ScopeId
  | [] => return scope
  | .letBind node pattern ty isMutable value :: rest => do
    walkExpr g scope value
    let inner ← w.enter scope .block node.id
    w.inScope inner (defineLet g inner node pattern ty isMutable)
    walkStmts g inner rest
  | .expr _ value :: rest => do
    walkExpr g scope value
    let table := (← w.plain get).table
    let next := match value with
      | .concurrent node _ => table.scopeFor node.id scope
      | _ => scope
    walkStmts g next rest

end

/-- Opens the scopes of a function or, with the type of `self`, of a method. -/
def walkFunction (g : Generics) (parent : ScopeId) (self : Option Ty) (f : FunctionDecl) :
    m Unit := do
  let scope ← w.enter parent (if self.isSome then .method else .function) f.node.id
  match self with
  | some t => w.inScope scope (defineSelf scope f.node t)
  | none => pure ()
  let types := match (← w.plain get).table.functions.get? f.node.id with
    | some s => s.paramTypes
    | none => []
  w.inScope scope (defineParams scope f.node.span f.params types)
  walkBlock w (g.extend f.typeParams) scope .block f.body
  w.leave scope parent

/-- Opens the scopes of several methods. -/
def walkMethods (g : Generics) (parent : ScopeId) (self : Ty) : List FunctionDecl → m Unit
  | [] => return ()
  | f :: fs => do
    walkFunction w g parent (some self) f
    walkMethods g parent self fs

/-- Opens the scopes of the first values of fields. -/
def walkInitializers (g : Generics) (scope : ScopeId) : List FieldDecl → m Unit
  | [] => return ()
  | f :: fs => do
    match f.initializer with
    | some e => walkExpr w g scope e
    | none => pure ()
    walkInitializers g scope fs

/-- Opens the scopes of a class. Its bodies see all of its fields and methods. -/
def walkClass (c : ClassDecl) : m Unit := do
  let ix := (← w.plain get).table.decls
  let g := typeGenerics ix c.name c.typeParams
  let scope ← w.enter .global .classBody c.node.id
  w.inScope scope (defineFields scope c.fields)
  w.inScope scope (defineMethods scope c.methods)
  walkInitializers w g scope c.fields
  walkMethods w g scope (selfType ix c.name) c.methods
  w.leave scope .global

/-- Opens the scopes of a struct or spark. -/
def walkStruct (s : StructDecl) : m Unit := do
  let g := typeGenerics (← w.plain get).table.decls s.name s.typeParams
  walkInitializers w g .global s.fields

/-- Opens the scopes of an implementation. -/
def walkImpl (i : ImplDecl) : m Unit := do
  let target := match (← w.plain get).impls.find? fun impl => impl.origin = i.node.id with
    | some impl => impl.target
    | none => .any
  walkMethods w ((Generics.extend {} i.typeParams).withAlias "Self" target) .global target i.methods

/-- Opens the scopes of a statement of the script, whose names are global. -/
def walkScript : Stmt → m Unit
  | .letBind node pattern ty isMutable value => do
    walkExpr w {} .global value
    w.inScope .global (modifyTable fun table =>
      { table with scopeMap := table.scopeMap.insert node.id .global })
    w.inScope .global (defineLet {} .global node pattern ty isMutable)
  | .expr _ value => walkExpr w {} .global value

/-- The third round for one declaration. -/
def walkDecl : Decl → m Unit
  | .function d => walkFunction w {} .global none d
  | .classLike d => walkClass w d
  | .struct d => walkStruct w d
  | .spark d => walkStruct w d
  | .data _ => return ()
  | .trait _ => return ()
  | .interface _ => return ()
  | .impl d => walkImpl w d
  | .script s => walkScript w s

/-- The first two rounds, which use the global scope only. -/
def declare (intrinsics : List (String × TypeExpr)) (u : SourceUnit) : Build Unit := do
  u.decls.forM declareType
  seedIntrinsics intrinsics
  u.decls.forM declareMembers

/-- All rounds over a unit. -/
def walkUnit (intrinsics : List (String × TypeExpr)) (u : SourceUnit) : m Unit := do
  w.inScope .global (declare intrinsics u)
  u.decls.forM (walkDecl w)

end Walk

/-! ## The walk of the construction -/

/-- Opens the scopes of an expression. -/
def visitExpr : Generics → ScopeId → Expr → Build Unit := walkExpr direct

/-- Opens the scope of a block and the scopes in it. -/
def visitBlock : Generics → ScopeId → ScopeKind → Block → Build Unit := walkBlock direct

/-- Opens the scopes of a function or, with the type of `self`, of a method. -/
def visitFunction : Generics → ScopeId → Option Ty → FunctionDecl → Build Unit := walkFunction direct

/-- Opens the scopes of several methods. -/
def visitMethods : Generics → ScopeId → Ty → List FunctionDecl → Build Unit := walkMethods direct

/-- Opens the scopes of the first values of fields. -/
def visitInitializers : Generics → ScopeId → List FieldDecl → Build Unit := walkInitializers direct

/-- Opens the scopes of a class. -/
def visitClass : ClassDecl → Build Unit := walkClass direct

/-- Opens the scopes of a struct or spark. -/
def visitStruct : StructDecl → Build Unit := walkStruct direct

/-- Opens the scopes of an implementation. -/
def visitImpl : ImplDecl → Build Unit := walkImpl direct

/-- Opens the scopes of a statement of the script. -/
def visitScript : Stmt → Build Unit := walkScript direct

/-- The third round for one declaration. -/
def visitDecl : Decl → Build Unit := walkDecl direct

/-- All rounds over a unit. -/
def unit : List (String × TypeExpr) → SourceUnit → Build Unit := walkUnit direct

end Build

/-- The symbol table of a unit with its traits and implementations, and what was found wrong. -/
def Builder.ofUnit (intrinsics : List (String × TypeExpr)) (u : SourceUnit) : Builder :=
  ((Build.unit intrinsics u).run {}).2

end UnitAnalysis

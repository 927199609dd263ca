import UnitAnalysis.Check.Call
import UnitAnalysis.Check.Member
import UnitAnalysis.Check.Operator
import UnitAnalysis.Match.Coverage

/-!
# Types of expressions

Every form of expression has one rule for its type. The rules run through an expression from left to
right, report what is wrong and go on; a type that cannot be told is `Any`, which suits everything,
so one mistake is reported once. The scopes are those that the symbol table has for the nodes.

The rules are written once, over the steps that they take (`Steps`). A check takes these as they are
(`direct`).
-/

set_option autoImplicit false

namespace UnitAnalysis

namespace Check

/-- What is wrong with a construct of concurrency where it stands. -/
def asyncFindings (w : Surroundings) (form : AsyncForm) (span : Span) : List Finding :=
  if w.isAsync then [] else [⟨.outsideAsync form (w.frame?.map fun f => f.name), span⟩]

/-- The problem of a function that returns another type than it declares. -/
def returnProblem (options : Options) (f : Frame) (declared found : Ty) : Problem :=
  if f.isAsync then
    .asyncReturnMismatch options.asyncReturnMismatch.severity f.name declared found
  else .returnMismatch f.name declared found

/-- What is wrong with a result of a function. -/
def resultFindings (options : Options) (f : Frame) (found : Ty) (span : Span) : List Finding :=
  match f.ret with
  | some declared =>
    if declared.accepts found then [] else [⟨returnProblem options f declared found, span⟩]
  | none => []

/-- What is wrong with a `return`. -/
def returnFindings (options : Options) (w : Surroundings) (found : Ty) (span : Span) :
    List Finding :=
  match w.frame? with
  | some f => resultFindings options f found span
  | none => [⟨.returnOutside, span⟩]

/-- What is wrong with the value of a target. -/
def assignedFindings (target value : Ty) (span : Span) : List Finding :=
  if target.accepts value then [] else [⟨.assignmentMismatch target value, span⟩]

/-- What is wrong with an assignment to a name that stands for a symbol. -/
def mutabilityFindings (symbol : Option Symbol) (span : Span) : List Finding :=
  match symbol with
  | some s =>
    if (s.kind = .variableName ∨ s.kind = .parameter) ∧ !s.isMutable then
      [⟨.immutableTarget s.name s.span, span⟩]
    else []
  | none => []

/-- The type of a name that was looked up. -/
def nameType (found : Option (ScopeId × Symbol)) (name : String) (span : Span) : Judged Ty :=
  match found with
  | some (_, symbol) => (symbol.ty, [])
  | none => (.any, [⟨.unresolvedName name, span⟩])

/-- The type that the value of a `let` gives to its pattern: the written one, if there is one. -/
def boundType (declared : Option Ty) (value : Ty) (span : Span) : Judged Ty :=
  match declared with
  | some t => (t, if t.accepts value then [] else [⟨.bindingMismatch t value, span⟩])
  | none => (value, [])

/-- The types of the parameters of a lambda. One without a written type has type `Void`. -/
def lambdaParamTypes (table : SymbolTable) (params : List LambdaParam) : List Ty :=
  params.map fun p => (table.annotations.get? p.node.id).getD .void

/-- Whether a block ends in a statement that never goes on. -/
def endsDiverging (stmts : List Stmt) : Bool :=
  match stmts.getLast? with
  | some (.expr _ (.ret _ _)) => true
  | some (.expr _ (.throw _ _)) => true
  | _ => false

/-- Reports a construct of concurrency where it may not stand. -/
def requireAsync (form : AsyncForm) (span : Span) : Check Unit := do
  report (asyncFindings (← get).around form span)

/-- Checks what a `return` gives back against the function around it. -/
def checkReturn (options : Options) (found : Ty) (span : Span) : Check Unit := do
  report (returnFindings options (← get).around found span)

/-- The scope in which a block goes on after a statement. -/
def scopeAfter (table : SymbolTable) (scope : ScopeId) : Stmt → ScopeId
  | .letBind node _ _ _ _ => table.scopeFor node.id scope
  | .expr _ (.concurrent node _) => table.scopeFor node.id scope
  | .expr _ _ => scope

/-- Gives the names of a pattern the types that they take from a value of type `t`. -/
def bindPattern (ctx : Context) (scope : ScopeId) (pattern : Pattern) (t : Ty) : Check Unit := do
  visitAll (pattern.visits scope)
  resolveNames scope (pattern.typings ctx.decls t)

/-- Checks a bound value against its pattern and gives the names their types. -/
def bindLet (ctx : Context) (scope : ScopeId) (node : Node) (pattern : Pattern) (value : Ty)
    (span : Span) : Check Unit := do
  let t ← judge (boundType (ctx.table.annotations.get? node.id) value span)
  bindPattern ctx scope pattern t

section Walk

variable {m : Type → Type} [Monad m] (w : Steps m) (ctx : Context)

mutual

/-- The type of an expression in a scope. -/
def walkExpr (scope : ScopeId) (e : Expr) : m Ty :=
  memo w ⟨.expr, e.id, scope⟩ <| match e with
    | .literal _ value => return literalType value
    | .ident node name => do
      let found ← w.search scope name
      w.plain (judge (nameType found name node.span))
    | .binary node op left right => do
      let l ← walkExpr scope left
      let r ← walkExpr scope right
      w.plain (judge (binaryType ctx.options.strictComparisons op l r node.span))
    | .unary node op operand => do
      let t ← walkExpr scope operand
      w.plain (judge (unaryType op t node.span))
    | .call node callee args => do
      let args ← walkArgs scope args
      match callee with
      | .ident calleeNode name =>
        match ← w.search scope name with
        | some (owner, symbol) =>
          w.plain (record calleeNode.id symbol.ty)
          w.plain (judge (callSymbol ctx owner symbol args node.span))
        | none =>
          let _ ← walkExpr scope callee
          return .any
      | _ =>
        let t ← walkExpr scope callee
        w.plain (judge (callValue t node.span))
    | .methodCall node receiver qualifier method args => do
      let t ← walkExpr scope receiver
      let args ← walkArgs scope args
      w.plain (judge (callMethod ctx t qualifier method args node.span))
    | .fieldAccess node object field => do
      let t ← walkExpr scope object
      w.plain (judge (fieldType ctx.decls t field node.span))
    | .index node object position => do
      let t ← walkExpr scope object
      let _ ← walkExpr scope position
      w.plain (judge (indexType t node.span))
    | .ifElse _ cond thenBranch elseBranch => do
      let c ← walkExpr scope cond
      w.plain (report (conditionFindings c cond.span))
      let t ← walkBlock scope thenBranch
      match elseBranch with
      | some other => return branchType t (← walkExpr scope other)
      | none => return t
    | .matchOn node scrutinee arms => do
      let t ← walkExpr scope scrutinee
      let types ← walkArms scope t arms
      w.plain (report (Match.findings ctx.decls t arms node.span))
      return types.head?.getD .void
    | .block _ body => walkBlock scope body
    | .lambda node params isAsync body => do
      let ret ← inside w (.enterLambda isAsync)
        (walkBlock (ctx.table.scopeFor node.id scope) body)
      return .function (lambdaParamTypes ctx.table params) ret
    | .whileLoop _ cond body => do
      let c ← walkExpr scope cond
      w.plain (report (conditionFindings c cond.span))
      let _ ← walkBlock scope body
      return .void
    | .forLoop node pattern iterable body => do
      let t ← walkExpr scope iterable
      let element ← w.plain (judge (elementType t node.span))
      let inner := ctx.table.scopeFor node.id scope
      w.inScope inner (bindPattern ctx inner pattern element)
      let _ ← walkBlock inner body
      return .void
    | .breakLoop _ => return .any
    | .continueLoop _ => return .any
    | .ret node (some value) => do
      let t ← walkExpr scope value
      w.plain (checkReturn ctx.options t node.span)
      return .any
    | .ret node none => do
      w.plain (checkReturn ctx.options .void node.span)
      return .any
    | .assign node target value => do
      let v ← walkExpr scope value
      match target with
      | .ident _ name =>
        let t ← walkExpr scope target
        let found ← w.search scope name
        w.plain (report (mutabilityFindings (found.map Prod.snd) node.span))
        w.plain (report (assignedFindings t v node.span))
      | .fieldAccess _ _ _ =>
        let t ← walkExpr scope target
        w.plain (report (assignedFindings t v node.span))
      | .index _ _ _ =>
        let t ← walkExpr scope target
        w.plain (report (assignedFindings t v node.span))
      | other => w.plain (report [⟨.invalidTarget, other.span⟩])
      return v
    | .arrayLit _ elements => do
      let element ← walkElements scope none elements
      return .array (element.getD (if elements.isEmpty then .void else .any))
    | .tupleLit _ elements => do
      let args ← walkArgs scope elements
      return .tuple (args.map fun a => a.ty)
    | .structLit node name fields => do
      let inits ← walkInits scope fields
      w.plain (judge (structType ctx.decls name inits node.span))
    | .tryCatch _ body catches cleanup => do
      let t ← walkBlock scope body
      walkCatches scope catches
      match cleanup with
      | some b =>
        let _ ← walkBlock scope b
        return t
      | none => return t
    | .throw _ value => do
      let _ ← walkExpr scope value
      return .any
    | .await node value => do
      w.plain (requireAsync .await node.span)
      let t ← walkExpr scope value
      return awaitedType t
    | .concurrent node bindings => do
      w.plain (requireAsync .concurrent node.span)
      walkBindings scope (ctx.table.scopeFor node.id scope) [] bindings
      return .void
    | .race node body => do
      w.plain (requireAsync .race node.span)
      walkBlock scope body
    | .timeout node duration body => do
      w.plain (requireAsync .timeout node.span)
      let d ← walkExpr scope duration
      w.plain (report (durationFindings d duration.span))
      let t ← walkBlock scope body
      return .optional t

/-- The types of several expressions, with their places. -/
def walkArgs (scope : ScopeId) : List Expr → m (List Argument)
  | [] => return []
  | e :: es => do
    let t ← walkExpr scope e
    let rest ← walkArgs scope es
    return ⟨t, e.span⟩ :: rest

/-- The type of the elements of an array: that of the first one with a known type, which all later
ones must fit. -/
def walkElements (scope : ScopeId) (expected : Option Ty) : List Expr → m (Option Ty)
  | [] => return expected
  | e :: es => do
    let t ← walkExpr scope e
    match expected with
    | none => walkElements scope (if t.isAny then none else some t) es
    | some wanted =>
      w.plain (report (if wanted.compatible t then [] else [⟨.elementMismatch wanted t, e.span⟩]))
      walkElements scope expected es

/-- The types of the values of a struct literal. -/
def walkInits (scope : ScopeId) : List FieldInit → m (List Initializer)
  | [] => return []
  | ⟨span, name, value⟩ :: fields => do
    let t ← walkExpr scope value
    let rest ← walkInits scope fields
    return ⟨name, span, t⟩ :: rest

/-- The types of match arms. -/
def walkArms (scope : ScopeId) (scrutinee : Ty) : List MatchArm → m (List Ty)
  | [] => return []
  | ⟨node, pattern, guard, body⟩ :: arms => do
    let inner := ctx.table.scopeFor node.id scope
    w.inScope inner (bindPattern ctx inner pattern scrutinee)
    match guard with
    | some cond =>
      let c ← walkExpr inner cond
      w.plain (report (conditionFindings c cond.span))
    | none => pure ()
    let t ← walkExpr inner body
    let rest ← walkArms scope scrutinee arms
    return t :: rest

/-- Checks handlers. -/
def walkCatches (scope : ScopeId) : List CatchClause → m Unit
  | [] => return ()
  | ⟨node, _, _, body⟩ :: catches => do
    let _ ← walkBlock (ctx.table.scopeFor node.id scope) body
    walkCatches scope catches

/-- Checks the bindings of a `concurrent` block, which give their names types in the scope `inner`.
`seen` are the names that were bound already. -/
def walkBindings (scope inner : ScopeId) (seen : List String) :
    List ConcurrentBinding → m Unit
  | [] => return ()
  | ⟨node, name, value⟩ :: bindings => do
    let t ← walkExpr scope value
    if name ∈ seen then
      w.plain (report [⟨.duplicateConcurrent name, node.span⟩])
      walkBindings scope inner seen bindings
    else
      w.inScope inner (resolveName inner name t)
      walkBindings scope inner (name :: seen) bindings

/-- The type of a block: that of its last expression, `Any` when it never ends, and `Void`
otherwise. -/
def walkBlock (parent : ScopeId) (b : Block) : m Ty :=
  memo w ⟨.block, b.id, parent⟩ <| match b with
    | ⟨node, stmts, result⟩ => do
      let last ← walkStmts (ctx.table.scopeFor node.id parent) stmts
      match result with
      | some e => walkExpr last e
      | none => return if endsDiverging stmts then .any else .void

/-- Checks statements, and gives the scope in which the block goes on after them. -/
def walkStmts (scope : ScopeId) : List Stmt → m ScopeId
  | [] => return scope
  | .letBind node pattern ty isMutable value :: rest => do
    let t ← walkExpr scope value
    let inner := scopeAfter ctx.table scope (.letBind node pattern ty isMutable value)
    w.inScope inner (bindLet ctx inner node pattern t value.span)
    walkStmts inner rest
  | .expr node value :: rest => do
    let _ ← walkExpr scope value
    walkStmts (scopeAfter ctx.table scope (.expr node value)) rest

end

end Walk

/-- The type of an expression in a scope. -/
def inferExpr : Context → ScopeId → Expr → Check Ty := walkExpr direct

/-- The type of a block. -/
def inferBlock : Context → ScopeId → Block → Check Ty := walkBlock direct

end Check

end UnitAnalysis

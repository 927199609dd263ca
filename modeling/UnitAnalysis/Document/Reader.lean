import UnitAnalysis.Document.Fields
import UnitAnalysis.Syntax.Decl

/-!
# Reading syntax trees

Units, declarations, statements, expressions, patterns and types from their JSON form. Declarations,
statements and types say what they are in a field `type`, and expressions and patterns in a field
`kind`; the field may stand anywhere.

A tree is never deeper than the value it is read from, so each reader counts down from the height
of that value and is total.
-/

set_option autoImplicit false

namespace UnitAnalysis.Document

/-- The forms of a written type. -/
def typeForms : List String :=
  ["Named", "Optional", "Array", "Tuple", "Function"]

/-- Reads a written type that is at most `fuel` deep. -/
def typeExpr : (fuel : Nat) → (isNested : Bool) → Json → Read TypeExpr
  | 0, _ => fun _ => Read.ofOption none
  | fuel + 1, isNested => tagged isNested fun fields => do
    let span ← spanField fields
    match ← tag isNested "type" typeForms fields with
    | "Named" =>
      return .named span (← required "name" text fields)
        (← defaulted "args" (pure []) (list (typeExpr fuel true)) fields)
    | "Optional" => return .optional span (← required "inner" (typeExpr fuel true) fields)
    | "Array" => return .array span (← required "element" (typeExpr fuel true) fields)
    | "Tuple" => return .tuple span (← required "elements" (list (typeExpr fuel true)) fields)
    | _ =>
      return .function span (← required "params" (list (typeExpr fuel true)) fields)
        (← required "ret" (typeExpr fuel true) fields)

/-- Reads a type parameter. -/
def typeParam : Json → Read TypeParam :=
  object fun fields => do
    return {
      name := ← required "name" text fields
      bounds := ← defaulted "bounds" (pure []) (list text) fields }

/-- Reads a literal: an object with its kind as the only key, or `None`. -/
def literal (isNested : Bool) : Json → Read Literal
  | .obj [("Int", j)] => return .int (← signed j)
  | .obj [("Float", j)] => return .float (← double j)
  | .obj [("String", j)] => return .string (← text j)
  | .obj [("Char", j)] => return .char (← character j)
  | .obj [("Bool", j)] => return .bool (← truth j)
  | j => do
    let _ ← oneOf isNested ["None"] j
    return .none

/-- The forms of a pattern. -/
def patternForms : List String :=
  ["Variable", "Typed", "Literal", "Wildcard", "Tuple", "Array", "Struct", "TupleStruct", "Or",
    "Range"]

/-- A field of a struct pattern, with or without a pattern of its own. -/
def fieldPattern (name : String) : Option Pattern → FieldPattern
  | some p => .nested name p
  | none => .shorthand name

/-- Reads a field of a struct pattern. -/
def patternField (read : Json → Read Pattern) : Json → Read FieldPattern :=
  object fun fields => do
    return fieldPattern (← required "name" text fields) (← optional "pattern" read fields)

/-- Reads a pattern of a form from its fields, with readers of the types and patterns inside. -/
def patternOf (readType : Json → Read TypeExpr) (read : Json → Read Pattern) (node : Node)
    (fields : List (String × Json)) : (form : String) → Read Pattern
  | "Variable" => return .bare node (← required "name" text fields)
  | "Typed" =>
    return .typed node (← required "name" text fields) (← required "ty" readType fields)
  | "Literal" => return .literal node (← required "value" (literal true) fields)
  | "Wildcard" => return .wildcard node
  | "Tuple" => return .tuple node (← required "elements" (list read) fields)
  | "Array" =>
    return .array node (← required "elements" (list read) fields) (← optional "rest" text fields)
  | "Struct" =>
    return .struct node (← required "name" text fields)
      (← required "fields" (list (patternField read)) fields)
  | "TupleStruct" =>
    return .tupleStruct node (← required "name" text fields)
      (← required "elements" (list read) fields)
  | "Or" => return .either node (← required "left" read fields) (← required "right" read fields)
  | _ =>
    return .range node (← required "start" (literal true) fields)
      (← required "end" (literal true) fields) (← defaulted "inclusive" (pure false) truth fields)

/-- Reads a pattern that is at most `fuel` deep. -/
def pattern : (fuel : Nat) → (isNested : Bool) → Json → Read Pattern
  | 0, _ => fun _ => Read.ofOption none
  | fuel + 1, isNested => tagged isNested fun fields => do
    let node ← node fields
    let form ← tag isNested "kind" patternForms fields
    patternOf (typeExpr fuel true) (pattern fuel true) node fields form

/-- The operators between two operands, by name. -/
def binaryOps : List (String × BinaryOp) :=
  [("Add", .add), ("Sub", .sub), ("Mul", .mul), ("Div", .div), ("Mod", .mod), ("Pow", .pow),
    ("BitAnd", .bitAnd), ("BitOr", .bitOr), ("BitXor", .bitXor), ("Shl", .shl), ("Shr", .shr),
    ("Eq", .eq), ("Ne", .ne), ("Lt", .lt), ("Le", .le), ("Gt", .gt), ("Ge", .ge), ("And", .and),
    ("Or", .or)]

/-- The operators on one operand, by name. -/
def unaryOps : List (String × UnaryOp) :=
  [("Neg", .neg), ("Not", .not), ("Unwrap", .unwrap), ("ForceUnwrap", .forceUnwrap)]

/-- The kinds of classes, by name. -/
def classKinds : List (String × ClassKind) :=
  [("class", .plain), ("actor", .actor), ("exception", .exception)]

/-- Reads a name and takes what it stands for. -/
def choice {α : Type} (isNested : Bool) (options : List (String × α)) (j : Json) : Read α := do
  let name ← oneOf isNested (options.map Prod.fst) j
  Read.ofOption (options.lookup name)

/-- Reads a parameter of a lambda. -/
def lambdaParam (fuel : Nat) : Json → Read LambdaParam :=
  object fun fields => do
    return {
      node := ← node fields
      name := ← required "name" text fields
      ty := ← optional "ty" (typeExpr fuel true) fields }

/-- The forms of an expression. -/
def exprForms : List String :=
  ["Literal", "Ident", "Binary", "Unary", "Call", "MethodCall", "FieldAccess", "Index", "If",
    "Match", "Block", "Lambda", "While", "For", "Break", "Continue", "Return", "Assign", "ArrayLit",
    "TupleLit", "StructLit", "Try", "Throw", "Await", "Concurrent", "Race", "Timeout"]

/-- The readers of the parts of an expression. -/
structure Parts where
  expr : Json → Read Expr
  block : Json → Read Block
  pattern : Json → Read Pattern
  param : Json → Read LambdaParam
  arm : Json → Read MatchArm
  init : Json → Read FieldInit
  handler : Json → Read CatchClause
  binding : Json → Read ConcurrentBinding

/-- Reads an expression of a form from its fields. -/
def exprOf (read : Parts) (node : Node) (fields : List (String × Json)) :
    (form : String) → Read Expr
  | "Literal" => return .literal node (← required "value" (literal true) fields)
  | "Ident" => return .ident node (← required "name" text fields)
  | "Binary" =>
    return .binary node (← required "op" (choice true binaryOps) fields)
      (← required "left" read.expr fields) (← required "right" read.expr fields)
  | "Unary" =>
    return .unary node (← required "op" (choice true unaryOps) fields)
      (← required "expr" read.expr fields)
  | "Call" =>
    return .call node (← required "callee" read.expr fields)
      (← defaulted "args" (pure []) (list read.expr) fields)
  | "MethodCall" =>
    return .methodCall node (← required "receiver" read.expr fields)
      (← optional "qualifier" text fields) (← required "method" text fields)
      (← defaulted "args" (pure []) (list read.expr) fields)
  | "FieldAccess" =>
    return .fieldAccess node (← required "expr" read.expr fields)
      (← required "field" text fields)
  | "Index" =>
    return .index node (← required "expr" read.expr fields) (← required "index" read.expr fields)
  | "If" =>
    return .ifElse node (← required "cond" read.expr fields)
      (← required "then_branch" read.block fields) (← optional "else_branch" read.expr fields)
  | "Match" =>
    return .matchOn node (← required "scrutinee" read.expr fields)
      (← required "arms" (list read.arm) fields)
  | "Block" => return .block node (← required "block" read.block fields)
  | "Lambda" =>
    return .lambda node (← required "params" (list read.param) fields)
      (← defaulted "is_async" (pure false) truth fields) (← required "body" read.block fields)
  | "While" =>
    return .whileLoop node (← required "cond" read.expr fields)
      (← required "body" read.block fields)
  | "For" =>
    return .forLoop node (← required "pattern" read.pattern fields)
      (← required "iterable" read.expr fields) (← required "body" read.block fields)
  | "Break" => return .breakLoop node
  | "Continue" => return .continueLoop node
  | "Return" => return .ret node (← optional "value" read.expr fields)
  | "Assign" =>
    return .assign node (← required "target" read.expr fields)
      (← required "value" read.expr fields)
  | "ArrayLit" => return .arrayLit node (← required "elements" (list read.expr) fields)
  | "TupleLit" => return .tupleLit node (← required "elements" (list read.expr) fields)
  | "StructLit" =>
    return .structLit node (← required "name" text fields)
      (← required "fields" (list read.init) fields)
  | "Try" =>
    return .tryCatch node (← required "body" read.block fields)
      (← defaulted "catches" (pure []) (list read.handler) fields)
      (← optional "finally" read.block fields)
  | "Throw" => return .throw node (← required "expr" read.expr fields)
  | "Await" => return .await node (← required "expr" read.expr fields)
  | "Concurrent" =>
    return .concurrent node (← required "bindings" (list read.binding) fields)
  | "Race" => return .race node (← required "body" read.block fields)
  | _ =>
    return .timeout node (← required "duration" read.expr fields)
      (← required "body" read.block fields)

/-- The forms of a statement. -/
def stmtForms : List String :=
  ["Let", "Expr"]

mutual

/-- Reads an expression that is at most `fuel` deep. -/
def expr : (fuel : Nat) → (isNested : Bool) → Json → Read Expr
  | 0, _ => fun _ => Read.ofOption none
  | fuel + 1, isNested => tagged isNested fun fields => do
    let node ← node fields
    let form ← tag isNested "kind" exprForms fields
    exprOf {
      expr := expr fuel true
      block := block fuel true
      pattern := pattern fuel true
      param := lambdaParam fuel
      arm := matchArm fuel true
      init := fieldInit fuel
      handler := catchClause fuel
      binding := concurrentBinding fuel } node fields form

/-- Reads a block that is at most `fuel` deep. -/
def block : (fuel : Nat) → (isNested : Bool) → Json → Read Block
  | 0, _ => fun _ => Read.ofOption none
  | fuel + 1, isNested => object fun fields => do
    return {
      node := ← node fields
      stmts := ← defaulted "stmts" (pure []) (list (stmt fuel isNested)) fields
      result := ← optional "expr" (expr fuel isNested) fields }

/-- Reads a statement that is at most `fuel` deep. -/
def stmt : (fuel : Nat) → (isNested : Bool) → Json → Read Stmt
  | 0, _ => fun _ => Read.ofOption none
  | fuel + 1, isNested => tagged isNested fun fields => do
    let node ← node fields
    match ← tag isNested "type" stmtForms fields with
    | "Let" =>
      return .letBind node (← required "pattern" (pattern fuel true) fields)
        (← optional "ty" (typeExpr fuel true) fields)
        (← defaulted "mutable" (pure false) truth fields)
        (← required "value" (expr fuel true) fields)
    | _ => return .expr node (← required "expr" (expr fuel true) fields)

/-- Reads a match arm that is at most `fuel` deep. -/
def matchArm : (fuel : Nat) → (isNested : Bool) → Json → Read MatchArm
  | 0, _ => fun _ => Read.ofOption none
  | fuel + 1, isNested => object fun fields => do
    return {
      node := ← node fields
      pattern := ← required "pattern" (pattern fuel isNested) fields
      guard := ← optional "guard" (expr fuel isNested) fields
      body := ← required "body" (expr fuel isNested) fields }

/-- Reads a handler that is at most `fuel` deep. -/
def catchClause : (fuel : Nat) → Json → Read CatchClause
  | 0 => fun _ => Read.ofOption none
  | fuel + 1 => object fun fields => do
    return {
      node := ← node fields
      name := ← required "name" text fields
      ty := ← optional "ty" (typeExpr fuel true) fields
      body := ← required "body" (block fuel true) fields }

/-- Reads a field with its value that is at most `fuel` deep. -/
def fieldInit : (fuel : Nat) → Json → Read FieldInit
  | 0 => fun _ => Read.ofOption none
  | fuel + 1 => object fun fields => do
    return {
      span := ← spanField fields
      name := ← required "name" text fields
      value := ← required "value" (expr fuel true) fields }

/-- Reads a concurrent binding that is at most `fuel` deep. -/
def concurrentBinding : (fuel : Nat) → Json → Read ConcurrentBinding
  | 0 => fun _ => Read.ofOption none
  | fuel + 1 => object fun fields => do
    return {
      node := ← node fields
      name := ← required "name" text fields
      value := ← required "value" (expr fuel true) fields }

end

/-- Reads a parameter. -/
def param (fuel : Nat) : Json → Read Param :=
  object fun fields => do
    return {
      node := ← node fields
      name := ← required "name" text fields
      ty := ← required "ty" (typeExpr fuel true) fields
      isMutable := ← defaulted "mutable" (pure false) truth fields }

/-- Reads the type parameters among the fields of an object. -/
def typeParams : List (String × Json) → Read (List TypeParam) :=
  defaulted "type_params" (pure []) (list typeParam)

/-- Reads the parameters among the fields of an object. -/
def params (fuel : Nat) : List (String × Json) → Read (List Param) :=
  defaulted "params" (pure []) (list (param fuel))

/-- Reads a function from its fields. -/
def functionFields (fuel : Nat) (fields : List (String × Json)) : Read FunctionDecl := do
  return {
    node := ← node fields
    name := ← required "name" text fields
    typeParams := ← typeParams fields
    params := ← params fuel fields
    returnType := ← optional "return_type" (typeExpr fuel true) fields
    isAsync := ← defaulted "is_async" (pure false) truth fields
    body := ← required "body" (block fuel true) fields }

/-- Reads the methods among the fields of an object. -/
def methods (fuel : Nat) : List (String × Json) → Read (List FunctionDecl) :=
  defaulted "methods" (pure []) (list (object (functionFields fuel)))

/-- Reads a declared field. -/
def fieldDecl (fuel : Nat) : Json → Read FieldDecl :=
  object fun fields => do
    return {
      node := ← node fields
      name := ← required "name" text fields
      ty := ← required "ty" (typeExpr fuel true) fields
      isMutable := ← defaulted "mutable" (pure false) truth fields
      initializer := ← optional "initializer" (expr fuel true) fields }

/-- Reads the declared fields among the fields of an object. -/
def fieldDecls (fuel : Nat) : List (String × Json) → Read (List FieldDecl) :=
  defaulted "fields" (pure []) (list (fieldDecl fuel))

/-- Reads a class from its fields. -/
def classFields (fuel : Nat) (fields : List (String × Json)) : Read ClassDecl := do
  return {
    node := ← node fields
    kind := ← defaulted "kind" (pure .plain) (choice true classKinds) fields
    name := ← required "name" text fields
    typeParams := ← typeParams fields
    fields := ← fieldDecls fuel fields
    methods := ← methods fuel fields }

/-- Reads a struct from its fields. -/
def structFields (fuel : Nat) (fields : List (String × Json)) : Read StructDecl := do
  return {
    node := ← node fields
    name := ← required "name" text fields
    typeParams := ← typeParams fields
    fields := ← fieldDecls fuel fields }

/-- Reads a variant. -/
def variantDecl (fuel : Nat) : Json → Read VariantDecl :=
  object fun fields => do
    return {
      node := ← node fields
      name := ← required "name" text fields
      fields := ← fieldDecls fuel fields }

/-- Reads a data type from its fields. -/
def dataFields (fuel : Nat) (fields : List (String × Json)) : Read DataDecl := do
  return {
    node := ← node fields
    name := ← required "name" text fields
    typeParams := ← typeParams fields
    variants := ← required "variants" (list (variantDecl fuel)) fields }

/-- Reads a method that a trait asks for. -/
def methodSig (fuel : Nat) : Json → Read MethodSig :=
  object fun fields => do
    return {
      node := ← node fields
      name := ← required "name" text fields
      typeParams := ← typeParams fields
      params := ← params fuel fields
      returnType := ← optional "return_type" (typeExpr fuel true) fields
      isAsync := ← defaulted "is_async" (pure false) truth fields }

/-- Reads a trait from its fields. -/
def traitFields (fuel : Nat) (fields : List (String × Json)) : Read TraitDecl := do
  return {
    node := ← node fields
    name := ← required "name" text fields
    typeParams := ← typeParams fields
    methods := ← defaulted "methods" (pure []) (list (methodSig fuel)) fields }

/-- Reads an implementation from its fields. -/
def implFields (fuel : Nat) (fields : List (String × Json)) : Read ImplDecl := do
  return {
    node := ← node fields
    traitName := ← optional "trait_name" text fields
    traitArgs := ← defaulted "trait_args" (pure []) (list (typeExpr fuel true)) fields
    typeParams := ← typeParams fields
    target := ← required "target" (typeExpr fuel true) fields
    methods := ← methods fuel fields }

/-- The forms of a declaration. -/
def declForms : List String :=
  ["Function", "Class", "Struct", "Spark", "Data", "Trait", "Interface", "Impl", "Let", "Expr"]

/-- Reads a declaration that is at most `fuel` deep. -/
def decl (fuel : Nat) (j : Json) : Read Decl :=
  tagged false (fun fields => do
    match ← tag false "type" declForms fields with
    | "Function" => return .function (← functionFields fuel fields)
    | "Class" => return .classLike (← classFields fuel fields)
    | "Struct" => return .struct (← structFields fuel fields)
    | "Spark" => return .spark (← structFields fuel fields)
    | "Data" => return .data (← dataFields fuel fields)
    | "Trait" => return .trait (← traitFields fuel fields)
    | "Interface" => return .interface (← traitFields fuel fields)
    | "Impl" => return .impl (← implFields fuel fields)
    | _ => return .script (← stmt fuel false j)) j

/-- Reads a unit. -/
def sourceUnit (j : Json) : Read SourceUnit :=
  object (fun fields => do
    return {
      node := ← node fields
      name := ← defaulted "name" (pure "") text fields
      decls := ← required "decls" (list (decl j.height)) fields }) j

end UnitAnalysis.Document

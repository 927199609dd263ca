import UnitAnalysis.Symbols.Builder

/-!
# Declarations of a unit

The first two rounds over the declarations of a unit. The first one declares the names of all types,
so that they can refer to each other in any order. The second one resolves what the declarations
say: signatures of functions and methods, fields, variants, traits and implementations. Between the
two come the functions that need no declaration.
-/

set_option autoImplicit false

namespace UnitAnalysis

/-- The functions that every unit can call, with their results. -/
def defaultIntrinsics : List (String × Ty) :=
  [("print", .void), ("println", .void), ("readLine", .string), ("toString", .string),
    ("sleep", .future .void)]

/-- What the declaration of a type says about its name. -/
structure TypeHead where
  /-- The name. -/
  name : String
  /-- What declares it. -/
  kind : DeclKind
  /-- The type parameters. -/
  typeParams : List TypeParam
  /-- The identity and place. -/
  node : Node

/-- The name that a declaration of a type declares. -/
def Decl.typeHead? : Decl → Option TypeHead
  | classLike d => some ⟨d.name, .classLike d.kind, d.typeParams, d.node⟩
  | struct d => some ⟨d.name, .struct, d.typeParams, d.node⟩
  | spark d => some ⟨d.name, .spark, d.typeParams, d.node⟩
  | data d => some ⟨d.name, .data, d.typeParams, d.node⟩
  | trait d => some ⟨d.name, .trait, d.typeParams, d.node⟩
  | interface d => some ⟨d.name, .interface, d.typeParams, d.node⟩
  | function _ | impl _ | script _ => none

/-- What the name of a declared type stands for. -/
def DeclKind.symbolKind : DeclKind → SymbolKind
  | classLike _ => .struct
  | struct => .struct
  | spark => .spark
  | data => .data
  | trait => .trait
  | interface => .trait

namespace Build

/-- Sets a declaration aside because its name is taken. -/
def shadow (id : NodeId) : Build Unit :=
  modify fun b => { b with shadowed := id :: b.shadowed }

/-- Whether a declaration lost its name. -/
def isShadowed (id : NodeId) : Build Bool :=
  return id ∈ (← get).shadowed

/-- Whether the global scope has a trait of a name. -/
def isGlobalTrait (name : String) : Build Bool := do
  match (← get).table.scopes.lookupLocal .global name with
  | some symbol => return symbol.kind = .trait
  | none => return false

/-- Declares the name of a type. The second of two traits of one name is set aside without a word,
because the registry of traits reports it. -/
def declareHead (h : TypeHead) : Build Unit := do
  let d : DeclaredType :=
    { name := h.name, kind := h.kind, typeParams := Generics.toTypes h.typeParams,
      span := h.node.span }
  if h.kind.symbolKind = .trait ∧ (← isGlobalTrait h.name) then shadow h.node.id
  else
    let symbol : Symbol :=
      { name := h.name, kind := h.kind.symbolKind, declaredType := some d.selfType,
        origin := some h.node.id, span := h.node.span }
    if ← define .global symbol h.node.span then
      modifyTable fun table => { table with decls := table.decls.declare d }
    else shadow h.node.id

/-- The first round for one declaration. -/
def declareType (d : Decl) : Build Unit :=
  match d.typeHead? with
  | some h => declareHead h
  | none => return ()

/-- Resolves the results of further functions that need no declaration. -/
def resolveIntrinsics : List (String × TypeExpr) → Build (List (String × Ty))
  | [] => return []
  | (name, e) :: rest => do
    let t ← resolve {} e
    return (name, t) :: (← resolveIntrinsics rest)

/-- Defines a function that needs no declaration; a type of its name wins. -/
def defineIntrinsic (name : String) (ret : Ty) : Build Unit := do
  let symbol : Symbol := { name, kind := .function, declaredType := some (.function [] ret) }
  match ← tryDefine .global symbol with
  | .ok () =>
    modifyTable fun table => { table with intrinsics := table.intrinsics.insert name ret }
  | .error _ => return ()

/-- Defines the functions that need no declaration. -/
def seedIntrinsics (extra : List (String × TypeExpr)) : Build Unit := do
  let extra ← resolveIntrinsics extra
  (defaultIntrinsics ++ extra).forM fun (name, ret) => defineIntrinsic name ret

/-- Resolves the types of parameters. -/
def resolveParams (g : Generics) : List Param → Build (List (String × Ty))
  | [] => return []
  | p :: ps => do
    let t ← resolve g p.ty
    return (p.name, t) :: (← resolveParams g ps)

/-- The signature of a method that a trait asks for. -/
def methodSignature (g : Generics) (m : MethodSig) : Build Signature := do
  let g := g.extend m.typeParams
  let params ← resolveParams g m.params
  let ret ← resolveOption g m.returnType
  return {
    name := m.name, typeParams := Generics.toTypes m.typeParams, params, ret,
    isAsync := m.isAsync, origin := m.node.id, span := m.node.span }

/-- The signature of a function, which is remembered. -/
def functionSignature (g : Generics) (f : FunctionDecl) : Build Signature := do
  let s ← methodSignature g
    { node := f.node, name := f.name, typeParams := f.typeParams, params := f.params,
      returnType := f.returnType, isAsync := f.isAsync }
  recordSignature s
  return s

/-- The signatures of several functions. -/
def functionSignatures (g : Generics) : List FunctionDecl → Build (List Signature)
  | [] => return []
  | f :: fs => do
    let s ← functionSignature g f
    return s :: (← functionSignatures g fs)

/-- The signatures of the methods that a trait asks for. -/
def methodSignatures (g : Generics) : List MethodSig → Build (List Signature)
  | [] => return []
  | m :: ms => do
    let s ← methodSignature g m
    return s :: (← methodSignatures g ms)

/-- Resolves the fields of `owner`, after those that are resolved already. The second field of a
name is reported and left out. -/
def resolveFields (owner : String) (isFrozen : Bool) (g : Generics) (before : List Field) :
    List FieldDecl → Build (List Field)
  | [] => return before
  | f :: fs => do
    let ty ← resolve g f.ty
    annotate f.node.id ty
    if before.any (·.name = f.name) then
      report [⟨.duplicateMember owner f.name, f.node.span⟩]
      resolveFields owner isFrozen g before fs
    else
      let field : Field :=
        { name := f.name, ty, isMutable := f.isMutable && !isFrozen, span := f.node.span }
      resolveFields owner isFrozen g (before ++ [field]) fs

/-- Collects the methods of a class. One that has the name of a field or of an earlier method is
reported and left out. -/
def collectMethods (owner : String) (fields : List Field) (g : Generics)
    (before : Table String Signature) : List FunctionDecl → Build (Table String Signature)
  | [] => return before
  | m :: ms => do
    let s ← functionSignature g m
    if before.contains m.name || fields.any (·.name = m.name) then
      report [⟨.duplicateMember owner m.name, m.node.span⟩]
      collectMethods owner fields g before ms
    else collectMethods owner fields g (before.insert m.name s) ms

/-- Fills in the members of a declared type, unless the declaration lost its name. -/
def fillType (id : NodeId) (name : String) (f : DeclaredType → DeclaredType) : Build Unit := do
  if ← isShadowed id then return ()
  else modifyTable fun table => { table with decls := table.decls.modify name f }

/-- The second round for a class. -/
def declareClass (c : ClassDecl) : Build Unit := do
  let g := typeGenerics (← get).table.decls c.name c.typeParams
  let fields ← resolveFields c.name false g [] c.fields
  let methods ← collectMethods c.name fields g {} c.methods
  fillType c.node.id c.name fun d => { d with fields, methods }

/-- The second round for a struct or, with all fields fixed, for a spark. -/
def declareStruct (isSpark : Bool) (s : StructDecl) : Build Unit := do
  let g := typeGenerics (← get).table.decls s.name s.typeParams
  let fields ← resolveFields s.name isSpark g [] s.fields
  fillType s.node.id s.name fun d => { d with fields }

/-- The second round for the variants of a data type, after those with the names `seen`. -/
def declareVariants (d : DataDecl) (g : Generics) (self : Ty) (seen : List String) :
    List VariantDecl → Build Unit
  | [] => return ()
  | v :: vs => do
    if v.name ∈ seen then
      report [⟨.duplicateMember d.name v.name, v.node.span⟩]
      declareVariants d g self seen vs
    else
      let fields ← resolveFields v.name true g [] v.fields
      let symbol : Symbol :=
        { name := v.name, kind := .function,
          declaredType := some (.function (fields.map fun f => f.ty) self),
          origin := some v.node.id, span := v.node.span }
      let isDefined ← define .global symbol v.node.span
      if isDefined && !(← isShadowed d.node.id) then
        let entry := { name := v.name, parent := d.name, fields }
        modifyTable fun table => { table with decls := table.decls.addVariant entry }
      declareVariants d g self (v.name :: seen) vs

/-- The second round for a data type. -/
def declareData (d : DataDecl) : Build Unit := do
  let ix := (← get).table.decls
  declareVariants d (typeGenerics ix d.name d.typeParams) (selfType ix d.name) [] d.variants

/-- The second round for a trait or interface. -/
def declareTrait (isInterface : Bool) (t : TraitDecl) : Build Unit := do
  let g := (Generics.extend {} t.typeParams).withAlias "Self" (.bounded "Self" [t.name])
  let methods ← methodSignatures g t.methods
  let trait : Trait :=
    { name := t.name, typeParams := Generics.toTypes t.typeParams, methods, isInterface,
      span := t.node.span, origin := t.node.id }
  modify fun b => { b with traits := b.traits ++ [trait] }

/-- The second round for an implementation. -/
def declareImpl (i : ImplDecl) : Build Unit := do
  let g := Generics.extend {} i.typeParams
  let target ← resolve g i.target
  let traitArgs ← resolveAll g i.traitArgs
  let methods ← functionSignatures (g.withAlias "Self" target) i.methods
  let impl : Implementation :=
    { traitName := i.traitName, traitArgs, target, typeParams := Generics.toTypes i.typeParams,
      methods, span := i.node.span, origin := i.node.id }
  modify fun b => { b with impls := b.impls ++ [impl] }

/-- The second round for a function. -/
def declareFunction (f : FunctionDecl) : Build Unit := do
  let s ← functionSignature {} f
  let symbol : Symbol :=
    { name := f.name, kind := .function, declaredType := some s.functionType, isAsync := f.isAsync,
      origin := some f.node.id, span := f.node.span }
  let _ ← define .global symbol f.node.span

/-- The second round for one declaration. -/
def declareMembers : Decl → Build Unit
  | .function d => declareFunction d
  | .classLike d => declareClass d
  | .struct d => declareStruct false d
  | .spark d => declareStruct true d
  | .data d => declareData d
  | .trait d => declareTrait false d
  | .interface d => declareTrait true d
  | .impl d => declareImpl d
  | .script _ => return ()

end Build

end UnitAnalysis

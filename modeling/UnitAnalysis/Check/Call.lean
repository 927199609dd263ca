import UnitAnalysis.Check.Context
import UnitAnalysis.Trait.Dispatch

/-!
# Calls

The type of a call from the types of its arguments. Type parameters take their types from the
arguments, the first argument that says something about a parameter decides, and the bounds of the
parameters are checked against what was found.
-/

set_option autoImplicit false

namespace UnitAnalysis

/-- What a call goes against: the name for messages, the parameters, the result and the type
parameters that the call may choose. -/
structure CallTarget where
  /-- The name. -/
  name : String
  /-- The types of the parameters. -/
  params : List Ty
  /-- The type of the result. -/
  ret : Ty
  /-- The type parameters, with their bounds. -/
  typeParams : List Ty := []

/-- The target that a signature is. -/
def Signature.callTarget (s : Signature) : CallTarget :=
  { name := s.name, params := s.paramTypes, ret := s.returnType, typeParams := s.typeParams }

/-- An argument: its type and its place. -/
structure Argument where
  /-- The type. -/
  ty : Ty
  /-- The place. -/
  span : Span

namespace Check

/-- What the arguments say about the type parameters. -/
def bindArguments (s : Subst) : (params : List Ty) → (args : List Argument) → Subst
  | p :: params, a :: args => bindArguments (s.bind p a.ty).2 params args
  | _, _ => s

/-- What is wrong with the arguments from a position on. An argument whose parameter is still open
is not judged. -/
def argumentFindings (callee : String) (s : Subst) (position : Nat) :
    (params : List Ty) → (args : List Argument) → List Finding
  | p :: params, a :: args =>
    let expected := s.apply p
    let here : List Finding :=
      if !expected.hasParams && !expected.accepts a.ty then
        [⟨.argumentMismatch position callee expected a.ty, a.span⟩]
      else []
    here ++ argumentFindings callee s (position + 1) params args
  | _, _ => []

/-- What is wrong with the type found for a parameter: the bounds that it does not implement. -/
def boundFindings (r : Registry) (callee parameter : String) (bounds : NameSet) (found : Ty)
    (span : Span) : List Finding :=
  (bounds.names.filter fun bound => !r.implements found bound).map fun bound =>
    ⟨.unsatisfiedBound found bound parameter callee, span⟩

/-- Checks the bounds of type parameters. A parameter that the arguments leave open becomes `Any`.
-/
def closeParams (r : Registry) (callee : String) (span : Span) (s : Subst) :
    (typeParams : List Ty) → Judged Subst
  | [] => (s, [])
  | .param name bounds :: rest =>
    match s.get? name with
    | some found =>
      let (s', more) := closeParams r callee span s rest
      (s', boundFindings r callee name bounds found span ++ more)
    | none => closeParams r callee span (s.insert name .any) rest
  | _ :: rest => closeParams r callee span s rest

/-- What is wrong with the number of arguments. -/
def countFindings (target : CallTarget) (args : List Argument) (span : Span) : List Finding :=
  if target.params.length = args.length then []
  else [⟨.argumentCount target.name target.params.length args.length, span⟩]

/-- The type of a call, with everything that is wrong with it. -/
def applyTarget (r : Registry) (target : CallTarget) (args : List Argument) (span : Span) :
    Judged Ty :=
  let bound := bindArguments {} target.params args
  let (closed, unsatisfied) := closeParams r target.name span bound target.typeParams
  (closed.apply target.ret,
    countFindings target args span
      ++ argumentFindings target.name bound 1 target.params args
      ++ unsatisfied)

/-- The type of a call of a value. -/
def callValue (callee : Ty) (span : Span) : Judged Ty :=
  match callee with
  | .function _ ret => (ret, [])
  | .prim .any => (.any, [])
  | t => (.any, [⟨.notCallable t, span⟩])

/-- The type parameters of the function that a symbol stands for. -/
def symbolTypeParams (table : SymbolTable) (symbol : Symbol) : List Ty :=
  match symbol.origin.bind table.functions.get? with
  | some s => s.typeParams
  | none => []

/-- The result of a function that needs no declaration, when a symbol is one. Only a global symbol
that no declaration gave rise to can be. -/
def intrinsicType? (table : SymbolTable) (owner : ScopeId) (symbol : Symbol) : Option Ty :=
  if owner = .global ∧ symbol.origin = none then table.intrinsics.get? symbol.name else none

/-- The type of a call of a name that is bound in the scope `owner`. -/
def callSymbol (ctx : Context) (owner : ScopeId) (symbol : Symbol) (args : List Argument)
    (span : Span) : Judged Ty :=
  match intrinsicType? ctx.table owner symbol with
  | some ret => (ret, [])
  | none =>
    match symbol.kind, symbol.ty with
    | .function, .function params ret =>
      applyTarget ctx.registry
        { name := symbol.name, params, ret, typeParams := symbolTypeParams ctx.table symbol }
        args span
    | .struct, t => (t, [])
    | .spark, t => (t, [])
    | _, t => callValue t span

/-- The methods that every value or every container has. -/
def builtinMethod? (receiver : Ty) (method : String) : Option Ty :=
  if method = "toString" then some .string
  else if receiver.elementType?.isNone then none
  else if method ∈ ["len", "length", "size"] then some .int
  else if method ∈ ["isEmpty", "contains"] then some .bool
  else if method ∈ ["push", "append", "clear"] then some .void
  else if method = "get" then receiver.indexType?.map .optional
  else none

/-- The type of a call of a method that no class declares. -/
def callTraitMethod (ctx : Context) (receiver : Ty) (method : String) (args : List Argument)
    (span : Span) : Judged Ty :=
  match ctx.registry.resolveMethod receiver method with
  | .inherent s => applyTarget ctx.registry s.callTarget args span
  | .ofTrait _ s => applyTarget ctx.registry s.callTarget args span
  | .ambiguous traits => (.any, [⟨.ambiguousMethod method receiver traits, span⟩])
  | .unresolved =>
    match builtinMethod? receiver method with
    | some t => (t, [])
    | none => (.any, [⟨.unresolvedMethod method receiver, span⟩])

/-- The type of a call of a method. The methods of classes come before those of implementations, and
those before the methods that need no declaration. -/
def callMethod (ctx : Context) (receiver : Ty) (qualifier : Option String) (method : String)
    (args : List Argument) (span : Span) : Judged Ty :=
  match qualifier with
  | some trait =>
    match ctx.registry.qualifiedOutcome receiver trait method span with
    | (some s, _) => applyTarget ctx.registry s.callTarget args span
    | (none, found) => (.any, found)
  | none =>
    if receiver.isAny then (.any, [])
    else
      match ctx.decls.methodOf receiver method with
      | some s => applyTarget ctx.registry s.callTarget args span
      | none => callTraitMethod ctx receiver method args span

end Check

end UnitAnalysis

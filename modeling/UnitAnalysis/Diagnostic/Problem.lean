import UnitAnalysis.Diagnostic.Basic
import UnitAnalysis.Syntax.Expr
import UnitAnalysis.Ty.Basic

/-!
# Problems

A `Problem` is what the analysis found wrong, with all that is worth saying about it, and a
`Finding` is a problem at a place. The rest of the analysis speaks in problems only: their codes,
severities and wordings are fixed here. The severity hangs on the kind of problem alone, except for
the result of an asynchronous function, where the problem carries the severity that was asked for.
-/

set_option autoImplicit false

namespace UnitAnalysis

/-- The constructs that only asynchronous code may use. -/
inductive AsyncForm where
  | await | concurrent | race | timeout
  deriving DecidableEq, Repr

/-- The way a construct is written. -/
def AsyncForm.keyword : AsyncForm → String
  | await => "await"
  | concurrent => "concurrent"
  | race => "race"
  | timeout => "timeout"

/-- What is wrong. -/
inductive Problem where
  /-- A scope has a second definition of a name. -/
  | duplicateDefinition (name : String) (first : Span)
  /-- A declaration has a second member of a name. -/
  | duplicateMember (owner member : String)
  /-- A pattern binds a name again. -/
  | duplicateBinding (name : String)
  /-- Only one side of a choice binds a name. -/
  | oneSidedBinding (name : String)
  /-- A name is bound nowhere. -/
  | unresolvedName (name : String)
  /-- An element of an array differs from those before it. -/
  | elementMismatch (expected found : Ty)
  /-- A value differs from the written type of its binding. -/
  | bindingMismatch (declared found : Ty)
  /-- An argument differs from its parameter; positions count from 1. -/
  | argumentMismatch (position : Nat) (callee : String) (expected found : Ty)
  /-- A field of a struct literal differs from its declaration. -/
  | fieldMismatch (owner field : String) (expected found : Ty)
  /-- A written type names no type. -/
  | unknownType (name : String)
  /-- A struct literal names no type. -/
  | unknownStruct (name : String)
  /-- The operands of an arithmetic, bitwise or logical operator do not suit it. -/
  | operands (op : BinaryOp) (left right : Ty)
  /-- Two values of types that do not fit together are compared. -/
  | comparison (op : BinaryOp) (left right : Ty)
  /-- A call has too many or too few arguments. -/
  | argumentCount (callee : String) (expected found : Nat)
  /-- A type has no such field. -/
  | unknownField (receiver : Ty) (field : String)
  /-- A struct literal gives a field that its type does not have. -/
  | unknownInitializer (owner field : String)
  /-- A construct is used in code that is not asynchronous, perhaps in a named function. -/
  | outsideAsync (form : AsyncForm) (callable : Option String)
  /-- A type has no such method. -/
  | unresolvedMethod (method : String) (receiver : Ty)
  /-- A value that is no function is called. -/
  | notCallable (found : Ty)
  /-- The operand of `-` or `!` does not suit it. -/
  | unaryOperand (op : UnaryOp) (found : Ty)
  /-- `?` stands after a value that is not optional. -/
  | unwrap (found : Ty)
  /-- `!!` stands after a value that is not optional. -/
  | forceUnwrap (found : Ty)
  /-- A condition is no truth value. -/
  | condition (found : Ty)
  /-- A value cannot be indexed. -/
  | notIndexable (found : Ty)
  /-- A value cannot be iterated over. -/
  | notIterable (found : Ty)
  /-- A `concurrent` block binds a name again. -/
  | duplicateConcurrent (name : String)
  /-- The duration of a `timeout` is no number. -/
  | timeoutDuration (found : Ty)
  /-- A name is assigned to that is not mutable. -/
  | immutableTarget (name : String) (declaredAt : Span)
  /-- A value is assigned to a target of another type. -/
  | assignmentMismatch (target value : Ty)
  /-- Something is assigned to that is no target. -/
  | invalidTarget
  /-- The first value of a field differs from its declaration. -/
  | initializerMismatch (owner field : String) (declared found : Ty)
  /-- A function returns another type than it declares. -/
  | returnMismatch (function : String) (declared found : Ty)
  /-- An asynchronous function returns another type than it declares. -/
  | asyncReturnMismatch (severity : Severity) (function : String) (declared found : Ty)
  /-- `return` stands in no function. -/
  | returnOutside
  /-- A trait is declared again. -/
  | duplicateTrait (name : String) (first : Span)
  /-- A trait declares a method again. -/
  | duplicateTraitMethod (trait method : String)
  /-- A method of a trait has no written result. -/
  | missingReturnType (trait method : String)
  /-- An implementation is of a trait that is not declared. -/
  | unknownImplTrait (name : String)
  /-- A qualified call names a trait that is not declared. -/
  | unknownTrait (name : String)
  /-- An implementation lacks a method of its trait, which asks for it at the given place. -/
  | missingMethod (method trait : String) (target : Ty) (required : Span)
  /-- A method of an implementation has another number of parameters than its trait says. -/
  | parameterCount (method trait : String) (provided required : Nat)
  /-- A parameter of a method of an implementation has another type than its trait says. -/
  | parameterType (position : Nat) (parameter method trait : String) (provided required : Ty)
  /-- A method of an implementation has another result than its trait says. -/
  | resultType (method trait : String) (provided required : Ty)
  /-- Several traits have the method that is called. -/
  | ambiguousMethod (method : String) (receiver : Ty) (traits : List String)
  /-- A qualified call names a trait without that method. -/
  | traitLacksMethod (trait method : String)
  /-- A qualified call names a trait that the receiver does not implement. -/
  | notImplemented (receiver : Ty) (trait : String)
  /-- The implementation that a qualified call selects lacks the method. -/
  | noConcreteMethod (trait method : String) (receiver : Ty)
  /-- The type found for a type parameter does not implement one of its bounds. -/
  | unsatisfiedBound (found : Ty) (bound parameter callee : String)
  /-- An implementation has a method that its trait does not declare. -/
  | methodNotInTrait (method trait : String)
  /-- A trait is implemented again for the same type. -/
  | duplicateImpl (trait : String) (target : Ty)
  /-- A match has no arms. -/
  | emptyMatch
  /-- A match on a data type leaves out variants. -/
  | missingVariants (variants : List String)
  /-- A match on another type has no arm for all values. -/
  | notExhaustive (scrutinee : Ty)
  /-- An arm stands after one for all values. -/
  | unreachableArm
  deriving Repr

namespace Problem

/-- The code of a problem. -/
@[simp] def code : Problem → Code
  | duplicateDefinition _ _ => .duplicateDefinition
  | duplicateMember _ _ => .duplicateMember
  | duplicateBinding _ => .duplicatePatternBinding
  | oneSidedBinding _ => .orPatternBindingMismatch
  | unresolvedName _ => .unresolvedIdentifier
  | elementMismatch _ _ | bindingMismatch _ _ | argumentMismatch _ _ _ _
  | fieldMismatch _ _ _ _ => .typeMismatch
  | unknownType _ | unknownStruct _ => .unknownType
  | operands op _ _ =>
    match op.family with
    | .arithmetic => .arithmeticOperands
    | .bitwise => .bitwiseOperands
    | .comparison => .comparisonOperands
    | .logical => .logicalOperands
  | comparison _ _ _ => .comparisonOperands
  | argumentCount _ _ _ => .wrongArgumentCount
  | unknownField _ _ | unknownInitializer _ _ => .unknownField
  | outsideAsync .await _ => .awaitOutsideAsync
  | outsideAsync .concurrent _ => .concurrentOutsideAsync
  | outsideAsync .race _ => .raceOutsideAsync
  | outsideAsync .timeout _ => .timeoutOutsideAsync
  | unresolvedMethod _ _ => .unresolvedMethod
  | notCallable _ => .notCallable
  | unaryOperand _ _ => .unaryOperand
  | unwrap _ => .unwrapNonOptional
  | forceUnwrap _ => .forceUnwrapNonOptional
  | condition _ => .nonBoolCondition
  | notIndexable _ => .notIndexable
  | notIterable _ => .notIterable
  | duplicateConcurrent _ => .duplicateConcurrentBinding
  | timeoutDuration _ => .nonNumericTimeout
  | immutableTarget _ _ => .assignToImmutable
  | assignmentMismatch _ _ => .assignmentTypeMismatch
  | invalidTarget => .invalidAssignmentTarget
  | initializerMismatch _ _ _ _ => .fieldInitializerMismatch
  | returnMismatch _ _ _ => .returnTypeMismatch
  | asyncReturnMismatch _ _ _ _ => .asyncReturnTypeMismatch
  | returnOutside => .returnOutsideFunction
  | duplicateTrait _ _ => .duplicateTrait
  | duplicateTraitMethod _ _ => .duplicateTraitMethod
  | missingReturnType _ _ => .missingReturnType
  | unknownImplTrait _ | unknownTrait _ => .unknownTrait
  | missingMethod _ _ _ _ => .missingMethod
  | parameterCount _ _ _ _ => .parameterCountMismatch
  | parameterType _ _ _ _ _ _ => .parameterTypeMismatch
  | resultType _ _ _ _ => .methodReturnMismatch
  | ambiguousMethod _ _ _ => .ambiguousMethod
  | traitLacksMethod _ _ => .traitLacksMethod
  | notImplemented _ _ => .typeDoesNotImplement
  | noConcreteMethod _ _ _ => .noConcreteMethod
  | unsatisfiedBound _ _ _ _ => .unsatisfiedBound
  | methodNotInTrait _ _ => .methodNotInTrait
  | duplicateImpl _ _ => .duplicateImpl
  | emptyMatch => .emptyMatch
  | missingVariants _ | notExhaustive _ => .nonExhaustiveMatch
  | unreachableArm => .unreachableArm

/-- How bad a problem is. -/
def severity : Problem → Severity
  | forceUnwrap _ => .warning
  | missingVariants _ | notExhaustive _ => .warning
  | unreachableArm => .warning
  | asyncReturnMismatch severity _ _ _ => severity
  | _ => .error

/-- A text between backticks. -/
def ticked (s : String) : String :=
  "`" ++ s ++ "`"

/-- A type between backticks. -/
def tickedTy (t : Ty) : String :=
  ticked t.name

/-- What the operands of an operator must be. -/
def wantedOperands (op : BinaryOp) : String :=
  match op.family with
  | .arithmetic => "numeric"
  | .bitwise => "`Int`"
  | .comparison => "comparable"
  | .logical => "`Bool`"

/-- The wording of a mismatch between what a function declares and what it returns. -/
def returnMessage (function : String) (declared found : Ty) : String :=
  ticked function ++ " declares return type " ++ tickedTy declared ++ " but returns "
    ++ tickedTy found

/-- The wording of a problem. -/
def message : Problem → String
  | duplicateDefinition name _ => ticked name ++ " is already defined in this scope"
  | duplicateMember owner member =>
    ticked owner ++ " declares " ++ ticked member ++ " more than once"
  | duplicateBinding name => ticked name ++ " is bound more than once in the same pattern"
  | oneSidedBinding name => ticked name ++ " is not bound on both sides of the or-pattern"
  | unresolvedName name => "Unresolved identifier " ++ ticked name
  | elementMismatch expected found =>
    "Array elements must share one type: expected " ++ tickedTy expected ++ ", found "
      ++ tickedTy found
  | bindingMismatch declared found =>
    "Expected " ++ tickedTy declared ++ " but the value has type " ++ tickedTy found
  | argumentMismatch position callee expected found =>
    "Argument " ++ toString position ++ " of " ++ ticked callee ++ " expects " ++ tickedTy expected
      ++ ", found " ++ tickedTy found
  | fieldMismatch owner field expected found =>
    "Field " ++ ticked field ++ " of " ++ ticked owner ++ " expects " ++ tickedTy expected
      ++ ", found " ++ tickedTy found
  | unknownType name | unknownStruct name => "Unknown type " ++ ticked name
  | operands op left right =>
    "Operator " ++ ticked op.symbol ++ " cannot be applied to " ++ tickedTy left ++ " and "
      ++ tickedTy right
  | comparison op left right =>
    "Cannot compare " ++ tickedTy left ++ " with " ++ tickedTy right ++ " using "
      ++ ticked op.symbol
  | argumentCount callee expected found =>
    ticked callee ++ " expects " ++ toString expected ++ " argument(s), found " ++ toString found
  | unknownField receiver field =>
    "Type " ++ tickedTy receiver ++ " has no field " ++ ticked field
  | unknownInitializer owner field => ticked owner ++ " has no field " ++ ticked field
  | outsideAsync form _ => ticked form.keyword ++ " is only allowed inside an async function"
  | unresolvedMethod method receiver =>
    "No method " ++ ticked method ++ " on type " ++ tickedTy receiver
  | notCallable found => "Type " ++ tickedTy found ++ " is not callable"
  | unaryOperand op found =>
    let (symbol, wanted) := if op = .neg then ("-", "numeric") else ("!", "`Bool`")
    "Operator " ++ ticked symbol ++ " expects a " ++ wanted ++ " operand, found " ++ tickedTy found
  | unwrap found => "Cannot unwrap non-optional type " ++ tickedTy found
  | forceUnwrap found => "Force-unwrapping non-optional type " ++ tickedTy found
  | condition found => "Condition must be `Bool`, found " ++ tickedTy found
  | notIndexable found => "Type " ++ tickedTy found ++ " cannot be indexed"
  | notIterable found => "Type " ++ tickedTy found ++ " is not iterable"
  | duplicateConcurrent name =>
    ticked name ++ " is bound more than once in this `concurrent` block"
  | timeoutDuration found => "Timeout duration must be numeric, found " ++ tickedTy found
  | immutableTarget name _ => "Cannot assign twice to immutable " ++ ticked name
  | assignmentMismatch target value =>
    "Cannot assign " ++ tickedTy value ++ " to a target of type " ++ tickedTy target
  | invalidTarget => "Invalid assignment target"
  | initializerMismatch owner field declared found =>
    "Field " ++ ticked (owner ++ "." ++ field) ++ " is declared " ++ tickedTy declared
      ++ " but initialized with " ++ tickedTy found
  | returnMismatch function declared found => returnMessage function declared found
  | asyncReturnMismatch _ function declared found => returnMessage function declared found
  | returnOutside => "`return` outside of a function"
  | duplicateTrait name _ => "Trait " ++ ticked name ++ " is already declared"
  | duplicateTraitMethod trait method =>
    "Trait " ++ ticked trait ++ " declares method " ++ ticked method ++ " more than once"
  | missingReturnType trait method =>
    "Trait method " ++ ticked (trait ++ "::" ++ method) ++ " must declare a return type"
  | unknownImplTrait name => "Cannot implement unknown trait " ++ ticked name
  | unknownTrait name => "Unknown trait " ++ ticked name
  | missingMethod method trait target _ =>
    "Missing method " ++ ticked method ++ " in impl of " ++ ticked trait ++ " for "
      ++ tickedTy target
  | parameterCount method trait provided required =>
    "Method " ++ ticked method ++ " takes " ++ toString provided ++ " parameter(s) but "
      ++ ticked trait ++ " declares " ++ toString required
  | parameterType position parameter method trait provided required =>
    "Parameter " ++ toString position ++ " (" ++ ticked parameter ++ ") of " ++ ticked method
      ++ " has type " ++ tickedTy provided ++ ", but " ++ ticked trait ++ " expects "
      ++ tickedTy required
  | resultType method trait provided required =>
    "Method " ++ ticked method ++ " returns " ++ tickedTy provided ++ ", but " ++ ticked trait
      ++ " expects " ++ tickedTy required
  | ambiguousMethod method receiver traits =>
    "ambiguous method " ++ ticked method ++ " on " ++ tickedTy receiver ++ "; candidates: "
      ++ String.intercalate ", " traits
  | traitLacksMethod trait method => "Trait " ++ ticked trait ++ " has no method " ++ ticked method
  | notImplemented receiver trait => tickedTy receiver ++ " does not implement " ++ ticked trait
  | noConcreteMethod trait method receiver =>
    "The impl of " ++ ticked trait ++ " for " ++ tickedTy receiver ++ " provides no "
      ++ ticked method
  | unsatisfiedBound found bound parameter callee =>
    tickedTy found ++ " does not implement " ++ ticked bound ++ ", required by "
      ++ ticked (parameter ++ ": " ++ bound) ++ " in " ++ ticked callee
  | methodNotInTrait method trait =>
    "Method " ++ ticked method ++ " is not a member of trait " ++ ticked trait
  | duplicateImpl trait target =>
    ticked trait ++ " is already implemented for " ++ tickedTy target
  | emptyMatch => "Match expression has no arms"
  | missingVariants variants =>
    "Non-exhaustive match: missing variant(s) " ++ String.intercalate ", " (variants.map ticked)
  | notExhaustive scrutinee => "Match on " ++ tickedTy scrutinee ++ " may not be exhaustive"
  | unreachableArm => "Unreachable match arm: an earlier arm matches every value"

/-- A note about another place, when that place is known. -/
def noteAt (message : String) (span : Span) : List Note :=
  if span.isKnown then [{ message, span := some span }] else []

/-- The notes on a problem. -/
def notes : Problem → List Note
  | duplicateDefinition _ first => noteAt "first defined here" first
  | operands op _ _ => [{ message := "both operands must be " ++ wantedOperands op }]
  | outsideAsync _ (some callable) => [{ message := ticked callable ++ " is not async" }]
  | immutableTarget _ declaredAt => noteAt "declared here" declaredAt
  | duplicateTrait _ first => noteAt "first declared here" first
  | missingMethod _ _ _ required =>
    [{ message := "required by this signature", span := some required }]
  | _ => []

/-- The ways to mend a problem. -/
def suggestions : Problem → List Suggestion
  | unknownType name =>
    [{ title := "Declare " ++ ticked name ++ " or add it as a type parameter" }]
  | outsideAsync _ _ => [{ title := "Add `async` to the enclosing function" }]
  | forceUnwrap _ => [{ title := "Remove the `!!`" }]
  | immutableTarget name _ => [{ title := "Declare it with " ++ ticked ("let mut " ++ name) }]
  | missingReturnType _ _ => [{ title := "Add `-> Void` if the method returns nothing" }]
  | ambiguousMethod method _ traits =>
    [{ title := "Qualify the call, e.g. " ++ ticked (traits.head?.getD "" ++ "::" ++ method) }]
  | notImplemented receiver trait =>
    [{ title := "Add " ++ ticked ("impl " ++ trait ++ " for " ++ receiver.name) }]
  | missingVariants _ | notExhaustive _ =>
    [{ title := "Add a trailing `_` arm", replacement := some "_ => ..." }]
  | _ => []

end Problem

/-- A problem at a place. -/
structure Finding where
  /-- What is wrong. -/
  problem : Problem
  /-- Where it is wrong. -/
  span : Span
  deriving Repr

/-- A result together with what was found on the way to it. -/
abbrev Judged (α : Type) := α × List Finding

namespace Finding

/-- The code of a finding. -/
def code (f : Finding) : Code :=
  f.problem.code

@[simp] theorem code_mk (p : Problem) (span : Span) : (⟨p, span⟩ : Finding).code = p.code := rfl

/-- What is shown to the user. -/
def toDiagnostic (f : Finding) : Diagnostic :=
  { code := f.problem.code.text, severity := f.problem.severity, message := f.problem.message,
    span := f.span, notes := f.problem.notes, suggestions := f.problem.suggestions }

end Finding

end UnitAnalysis

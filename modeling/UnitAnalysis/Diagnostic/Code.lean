/-!
# Diagnostic codes

Every problem that the analysis reports has a stable code. `Code.text` is the code as the user sees
it, and `Code.explanation` is the long form that the `explain` command prints.
-/

set_option autoImplicit false

namespace UnitAnalysis

/-- The kinds of problems that are reported. -/
inductive Code where
  | duplicateDefinition
  | duplicateMember
  | duplicatePatternBinding
  | orPatternBindingMismatch
  | unresolvedIdentifier
  | typeMismatch
  | unknownType
  | arithmeticOperands
  | bitwiseOperands
  | comparisonOperands
  | logicalOperands
  | wrongArgumentCount
  | unknownField
  | awaitOutsideAsync
  | unresolvedMethod
  | notCallable
  | unaryOperand
  | unwrapNonOptional
  | forceUnwrapNonOptional
  | nonBoolCondition
  | notIndexable
  | notIterable
  | concurrentOutsideAsync
  | raceOutsideAsync
  | timeoutOutsideAsync
  | duplicateConcurrentBinding
  | nonNumericTimeout
  | assignToImmutable
  | assignmentTypeMismatch
  | invalidAssignmentTarget
  | fieldInitializerMismatch
  | returnTypeMismatch
  | asyncReturnTypeMismatch
  | returnOutsideFunction
  | duplicateTrait
  | duplicateTraitMethod
  | missingReturnType
  | unknownTrait
  | missingMethod
  | parameterCountMismatch
  | parameterTypeMismatch
  | methodReturnMismatch
  | ambiguousMethod
  | traitLacksMethod
  | typeDoesNotImplement
  | noConcreteMethod
  | unsatisfiedBound
  | methodNotInTrait
  | duplicateImpl
  | emptyMatch
  | nonExhaustiveMatch
  | unreachableArm
  deriving DecidableEq, Repr

namespace Code

/-- All codes. -/
def all : List Code :=
  [duplicateDefinition, duplicateMember, duplicatePatternBinding, orPatternBindingMismatch,
    unresolvedIdentifier, typeMismatch, unknownType, arithmeticOperands, bitwiseOperands,
    comparisonOperands, logicalOperands, wrongArgumentCount, unknownField, awaitOutsideAsync,
    unresolvedMethod, notCallable, unaryOperand, unwrapNonOptional, forceUnwrapNonOptional,
    nonBoolCondition, notIndexable, notIterable, concurrentOutsideAsync, raceOutsideAsync,
    timeoutOutsideAsync, duplicateConcurrentBinding, nonNumericTimeout, assignToImmutable,
    assignmentTypeMismatch, invalidAssignmentTarget, fieldInitializerMismatch,
    returnTypeMismatch, asyncReturnTypeMismatch, returnOutsideFunction, duplicateTrait,
    duplicateTraitMethod, missingReturnType, unknownTrait, missingMethod, parameterCountMismatch,
    parameterTypeMismatch, methodReturnMismatch, ambiguousMethod, traitLacksMethod,
    typeDoesNotImplement, noConcreteMethod, unsatisfiedBound, methodNotInTrait, duplicateImpl,
    emptyMatch, nonExhaustiveMatch, unreachableArm]

/-- A code as it is shown. -/
def text : Code → String
  | duplicateDefinition => "STB001"
  | duplicateMember => "STB002"
  | duplicatePatternBinding => "STB003"
  | orPatternBindingMismatch => "STB004"
  | unresolvedIdentifier => "TC001"
  | typeMismatch => "TC002"
  | unknownType => "TC003"
  | arithmeticOperands => "TC004"
  | bitwiseOperands => "TC005"
  | comparisonOperands => "TC006"
  | logicalOperands => "TC007"
  | wrongArgumentCount => "TC008"
  | unknownField => "TC009"
  | awaitOutsideAsync => "TC010"
  | unresolvedMethod => "TC011"
  | notCallable => "TC012"
  | unaryOperand => "TC013"
  | unwrapNonOptional => "TC014"
  | forceUnwrapNonOptional => "TC015"
  | nonBoolCondition => "TC016"
  | notIndexable => "TC017"
  | notIterable => "TC018"
  | concurrentOutsideAsync => "TC019"
  | raceOutsideAsync => "TC020"
  | timeoutOutsideAsync => "TC021"
  | duplicateConcurrentBinding => "TC022"
  | nonNumericTimeout => "TC023"
  | assignToImmutable => "TC024"
  | assignmentTypeMismatch => "TC025"
  | invalidAssignmentTarget => "TC026"
  | fieldInitializerMismatch => "TC027"
  | returnTypeMismatch => "TC030"
  | asyncReturnTypeMismatch => "TC031"
  | returnOutsideFunction => "TC032"
  | duplicateTrait => "TRAIT001"
  | duplicateTraitMethod => "TRAIT002"
  | missingReturnType => "TRAIT003"
  | unknownTrait => "TRAIT004"
  | missingMethod => "TRAIT005"
  | parameterCountMismatch => "TRAIT006"
  | parameterTypeMismatch => "TRAIT007"
  | methodReturnMismatch => "TRAIT008"
  | ambiguousMethod => "TRAIT009"
  | traitLacksMethod => "TRAIT010"
  | typeDoesNotImplement => "TRAIT011"
  | noConcreteMethod => "TRAIT012"
  | unsatisfiedBound => "TRAIT013"
  | methodNotInTrait => "TRAIT014"
  | duplicateImpl => "TRAIT015"
  | emptyMatch => "EXH001"
  | nonExhaustiveMatch => "EXH002"
  | unreachableArm => "EXH003"

/-- What a code means. -/
def explanation : Code → String
  | duplicateDefinition =>
    "A name was defined twice in the same scope. Shadowing a name from an enclosing "
      ++ "scope is allowed; redefining it in the exact same scope is not. The first "
      ++ "definition is kept."
  | duplicateMember =>
    "A class, struct or data declaration declares the same member (field, method or "
      ++ "variant) twice."
  | duplicatePatternBinding =>
    "A single pattern binds the same variable name more than once, e.g. `(x, x)`."
  | orPatternBindingMismatch =>
    "The alternatives of an or-pattern bind different names, e.g. `0 | n`. A name bound "
      ++ "on only one side has no value when the other side matches. The name is still "
      ++ "defined for the arm so its uses are not reported again."
  | unresolvedIdentifier =>
    "An identifier could not be found in any enclosing scope. Analysis continues with "
      ++ "the name typed as `Any`."
  | typeMismatch =>
    "A value's inferred type does not match the type written in an annotation or "
      ++ "declaration."
  | unknownType =>
    "A type annotation names a type that is not declared, not built in, and not a type "
      ++ "parameter in scope."
  | arithmeticOperands =>
    "Arithmetic operators (`+ - * / % ^`) require numeric operands. The result is "
      ++ "`Float` when either side is `Float`, otherwise `Int`."
  | bitwiseOperands => "Bitwise operators require both operands to be `Int`."
  | comparisonOperands =>
    "The two sides of a comparison have incompatible types. Only reported when "
      ++ "`strict_comparisons` is enabled."
  | logicalOperands => "Logical operators `&&` and `||` require `Bool` operands."
  | wrongArgumentCount =>
    "A function was called with a different number of arguments than it declares."
  | unknownField => "The field does not exist on the receiver's declared type."
  | awaitOutsideAsync =>
    "`await` may only appear inside an `async` function or method. Mark the enclosing "
      ++ "function `async`."
  | unresolvedMethod =>
    "No method of that name exists on the receiver type, in an inherent impl, or in any "
      ++ "implemented trait."
  | notCallable => "The callee's type is not a function type."
  | unaryOperand => "Unary `-` requires a numeric operand; unary `!` requires `Bool`."
  | unwrapNonOptional => "The unwrap operator `?` can only be applied to an optional value."
  | forceUnwrapNonOptional => "Force-unwrapping a value that is not optional has no effect."
  | nonBoolCondition => "Conditions of `if` and `while` must be `Bool`."
  | notIndexable => "Indexing requires an array, list, map or string."
  | notIterable =>
    "A `for` loop iterates over a value that is not an array, list, set, map or string."
  | concurrentOutsideAsync =>
    "A `concurrent` block may only appear inside an `async` function or method."
  | raceOutsideAsync => "A `race` block may only appear inside an `async` function or method."
  | timeoutOutsideAsync => "A `timeout` block may only appear inside an `async` function or method."
  | duplicateConcurrentBinding =>
    "Every binding inside one `concurrent` block must have a distinct name."
  | nonNumericTimeout => "The duration of a `timeout` must be numeric."
  | assignToImmutable =>
    "The assignment target was not declared mutable. Declare it with `let mut`."
  | assignmentTypeMismatch => "The assigned value's type is not compatible with the target's type."
  | invalidAssignmentTarget =>
    "Only identifiers, field accesses and index expressions can be assigned to."
  | fieldInitializerMismatch =>
    "A field initializer's type does not match the field's declared type."
  | returnTypeMismatch =>
    "The type of a function body (or a `return` value) does not match the declared "
      ++ "return type."
  | asyncReturnTypeMismatch =>
    "An async function's body type does not match its declared return type. Reported as "
      ++ "a warning unless `async_return_mismatch = \"error\"`."
  | returnOutsideFunction => "`return` appears outside of any function or method body."
  | duplicateTrait => "Two traits share the same name."
  | duplicateTraitMethod => "A trait declares the same method name twice."
  | missingReturnType => "Every trait method signature must declare an explicit return type."
  | unknownTrait => "The trait named in an impl or qualified call has not been declared."
  | missingMethod => "An impl does not provide a method required by its trait."
  | parameterCountMismatch =>
    "An impl method takes a different number of parameters than the trait signature."
  | parameterTypeMismatch =>
    "An impl method parameter's type differs from the trait signature at the same "
      ++ "position."
  | methodReturnMismatch => "An impl method's return type differs from the trait signature."
  | ambiguousMethod =>
    "More than one implemented trait provides the called method for this receiver type. "
      ++ "Use a qualified call `receiver.Trait::method()`."
  | traitLacksMethod => "A qualified call names a trait that does not declare the method."
  | typeDoesNotImplement => "A qualified call names a trait the receiver type does not implement."
  | noConcreteMethod =>
    "The receiver implements the trait, but no impl provides a body for the method."
  | unsatisfiedBound =>
    "A generic argument does not implement a trait required by the type parameter's "
      ++ "bounds."
  | methodNotInTrait => "An impl defines a method that its trait does not declare."
  | duplicateImpl => "The same trait is implemented twice for the same type."
  | emptyMatch => "A `match` expression has no arms."
  | nonExhaustiveMatch =>
    "No unconditional catch-all arm was found and exhaustiveness could not be proven. "
      ++ "Add a trailing `_` arm."
  | unreachableArm =>
    "The arm can never be reached because an earlier unguarded catch-all arm matches "
      ++ "everything."

/-- The code that is shown as the given text. -/
def ofText? (s : String) : Option Code :=
  all.find? fun c => c.text = s

end Code

/-- What the code with the given text means. -/
def explain (s : String) : Option String :=
  (Code.ofText? s).map Code.explanation

end UnitAnalysis

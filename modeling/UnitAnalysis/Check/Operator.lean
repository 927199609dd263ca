import UnitAnalysis.Diagnostic.Problem

/-!
# Operators

The types of operators from those of their operands. An operand of type `Any` suits every operator,
and an operand that does not suit is reported.
-/

set_option autoImplicit false

namespace UnitAnalysis

namespace Check

/-- The type of a literal. -/
def literalType : Literal → Ty
  | .int _ => .int
  | .float _ => .float
  | .string _ => .string
  | .char _ => .char
  | .bool _ => .bool
  | .none => .optional .void

/-- The type of an arithmetic operator: `Float` when one of two numbers is. -/
def arithmeticType (op : BinaryOp) (left right : Ty) (span : Span) : Judged Ty :=
  if left.isNumeric && right.isNumeric then
    (if left.isFloat || right.isFloat then .float else .int, [])
  else if left.isAny || right.isAny then (.any, [])
  else (.any, [⟨.operands op left right, span⟩])

/-- The type of an operator whose operands must suit a test. -/
def uniformType (suits : Ty → Bool) (result : Ty) (op : BinaryOp) (left right : Ty) (span : Span) :
    Judged Ty :=
  if (suits left || left.isAny) && (suits right || right.isAny) then (result, [])
  else (result, [⟨.operands op left right, span⟩])

/-- The type of a comparison, whose operands must fit together only when `isStrict`. -/
def comparisonType (isStrict : Bool) (op : BinaryOp) (left right : Ty) (span : Span) : Judged Ty :=
  if isStrict && !left.compatible right then (.bool, [⟨.comparison op left right, span⟩])
  else (.bool, [])

/-- The type of an operator with two operands. -/
def binaryType (isStrict : Bool) (op : BinaryOp) (left right : Ty) (span : Span) : Judged Ty :=
  match op.family with
  | .arithmetic => arithmeticType op left right span
  | .bitwise => uniformType Ty.isInt .int op left right span
  | .comparison => comparisonType isStrict op left right span
  | .logical => uniformType Ty.isBool .bool op left right span

/-- The type of an unwrapped value: the inner type or, with a report, the type itself. -/
def unwrapType (problem : Ty → Problem) (operand : Ty) (span : Span) : Judged Ty :=
  match operand.optionalInner? with
  | some inner => (inner, [])
  | none => (operand, [⟨problem operand, span⟩])

/-- The type of an operator with one operand. -/
def unaryType (op : UnaryOp) (operand : Ty) (span : Span) : Judged Ty :=
  if operand.isAny then (.any, [])
  else
    match op with
    | .neg =>
      if operand.isNumeric then (operand, []) else (.any, [⟨.unaryOperand op operand, span⟩])
    | .not => if operand.isBool then (.bool, []) else (.any, [⟨.unaryOperand op operand, span⟩])
    | .unwrap => unwrapType .unwrap operand span
    | .forceUnwrap => unwrapType .forceUnwrap operand span

/-- The type of an element of a container. -/
def indexType (container : Ty) (span : Span) : Judged Ty :=
  if container.isAny then (.any, [])
  else
    match container.indexType? with
    | some t => (t, [])
    | none => (.any, [⟨.notIndexable container, span⟩])

/-- The type of what a loop runs over. -/
def elementType (iterable : Ty) (span : Span) : Judged Ty :=
  match iterable.elementType? with
  | some t => (t, [])
  | none => (.any, [⟨.notIterable iterable, span⟩])

/-- What is wrong with a condition. -/
def conditionFindings (t : Ty) (span : Span) : List Finding :=
  if t.isAny || t.isBool then [] else [⟨.condition t, span⟩]

/-- What is wrong with the duration of a `timeout`. -/
def durationFindings (t : Ty) (span : Span) : List Finding :=
  if t.isAny || t.isNumeric then [] else [⟨.timeoutDuration t, span⟩]

/-- The type of an awaited value: what the future holds, or the value itself. -/
def awaitedType : Ty → Ty
  | .generic base [t] => if base = "Future" then t else .generic base [t]
  | t => t

/-- The type of an `if` with two branches. Branches that disagree have type `Void`. -/
def branchType (thenType elseType : Ty) : Ty :=
  if thenType.isAny then elseType
  else if elseType.isAny || thenType.compatible elseType then thenType
  else .void

end Check

end UnitAnalysis

import UnitAnalysis.Declared.Index
import UnitAnalysis.Diagnostic.Problem

/-!
# Coverage of matches

A match covers every value when an arm without guard takes all values, or when the scrutinee is of a
data type and each of its variants is taken, with whatever fields, by an arm without guard. Anything
else is reported, and so is every arm that stands after one that takes all values.
-/

set_option autoImplicit false

namespace UnitAnalysis

namespace Pattern

/-- Whether a pattern takes every value. The name of a variant is a constructor and does not, and a
typed name may fail its test. -/
def isCatchAll (ix : DeclIndex) : Pattern → Bool
  | .wildcard _ => true
  | .bare _ name => (ix.variant? name).isNone
  | .either _ left right => left.isCatchAll ix || right.isCatchAll ix
  | _ => false

mutual

/-- Whether a pattern inside another takes whatever can stand in its place. -/
def isIrrefutable (ix : DeclIndex) : Pattern → Bool
  | .tuple _ elements => allIrrefutable ix elements
  | p => p.isCatchAll ix

/-- Whether several patterns take whatever can stand in their places. -/
def allIrrefutable (ix : DeclIndex) : List Pattern → Bool
  | [] => true
  | p :: ps => p.isIrrefutable ix && allIrrefutable ix ps

end

/-- Whether a field pattern takes every value of its field. -/
def fieldIrrefutable (ix : DeclIndex) : FieldPattern → Bool
  | .shorthand _ => true
  | .nested _ p => p.isIrrefutable ix

/-- The variants that a pattern takes with whatever fields. -/
def covered (ix : DeclIndex) : Pattern → List String
  | .bare _ name => if (ix.variant? name).isSome then [name] else []
  | .tupleStruct _ name elements =>
    if (ix.variant? name).isSome && allIrrefutable ix elements then [name] else []
  | .struct _ name fields =>
    if (ix.variant? name).isSome && fields.all (fieldIrrefutable ix) then [name] else []
  | .either _ left right => left.covered ix ++ right.covered ix
  | _ => []

/-- The names that a pattern may mean as constructors. -/
def heads : Pattern → List String
  | .bare _ name => [name]
  | .tupleStruct _ name _ => [name]
  | .struct _ name _ => [name]
  | .either _ left right => left.heads ++ right.heads
  | _ => []

end Pattern

/-- Whether an arm takes every value. -/
def MatchArm.isCatchAll (ix : DeclIndex) (arm : MatchArm) : Bool :=
  arm.guard.isNone && arm.pattern.isCatchAll ix

namespace Match

/-- The data type that is matched on: that of the scrutinee or, when its type is not known, that of
the first variant that a pattern names. -/
def dataType? (ix : DeclIndex) (scrutinee : Ty) (arms : List MatchArm) : Option String :=
  match scrutinee.nominalName? with
  | some name => (ix.get? name).bind fun d => if d.kind = .data then some d.name else none
  | none =>
    if scrutinee.isAny then
      arms.findSome? fun arm => arm.pattern.heads.findSome? fun name =>
        (ix.variant? name).map fun v => v.parent
    else none

/-- The variants that no arm without guard takes with whatever fields; there is no answer when the
match is not on a data type. -/
def missingVariants (ix : DeclIndex) (scrutinee : Ty) (arms : List MatchArm) :
    Option (List String) := do
  let d ← ix.get? (← dataType? ix scrutinee arms)
  let covered := (arms.filter fun arm => arm.guard.isNone).flatMap fun arm => arm.pattern.covered ix
  return d.variants.filter fun v => v ∉ covered

/-- What is wrong with the arms as a whole. -/
def exhaustiveness (ix : DeclIndex) (scrutinee : Ty) (arms : List MatchArm) (span : Span) :
    List Finding :=
  if arms.isEmpty then [⟨.emptyMatch, span⟩]
  else if arms.any (MatchArm.isCatchAll ix) then []
  else
    match missingVariants ix scrutinee arms with
    | some [] => []
    | some missing => [⟨.missingVariants missing, span⟩]
    | none => [⟨.notExhaustive scrutinee, span⟩]

/-- The arms after the first one that takes every value. -/
def unreachable (ix : DeclIndex) (arms : List MatchArm) : List MatchArm :=
  (arms.dropWhile fun arm => !arm.isCatchAll ix).drop 1

/-- What is wrong with single arms. -/
def unreachability (ix : DeclIndex) (arms : List MatchArm) : List Finding :=
  (unreachable ix arms).map fun arm => ⟨.unreachableArm, arm.node.span⟩

/-- What is wrong with a match. -/
def findings (ix : DeclIndex) (scrutinee : Ty) (arms : List MatchArm) (span : Span) :
    List Finding :=
  exhaustiveness ix scrutinee arms span ++ unreachability ix arms

end Match

end UnitAnalysis

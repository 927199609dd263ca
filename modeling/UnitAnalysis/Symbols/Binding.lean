import UnitAnalysis.Symbols.Builder

/-!
# Names that patterns bind

What a pattern binds is laid out first, as a list of steps from left to right, and then carried out
in a scope. A name that a pattern binds again is reported and keeps its first binding. A name that
only one side of a choice binds is reported too, and is defined all the same, so that its uses are
not reported again.
-/

set_option autoImplicit false

namespace UnitAnalysis

/-- One thing that a pattern does to the scope it stands in. -/
inductive BindStep where
  /-- Binds a name, perhaps with a type. -/
  | bind (name : String) (node : Node) (declared : Option Ty)
  /-- Gives an annotated node its type. -/
  | annotate (id : NodeId) (ty : Ty)
  /-- Reports a problem. -/
  | report (finding : Finding)
  deriving Repr

namespace Pattern

/-- The names that a pattern binds, without those that are constructors. -/
def bindingNames (ix : DeclIndex) (p : Pattern) : List String :=
  (p.bindings.map Prod.fst).filter fun name => !ix.isUnitVariant name

/-- What a choice adds to its left side: the names that only its right side binds, and a report for
each name that only one side binds. -/
def choiceSteps (ix : DeclIndex) (node : Node) (left right : Pattern) : List BindStep :=
  let leftNames := left.bindingNames ix
  let rightNames := right.bindingNames ix
  let leftOnly := leftNames.filter fun name => name ∉ rightNames
  let rightOnly := rightNames.filter fun name => name ∉ leftNames
  rightOnly.map (fun name => .bind name node none)
    ++ (leftOnly ++ rightOnly).map fun name => .report ⟨.oneSidedBinding name, node.span⟩

mutual

/-- What a pattern does, from left to right. `declared` is the type of the pattern as a whole; it
matters only when the pattern is a single name. -/
def steps (ix : DeclIndex) (g : Generics) (declared : Option Ty) : Pattern → List BindStep
  | .bare node name => if ix.isUnitVariant name then [] else [.bind name node declared]
  | .typed node name ty =>
    let (t, found) := ty.resolve ix g
    found.map .report ++ [.annotate node.id t, .bind name node (some t)]
  | .literal _ _ => []
  | .wildcard _ => []
  | .tuple _ elements => stepsAll ix g elements
  | .array node elements rest =>
    stepsAll ix g elements ++ rest.toList.map fun name => .bind name node none
  | .struct node _ fields => fieldSteps ix g node fields
  | .tupleStruct _ _ elements => stepsAll ix g elements
  | .either node left right => left.steps ix g none ++ choiceSteps ix node left right
  | .range _ _ _ _ => []

/-- What several patterns do. -/
def stepsAll (ix : DeclIndex) (g : Generics) : List Pattern → List BindStep
  | [] => []
  | p :: ps => p.steps ix g none ++ stepsAll ix g ps

/-- What the fields of a struct pattern do. -/
def fieldSteps (ix : DeclIndex) (g : Generics) (node : Node) : List FieldPattern → List BindStep
  | [] => []
  | .shorthand name :: fields => .bind name node none :: fieldSteps ix g node fields
  | .nested _ p :: fields => p.steps ix g none ++ fieldSteps ix g node fields

end

end Pattern

namespace Build

/-- Carries out steps in a scope. `seen` are the names that were bound already, and a name that the
scope has from elsewhere is reported at `site`. -/
def runSteps (scope : ScopeId) (isMutable : Bool) (site : Span) (seen : List String) :
    List BindStep → Build Unit
  | [] => return ()
  | .report finding :: rest => do
    report [finding]
    runSteps scope isMutable site seen rest
  | .annotate id t :: rest => do
    annotate id t
    runSteps scope isMutable site seen rest
  | .bind name node declared :: rest => do
    if name ∈ seen then
      report [⟨.duplicateBinding name, node.span⟩]
      runSteps scope isMutable site seen rest
    else
      let symbol : Symbol :=
        { name, kind := .variableName, declaredType := declared, isMutable, origin := some node.id,
          span := node.span }
      let _ ← define scope symbol site
      runSteps scope isMutable site (name :: seen) rest

/-- Defines the names of a pattern in a scope. -/
def definePattern (g : Generics) (scope : ScopeId) (isMutable : Bool) (declared : Option Ty)
    (site : Span) (p : Pattern) : Build Unit := do
  visitAll (p.visits scope)
  runSteps scope isMutable site [] (p.steps (← get).table.decls g declared)

/-- Defines the names of a `let` in a scope. -/
def defineLet (g : Generics) (scope : ScopeId) (node : Node) (p : Pattern) (ty : Option TypeExpr)
    (isMutable : Bool) : Build Unit := do
  let declared ← resolveOption g ty
  match declared with
  | some t => annotate node.id t
  | none => pure ()
  definePattern g scope isMutable declared node.span p

end Build

end UnitAnalysis

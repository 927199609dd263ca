import UnitAnalysis.Syntax.TypeExpr

/-!
# Literals and patterns

The patterns of bindings, loops and match arms, and the names that they bind.
-/

set_option autoImplicit false

namespace UnitAnalysis

/-- A literal value. -/
inductive Literal where
  | int (n : Int64)
  | float (x : Float)
  | string (s : String)
  | char (c : Char)
  | bool (b : Bool)
  /-- The empty optional. -/
  | none
  deriving Repr

mutual

/-- A pattern. -/
inductive Pattern where
  /-- A bare name. It binds the name, unless a variant without fields is called so. -/
  | bare (node : Node) (name : String)
  /-- A name with the type that its value must have. -/
  | typed (node : Node) (name : String) (ty : TypeExpr)
  | literal (node : Node) (value : Literal)
  /-- `_` -/
  | wildcard (node : Node)
  | tuple (node : Node) (elements : List Pattern)
  /-- The first elements of an array and, when it is named, the array of the others. -/
  | array (node : Node) (elements : List Pattern) (rest : Option String)
  | struct (node : Node) (name : String) (fields : List FieldPattern)
  /-- A variant or struct with a pattern for each of its fields. -/
  | tupleStruct (node : Node) (name : String) (elements : List Pattern)
  /-- Either of two patterns. -/
  | either (node : Node) (left right : Pattern)
  | range (node : Node) (first last : Literal) (isInclusive : Bool)

/-- A field of a struct pattern. -/
inductive FieldPattern where
  /-- A field whose name is also the name that is bound. -/
  | shorthand (name : String)
  | nested (name : String) (pattern : Pattern)

end

namespace Pattern

instance : Inhabited Pattern := ⟨wildcard ⟨⟨0⟩, {}⟩⟩

/-- The identity and place of a pattern. -/
def node : Pattern → Node
  | bare node _ => node
  | typed node _ _ => node
  | literal node _ => node
  | wildcard node => node
  | tuple node _ => node
  | array node _ _ => node
  | struct node _ _ => node
  | tupleStruct node _ _ => node
  | either node _ _ => node
  | range node _ _ _ => node

/-- The identity of a pattern. -/
def id (p : Pattern) : NodeId :=
  p.node.id

/-- The place of a pattern. -/
def span (p : Pattern) : Span :=
  p.node.span

end Pattern

mutual

/-- The identities of the nodes of a pattern. -/
def Pattern.ids : Pattern → List NodeId
  | .bare node _ => [node.id]
  | .typed node _ _ => [node.id]
  | .literal node _ => [node.id]
  | .wildcard node => [node.id]
  | .tuple node elements => node.id :: Pattern.idsAll elements
  | .array node elements _ => node.id :: Pattern.idsAll elements
  | .struct node _ fields => node.id :: FieldPattern.idsAll fields
  | .tupleStruct node _ elements => node.id :: Pattern.idsAll elements
  | .either node left right => node.id :: (left.ids ++ right.ids)
  | .range node _ _ _ => [node.id]

/-- The identities of the nodes of several patterns. -/
def Pattern.idsAll : List Pattern → List NodeId
  | [] => []
  | p :: ps => p.ids ++ Pattern.idsAll ps

/-- The identities of the nodes of field patterns. -/
def FieldPattern.idsAll : List FieldPattern → List NodeId
  | [] => []
  | .shorthand _ :: fields => FieldPattern.idsAll fields
  | .nested _ p :: fields => p.ids ++ FieldPattern.idsAll fields

end

/-- The name of the field that a field pattern is about. -/
def FieldPattern.name : FieldPattern → String
  | shorthand name => name
  | nested name _ => name

/-- Adds the names of `extra` that are not there yet, one after the other. -/
def addNewNames (bound extra : List (String × Span)) : List (String × Span) :=
  extra.foldl (fun names b => if names.any (·.1 = b.1) then names else names ++ [b]) bound

mutual

/-- The names that a pattern binds, from left to right, each with its place. The names of a
choice are those of its left side and then those that only its right side binds. -/
def Pattern.bindings : Pattern → List (String × Span)
  | .bare node name => [(name, node.span)]
  | .typed node name _ => [(name, node.span)]
  | .literal _ _ => []
  | .wildcard _ => []
  | .tuple _ elements => Pattern.bindingsAll elements
  | .array node elements rest =>
    Pattern.bindingsAll elements ++ (rest.toList.map fun name => (name, node.span))
  | .struct node _ fields => Pattern.fieldBindings node.span fields
  | .tupleStruct _ _ elements => Pattern.bindingsAll elements
  | .either _ left right => addNewNames left.bindings right.bindings
  | .range _ _ _ _ => []

/-- The names that several patterns bind. -/
def Pattern.bindingsAll : List Pattern → List (String × Span)
  | [] => []
  | p :: ps => p.bindings ++ Pattern.bindingsAll ps

/-- The names that the fields of a struct pattern bind; a field without a pattern of its own has
the place of the whole pattern. -/
def Pattern.fieldBindings (span : Span) : List FieldPattern → List (String × Span)
  | [] => []
  | .shorthand name :: fields => (name, span) :: Pattern.fieldBindings span fields
  | .nested _ p :: fields => p.bindings ++ Pattern.fieldBindings span fields

end

end UnitAnalysis

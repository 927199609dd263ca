import UnitAnalysis.Span
import UnitAnalysis.Ty.Basic

/-!
# Scopes and symbols

All scopes of a unit live in one `Arena` and are named by their index. The global scope is the first
one; every other scope is entered below one that is there, and remembers the scopes around it,
innermost first. A look-up searches a scope and then the scopes around it in that order, so an inner
definition hides an outer one, and a second definition in one scope is refused.

Two things are kept more simply than memory would have them. An index is a natural number, where a
machine keeps 32 bits: the two are the same as long as a unit opens fewer than 2^32 scopes. And a
scope keeps the whole list of scopes around it, where its parent would do: `Arena.enter` makes the
list of a new scope from its parent and the parent's own list, and the parent is the head of the
list.
-/

set_option autoImplicit false

namespace UnitAnalysis

/-- The index of a scope in its arena. -/
structure ScopeId where
  /-- The position, counted from 0. -/
  index : Nat
  deriving DecidableEq, Repr, Inhabited

/-- The scope that every other scope lies in. -/
def ScopeId.global : ScopeId := ⟨0⟩

/-- What opened a scope. -/
inductive ScopeKind where
  | global | function | method | classBody | block | loop | lambda | matchArm | catchClause
  deriving DecidableEq, Repr

/-- The kinds of scopes, by name. -/
def ScopeKind.names : List (String × ScopeKind) :=
  [("Global", .global), ("Function", .function), ("Method", .method), ("Class", .classBody),
    ("Block", .block), ("Loop", .loop), ("Lambda", .lambda), ("MatchArm", .matchArm),
    ("Catch", .catchClause)]

/-- What a symbol stands for. -/
inductive SymbolKind where
  | variableName | function | parameter | struct | data | trait | field | spark
  deriving DecidableEq, Repr

/-- The kinds of symbols, by name. -/
def SymbolKind.names : List (String × SymbolKind) :=
  [("Variable", .variableName), ("Function", .function), ("Parameter", .parameter),
    ("Struct", .struct), ("Data", .data), ("Trait", .trait), ("Field", .field), ("Spark", .spark)]

/-- A name that is bound in a scope. -/
structure Symbol where
  /-- The name. -/
  name : String
  /-- What it stands for. -/
  kind : SymbolKind
  /-- Its type; there is none until the value of a binding without annotation is inferred. -/
  declaredType : Option Ty
  /-- Whether it may be assigned to. -/
  isMutable : Bool := false
  /-- Whether it is an asynchronous function. -/
  isAsync : Bool := false
  /-- The node that introduced it. -/
  origin : Option NodeId := none
  /-- The place where it was introduced. -/
  span : Span := {}
  deriving DecidableEq, Repr

/-- The type of a symbol, `Any` while there is none. -/
def Symbol.ty (s : Symbol) : Ty :=
  s.declaredType.getD .any

/-- What a walk through a unit comes by. -/
inductive VisitKind where
  | expr | block | pattern
  deriving DecidableEq, Repr

/-- A call of a walk on a node: the node, and the scope that the walk is in. -/
structure Visit where
  /-- What the node is. -/
  kind : VisitKind
  /-- The node. -/
  id : NodeId
  /-- The scope. -/
  scope : ScopeId
  deriving DecidableEq, Repr

/-- Why a scope operation failed. -/
inductive ScopeError where
  /-- The scope has a symbol of that name, introduced at `first`. -/
  | redefinition (name : String) (first : Span)
  /-- There is nothing around the global scope. -/
  | leftGlobal
  deriving DecidableEq, Repr

/-- The wording of a failure. -/
def ScopeError.message : ScopeError → String
  | redefinition name _ => "`" ++ name ++ "` is already defined in this scope"
  | leftGlobal => "attempted to exit the global scope"

/-- One scope: what opened it, the scopes around it from the inside out, and its symbols. -/
structure Scope where
  /-- What opened it. -/
  kind : ScopeKind
  /-- The scopes around it, innermost first. -/
  enclosing : List ScopeId := []
  /-- The symbols that are defined in it, by name. -/
  symbols : Table String Symbol := {}
  deriving Repr

/-- The scope directly around a scope. -/
def Scope.parent? (s : Scope) : Option ScopeId :=
  s.enclosing.head?

/-- All scopes of a unit. -/
structure Arena where
  /-- The scopes, in the order in which they were entered. -/
  scopes : Array Scope := #[{ kind := .global }]
  deriving Repr

namespace Arena

instance : Inhabited Arena := ⟨{}⟩

/-- The number of scopes. -/
def size (a : Arena) : Nat :=
  a.scopes.size

/-- The scope with the given index. -/
def get? (a : Arena) (id : ScopeId) : Option Scope :=
  a.scopes[id.index]?

/-- The scopes around a scope, innermost first. -/
def enclosing (a : Arena) (id : ScopeId) : List ScopeId :=
  match a.get? id with
  | some s => s.enclosing
  | none => []

/-- Opens a scope directly below `parent`; it gets the next index. -/
def enter (a : Arena) (parent : ScopeId) (kind : ScopeKind) : ScopeId × Arena :=
  (⟨a.size⟩, ⟨a.scopes.push { kind, enclosing := parent :: a.enclosing parent }⟩)

/-- The scope to go on in after `id`. -/
def exit (a : Arena) (id : ScopeId) : Except ScopeError ScopeId :=
  match (a.enclosing id).head? with
  | some parent => .ok parent
  | none => .error .leftGlobal

/-- The symbol of a name in one scope, whatever is around it. -/
def lookupLocal (a : Arena) (id : ScopeId) (name : String) : Option Symbol :=
  match a.get? id with
  | some s => s.symbols.get? name
  | none => none

/-- The innermost symbol of a name that is visible from a scope, with the scope it is defined in. -/
def lookupWithScope (a : Arena) (id : ScopeId) (name : String) : Option (ScopeId × Symbol) :=
  (id :: a.enclosing id).findSome? fun i => (a.lookupLocal i name).map fun s => (i, s)

/-- The innermost symbol of a name that is visible from a scope. -/
def lookup (a : Arena) (id : ScopeId) (name : String) : Option Symbol :=
  (a.lookupWithScope id name).map Prod.snd

/-- Changes the symbols of one scope. -/
def modifySymbols (a : Arena) (id : ScopeId) (f : Table String Symbol → Table String Symbol) :
    Arena :=
  ⟨a.scopes.modify id.index fun s => { s with symbols := f s.symbols }⟩

/-- Adds a symbol to one scope. A name that is already defined there keeps its first symbol. -/
def define (a : Arena) (id : ScopeId) (symbol : Symbol) : Except ScopeError Arena :=
  match a.lookupLocal id symbol.name with
  | some first => .error (.redefinition symbol.name first.span)
  | none => .ok (a.modifySymbols id fun table => table.insert symbol.name symbol)

/-- Gives a symbol of one scope its type, unless it has one. -/
def resolveType (a : Arena) (id : ScopeId) (name : String) (t : Ty) : Arena :=
  a.modifySymbols id fun table =>
    table.modify name fun s => { s with declaredType := s.declaredType.or (some t) }

/-- The number of symbols in all scopes. -/
def symbolCount (a : Arena) : Nat :=
  a.scopes.foldl (fun count s => count + s.symbols.size) 0

end Arena

end UnitAnalysis

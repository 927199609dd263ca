import UnitAnalysis.Config.Basic
import UnitAnalysis.Symbols.Builder

/-!
# Where a check stands

What a check of an expression can see, and what it changes. A `Context` is handed down and never
changes: the symbol table as it was built, the traits and the options. A `Session` is what goes
along: the scopes, whose names receive their types, the types of the nodes so far, the findings and
the functions around the expression, which a check goes into and comes out of again.
-/

set_option autoImplicit false

namespace UnitAnalysis

/-- The function or lambda around an expression. -/
structure Frame where
  /-- The name, for messages. -/
  name : String
  /-- The written result; a lambda has none. -/
  ret : Option Ty := none
  /-- Whether it is asynchronous. -/
  isAsync : Bool := false
  deriving DecidableEq, Repr

/-- What stands around the code that a check is in. -/
structure Surroundings where
  /-- The number of asynchronous functions and lambdas around the code. A function that is not
  asynchronous sets it back to none. -/
  asyncDepth : Nat := 0
  /-- The functions and lambdas around the code, innermost first. -/
  frames : List Frame := []
  deriving DecidableEq, Repr

namespace Surroundings

/-- Whether the code runs asynchronously. -/
def isAsync (w : Surroundings) : Bool :=
  0 < w.asyncDepth

/-- The innermost function or lambda around the code, if there is one. -/
def frame? (w : Surroundings) : Option Frame :=
  w.frames.head?

/-- What stands around the body of a function. -/
def enterFunction (f : Frame) (w : Surroundings) : Surroundings :=
  { asyncDepth := if f.isAsync then w.asyncDepth + 1 else 0, frames := f :: w.frames }

/-- What stands around the body of a lambda. One that is not asynchronous runs where it is written.
-/
def enterLambda (isAsync : Bool) (w : Surroundings) : Surroundings :=
  { asyncDepth := if isAsync then w.asyncDepth + 1 else w.asyncDepth
    frames := { name := "<lambda>", isAsync } :: w.frames }

/-- What stands around the code after the innermost function or lambda, before which the depth was
the given one. -/
def leave (depth : Nat) (w : Surroundings) : Surroundings :=
  { asyncDepth := depth, frames := w.frames.tail }

end Surroundings

/-- What a check can see. -/
structure Context where
  /-- The symbol table as it was built. -/
  table : SymbolTable
  /-- The traits and their implementations. -/
  registry : Registry
  /-- The choices of the user. -/
  options : Options

/-- The declared types. -/
def Context.decls (ctx : Context) : DeclIndex :=
  ctx.table.decls

/-- What a check changes. -/
structure Session where
  /-- The scopes, in which names receive their types. -/
  scopes : Arena := {}
  /-- The types of expressions and blocks so far. -/
  types : Table NodeId Ty := {}
  /-- What was found wrong so far. -/
  findings : List Finding := []
  /-- The way of the check so far. -/
  visits : Array Visit := #[]
  /-- What stands around the code that is checked. -/
  around : Surroundings := {}

/-- A step of a check. -/
abbrev Check := StateM Session

namespace Check

/-- Reports problems. -/
def report (found : List Finding) : Check Unit :=
  modify fun s => { s with findings := s.findings ++ found }

/-- Takes over a result with its findings. -/
def judge {α : Type} (j : Judged α) : Check α := do
  report j.2
  return j.1

/-- Notes a call of the check. -/
def visit (v : Visit) : Check Unit :=
  modify fun s => { s with visits := s.visits.push v }

/-- Notes several calls of the check. -/
def visitAll (vs : List Visit) : Check Unit :=
  modify fun s => { s with visits := s.visits ++ vs }

/-- Remembers the type of a node. -/
def record (id : NodeId) (t : Ty) : Check Unit :=
  modify fun s => { s with types := s.types.insert id t }

/-- The steps of a check, in a monad of its own. -/
structure Steps (m : Type → Type) where
  /-- A step that uses no scope. -/
  plain {α : Type} : Check α → m α
  /-- A step that uses one scope. -/
  inScope {α : Type} : ScopeId → Check α → m α
  /-- Looks a name up in a scope and those around it. -/
  search : ScopeId → String → m (Option (ScopeId × Symbol))

/-- The steps as they are. -/
abbrev direct : Steps Check where
  plain x := x
  inScope _ x := x
  search scope name := return (← get).scopes.lookupWithScope scope name

section Steps

variable {m : Type → Type} [Monad m] (w : Steps m)

/-- The type of a node that is called on: the one that is remembered or else the one that `infer`
finds, which is then remembered. So no node is looked into twice, and none is reported on twice. -/
def memo (v : Visit) (infer : m Ty) : m Ty := do
  w.plain (visit v)
  match (← w.plain get).types.get? v.id with
  | some t => return t
  | none =>
    let t ← infer
    w.plain (record v.id t)
    return t

/-- Runs a step inside a function or lambda. Afterwards the innermost frame is dropped and the depth
is set back. -/
def inside {α : Type} (enter : Surroundings → Surroundings) (x : m α) : m α := do
  let depth := (← w.plain get).around.asyncDepth
  w.plain (modify fun s => { s with around := enter s.around })
  let v ← x
  w.plain (modify fun s => { s with around := s.around.leave depth })
  return v

end Steps

/-- Gives a name of a scope its type, unless it has one. -/
def resolveName (scope : ScopeId) (name : String) (t : Ty) : Check Unit :=
  modify fun s => { s with scopes := s.scopes.resolveType scope name t }

/-- Gives several names of a scope their types. -/
def resolveNames (scope : ScopeId) : List (String × Ty) → Check Unit
  | [] => return ()
  | (name, t) :: rest => do
    resolveName scope name t
    resolveNames scope rest

end Check

end UnitAnalysis

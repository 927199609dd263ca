import UnitAnalysis.Ty.Basic

/-!
# Substitutions

A `Subst` gives types to type parameters by name. `Subst.apply` puts them in, and `Subst.bind` finds
them: it walks a type with parameters along an actual type and records, for each parameter that has
no type yet, the first one that it meets. Parameters without an entry stay as they are.
-/

set_option autoImplicit false

namespace UnitAnalysis

/-- Types for type parameters, by name of the parameter. -/
structure Subst where
  /-- The type of each parameter that has one. -/
  bindings : Table String Ty := {}
  deriving Repr

namespace Subst

instance : Inhabited Subst := ⟨{}⟩

/-- The substitution of a list of pairs; of two pairs with one name the later one counts. -/
def ofList (pairs : List (String × Ty)) : Subst :=
  ⟨Table.ofList pairs⟩

/-- The type of a parameter. -/
def get? (s : Subst) (name : String) : Option Ty :=
  s.bindings.get? name

/-- Gives a parameter a type, whatever type it had. -/
def insert (s : Subst) (name : String) (t : Ty) : Subst :=
  ⟨s.bindings.insert name t⟩

/-- The number of parameters that have a type. -/
def size (s : Subst) : Nat :=
  s.bindings.size

/-- Whether no parameter has a type. -/
def isEmpty (s : Subst) : Bool :=
  s.bindings.isEmpty

mutual

/-- Replaces every parameter that has a type by it, once: what is put in is not looked at again. -/
def replace (s : Subst) : Ty → Ty
  | .prim p => .prim p
  | .named n => .named n
  | .generic base args => .generic base (replaceAll s args)
  | .optional inner => .optional (replace s inner)
  | .array element => .array (replace s element)
  | .tuple elements => .tuple (replaceAll s elements)
  | .function params ret => .function (replaceAll s params) (replace s ret)
  | .param name bounds => (s.get? name).getD (.param name bounds)

/-- Replaces parameters in several types. -/
def replaceAll (s : Subst) : List Ty → List Ty
  | [] => []
  | t :: ts => replace s t :: replaceAll s ts

end

/-- A type with its parameters replaced. Where no parameter has a type there is nothing to put in,
and the type is taken as it is. -/
def apply (s : Subst) (t : Ty) : Ty :=
  if s.isEmpty then t else s.replace t

/-- One occurrence of a parameter against an actual type: a parameter that has a type must fit, and
one that has none takes the actual type unless that is `Any`. -/
def bindParam (s : Subst) (name : String) (actual : Ty) : Bool × Subst :=
  match s.get? name with
  | some bound => (bound.compatible actual, s)
  | none => (true, if actual.isAny then s else s.insert name actual)

mutual

/-- Walks `pattern` along `actual` and gives types to the parameters on the way. The answer is
whether every occurrence fits the type that its parameter has at that point. Where the shapes
differ nothing is bound; an optional pattern also takes a plain actual type. -/
def bind (s : Subst) : (pattern actual : Ty) → Bool × Subst
  | .param name _, actual => s.bindParam name actual
  | .optional p, .optional a => bind s p a
  | .array p, .array a => bind s p a
  | .optional p, actual => bind s p actual
  | .generic f ps, .generic g as =>
    if f = g ∧ ps.length = as.length then bindAll s ps as else (true, s)
  | .tuple ps, .tuple as => if ps.length = as.length then bindAll s ps as else (true, s)
  | .function ps r, .function as t =>
    if ps.length = as.length then
      let params := bindAll s ps as
      let ret := bind params.2 r t
      (params.1 && ret.1, ret.2)
    else (true, s)
  | _, _ => (true, s)

/-- Walks several patterns along several actual types, from left to right and to the end, also
past an occurrence that does not fit. -/
def bindAll (s : Subst) : (patterns actuals : List Ty) → Bool × Subst
  | p :: ps, a :: as =>
    let first := bind s p a
    let rest := bindAll first.2 ps as
    (first.1 && rest.1, rest.2)
  | _, _ => (true, s)

end

end Subst

end UnitAnalysis

import UnitAnalysis.NameSet
import UnitAnalysis.Table

/-!
# Types

The types that expressions and symbols have: the seven built-in scalars, declared types with or
without arguments, optionals, arrays, tuples, functions and type parameters. A type is shown to the
user by `Ty.name`, and two types fit together (`Ty.compatible`) when they agree up to the wildcard
`Any`, which fits everything at every depth, and up to the placeholders `Void?` and `[Void]`, which
are the types of an empty optional and of an empty array.
-/

set_option autoImplicit false

namespace UnitAnalysis

/-- The built-in scalar types. `any` is the type of what is not known. -/
inductive Primitive where
  | int | float | bool | string | char | void | any
  deriving DecidableEq, Repr

namespace Primitive

/-- The name under which a scalar type is written. -/
def name : Primitive → String
  | int => "Int"
  | float => "Float"
  | bool => "Bool"
  | string => "String"
  | char => "Char"
  | void => "Void"
  | any => "Any"

/-- All scalar types. -/
def all : List Primitive :=
  [int, float, bool, string, char, void, any]

/-- The scalar type with the given name. -/
def ofName? (s : String) : Option Primitive :=
  all.find? fun p => p.name = s

end Primitive

/-- A resolved type. The bounds of a type parameter are the traits that its argument must implement.
-/
inductive Ty where
  | prim (scalar : Primitive)
  | named (name : String)
  | generic (base : String) (args : List Ty)
  | optional (inner : Ty)
  | array (element : Ty)
  | tuple (elements : List Ty)
  | function (params : List Ty) (ret : Ty)
  | param (name : String) (bounds : NameSet)
  deriving Repr

namespace Ty

instance : Inhabited Ty := ⟨prim .any⟩

/-- A type parameter with the given bounds, in any order and with any repetition. -/
def bounded (name : String) (bounds : List String) : Ty :=
  param name (.ofList bounds)

/-- The type of what is not known. -/
abbrev any : Ty := prim .any

/-- The type of what has no value. -/
abbrev void : Ty := prim .void

/-- The type of whole numbers. -/
abbrev int : Ty := prim .int

/-- The type of fractional numbers. -/
abbrev float : Ty := prim .float

/-- The type of truth values. -/
abbrev bool : Ty := prim .bool

/-- The type of texts. -/
abbrev string : Ty := prim .string

/-- The type of characters. -/
abbrev char : Ty := prim .char

/-- The type of a value that is there later. -/
def future (inner : Ty) : Ty :=
  generic "Future" [inner]

mutual

/-- Structural equality, which also compares the bounds of type parameters. -/
def decEq : (a b : Ty) → Decidable (a = b)
  | prim p, prim q => if h : p = q then isTrue (h ▸ rfl) else isFalse (by simpa using h)
  | named a, named b => if h : a = b then isTrue (h ▸ rfl) else isFalse (by simpa using h)
  | generic a as, generic b bs =>
    if h : a = b then
      match decEqAll as bs with
      | isTrue h' => isTrue (by rw [h, h'])
      | isFalse h' => isFalse (by simp [h'])
    else isFalse (by simp [h])
  | optional a, optional b =>
    match decEq a b with
    | isTrue h => isTrue (by rw [h])
    | isFalse h => isFalse (by simpa using h)
  | array a, array b =>
    match decEq a b with
    | isTrue h => isTrue (by rw [h])
    | isFalse h => isFalse (by simpa using h)
  | tuple as, tuple bs =>
    match decEqAll as bs with
    | isTrue h => isTrue (by rw [h])
    | isFalse h => isFalse (by simpa using h)
  | function as a, function bs b =>
    match decEqAll as bs, decEq a b with
    | isTrue h, isTrue h' => isTrue (by rw [h, h'])
    | isFalse h, _ => isFalse (by simp [h])
    | _, isFalse h => isFalse (by simp [h])
  | param a as, param b bs =>
    if h : a = b ∧ as = bs then isTrue (by rw [h.1, h.2]) else isFalse (by simpa using h)
  | prim _, named _ | prim _, generic _ _ | prim _, optional _ | prim _, array _ | prim _, tuple _
  | prim _, function _ _ | prim _, param _ _
  | named _, prim _ | named _, generic _ _ | named _, optional _ | named _, array _
  | named _, tuple _ | named _, function _ _ | named _, param _ _
  | generic _ _, prim _ | generic _ _, named _ | generic _ _, optional _ | generic _ _, array _
  | generic _ _, tuple _ | generic _ _, function _ _ | generic _ _, param _ _
  | optional _, prim _ | optional _, named _ | optional _, generic _ _ | optional _, array _
  | optional _, tuple _ | optional _, function _ _ | optional _, param _ _
  | array _, prim _ | array _, named _ | array _, generic _ _ | array _, optional _
  | array _, tuple _ | array _, function _ _ | array _, param _ _
  | tuple _, prim _ | tuple _, named _ | tuple _, generic _ _ | tuple _, optional _
  | tuple _, array _ | tuple _, function _ _ | tuple _, param _ _
  | function _ _, prim _ | function _ _, named _ | function _ _, generic _ _
  | function _ _, optional _ | function _ _, array _ | function _ _, tuple _
  | function _ _, param _ _
  | param _ _, prim _ | param _ _, named _ | param _ _, generic _ _ | param _ _, optional _
  | param _ _, array _ | param _ _, tuple _ | param _ _, function _ _ => isFalse (by simp)

/-- Structural equality of two lists of types. -/
def decEqAll : (as bs : List Ty) → Decidable (as = bs)
  | [], [] => isTrue rfl
  | [], _ :: _ => isFalse (by simp)
  | _ :: _, [] => isFalse (by simp)
  | a :: as, b :: bs =>
    match decEq a b, decEqAll as bs with
    | isTrue h, isTrue h' => isTrue (by rw [h, h'])
    | isFalse h, _ => isFalse (by simp [h])
    | _, isFalse h => isFalse (by simp [h])

end

instance : DecidableEq Ty := decEq

/-- Whether this is `Any`. -/
def isAny : Ty → Bool
  | prim .any => true
  | _ => false

/-- Whether this is `Void`. -/
def isVoid : Ty → Bool
  | prim .void => true
  | _ => false

/-- Whether this is `Int`. -/
def isInt : Ty → Bool
  | prim .int => true
  | _ => false

/-- Whether this is `Float`. -/
def isFloat : Ty → Bool
  | prim .float => true
  | _ => false

/-- Whether this is `Bool`. -/
def isBool : Ty → Bool
  | prim .bool => true
  | _ => false

/-- Whether this is `Int` or `Float`. -/
def isNumeric (t : Ty) : Bool :=
  t.isInt || t.isFloat

/-- Whether this is a function type. -/
def isFunction : Ty → Bool
  | function _ _ => true
  | _ => false

mutual

/-- The text of a type. A type parameter is shown by its name alone, and an optional function is
put in brackets, because `?` would otherwise seem to belong to its result. -/
def name : Ty → String
  | prim p => p.name
  | named n => n
  | generic base args => base ++ "<" ++ String.intercalate ", " (names args) ++ ">"
  | optional inner => if inner.isFunction then "(" ++ inner.name ++ ")?" else inner.name ++ "?"
  | array element => "[" ++ element.name ++ "]"
  | tuple elements => "(" ++ String.intercalate ", " (names elements) ++ ")"
  | function params ret => "(" ++ String.intercalate ", " (names params) ++ ") -> " ++ ret.name
  | param n _ => n

/-- The texts of several types. -/
def names : List Ty → List String
  | [] => []
  | t :: ts => t.name :: names ts

end

/-- The type inside an optional. -/
def optionalInner? : Ty → Option Ty
  | optional inner => some inner
  | _ => none

/-- The name under which fields, methods and implementations of a type are looked up. Neither
`Any` nor `Void` has one, and of the compound types only applied declared types do. -/
def nominalName? : Ty → Option String
  | named n => some n
  | generic base _ => some base
  | prim .any => none
  | prim .void => none
  | prim p => some p.name
  | _ => none

/-- The type of what a loop over a value of this type sees. A map gives pairs. -/
def elementType? : Ty → Option Ty
  | array element => some element
  | generic base args =>
    if base = "List" ∨ base = "Set" then some (args.head?.getD any)
    else if base = "Map" then some (tuple (args.take 2))
    else none
  | prim .string => some char
  | prim .any => some any
  | _ => none

/-- The type of an indexed access: the values of a map, and the elements of all else. -/
def indexType? : Ty → Option Ty
  | generic base args =>
    if base = "Map" then some (args[1]?.getD any) else elementType? (generic base args)
  | t => t.elementType?

mutual

/-- Whether a type parameter occurs anywhere. -/
def hasParams : Ty → Bool
  | prim _ => false
  | named _ => false
  | generic _ args => anyHasParams args
  | optional inner => inner.hasParams
  | array element => element.hasParams
  | tuple elements => anyHasParams elements
  | function params ret => anyHasParams params || ret.hasParams
  | param _ _ => true

/-- Whether a type parameter occurs anywhere in several types. -/
def anyHasParams : List Ty → Bool
  | [] => false
  | t :: ts => t.hasParams || anyHasParams ts

end

mutual

/-- Whether two types fit together. `Any` fits everything; an optional or array of `Void` fits
every optional or array; equal shapes are compared part by part, and all else by name. -/
def compatible : Ty → Ty → Bool
  | prim .any, _ => true
  | _, prim .any => true
  | optional a, optional b => a.isVoid || b.isVoid || a.compatible b
  | array a, array b => a.isVoid || b.isVoid || a.compatible b
  | tuple as, tuple bs => compatibleAll as bs
  | generic f as, generic g bs => f == g && compatibleAll as bs
  | function ps r, function qs s => compatibleAll ps qs && r.compatible s
  | a, b => a.name == b.name

/-- Whether two lists of types are equally long and fit together place by place. -/
def compatibleAll : List Ty → List Ty → Bool
  | [], [] => true
  | a :: as, b :: bs => a.compatible b && compatibleAll as bs
  | _, _ => false

end

/-- Whether a value of type `actual` may be put where this type is expected: where they fit
together, and where this type is an optional whose inside accepts it. -/
def accepts : Ty → Ty → Bool
  | optional inner, actual => (optional inner).compatible actual || inner.accepts actual
  | t, actual => t.compatible actual

end Ty

/-- The number of arguments of a generic container that needs no declaration. -/
def builtinArity? (name : String) : Option Nat :=
  if name = "Map" ∨ name = "Result" then some 2
  else if name = "List" ∨ name = "Set" ∨ name = "Future" then some 1
  else none

end UnitAnalysis

import UnitAnalysis.Json.Basic
import UnitAnalysis.Span

/-!
# Reading objects field by field

The rules that all objects of a document share. A field that is asked for may be given once only;
one that nobody asks for is passed over, however often it stands there. A field with a default may
be missing but not `null`; an optional one may be either.

A node without an identity takes the next one that is free, so `Read` carries that identity along.
-/

set_option autoImplicit false

namespace UnitAnalysis.Document

/-- Reading that may fail and that may give out identities. The state is the next free one. -/
abbrev Read := StateT NodeId Option

/-- A reading that gives out no identity. -/
def Read.ofOption {α : Type} (x : Option α) : Read α :=
  fun next => x.map fun a => (a, next)

/-- A new identity. -/
def fresh : Read NodeId :=
  fun next => some (next, next.next)

/-- A field of an object: nothing when it is missing, and a failure when it stands there twice. -/
def field? (name : String) (fields : List (String × Json)) : Option (Option Json) :=
  match fields.filter fun f => f.1 = name with
  | [] => some none
  | [f] => some (some f.2)
  | _ => none

/-- Reads a field that must be there. -/
def required {α : Type} (name : String) (read : Json → Read α) (fields : List (String × Json)) :
    Read α := do
  match ← Read.ofOption (field? name fields) with
  | some j => read j
  | none => Read.ofOption none

/-- Reads a field, or takes a default when it is missing. -/
def defaulted {α : Type} (name : String) (default : Read α) (read : Json → Read α)
    (fields : List (String × Json)) : Read α := do
  match ← Read.ofOption (field? name fields) with
  | some j => read j
  | none => default

/-- Reads a value that may be `null`. -/
def nullable {α : Type} (read : Json → Read α) : Json → Read (Option α)
  | .null => return none
  | j => return some (← read j)

/-- Reads a field that may be missing or `null`. -/
def optional {α : Type} (name : String) (read : Json → Read α) (fields : List (String × Json)) :
    Read (Option α) :=
  defaulted name (pure none) (nullable read) fields

/-- Reads the fields of an object. -/
def object {α : Type} (read : List (String × Json) → Read α) : Json → Read α
  | .obj fields => read fields
  | _ => Read.ofOption none

/-- Reads one value after the other. -/
def all {α : Type} (read : Json → Read α) : List Json → Read (List α)
  | [] => return []
  | j :: js => return (← read j) :: (← all read js)

/-- Reads an array. -/
def list {α : Type} (read : Json → Read α) : Json → Read (List α)
  | .arr items => all read items
  | _ => Read.ofOption none

/-- Reads a text. -/
def text : Json → Read String
  | .str s => return s
  | _ => Read.ofOption none

/-- Reads a truth value. -/
def truth : Json → Read Bool
  | .bool b => return b
  | _ => Read.ofOption none

/-- Reads an unsigned 64-bit number. -/
def word : Json → Read UInt64
  | .int n => if 0 ≤ n ∧ n < Int.pow 2 64 then return UInt64.ofNat n.toNat else Read.ofOption none
  | _ => Read.ofOption none

/-- Reads a signed 64-bit number. -/
def signed : Json → Read Int64
  | .int n =>
    if -Int.pow 2 63 ≤ n ∧ n < Int.pow 2 63 then return Int64.ofInt n else Read.ofOption none
  | _ => Read.ofOption none

/-- Reads a double, also from a whole number. -/
def double : Json → Read Float
  | .float x => return x
  | .int n => return Float.ofInt n
  | _ => Read.ofOption none

/-- Reads a text of one character. -/
def character : Json → Read Char
  | .str s =>
    match s.toList with
    | [c] => return c
    | _ => Read.ofOption none
  | _ => Read.ofOption none

/-- Reads one of several names: the name alone, or an object that has the name as its only key and
nothing under it. Nothing is `null`, and `isNested` inside a tagged object also the empty object. -/
def oneOf (isNested : Bool) (names : List String) : Json → Read String
  | .str s => if s ∈ names then return s else Read.ofOption none
  | .obj [(s, .null)] => if s ∈ names then return s else Read.ofOption none
  | .obj [(s, .obj [])] => if isNested ∧ s ∈ names then return s else Read.ofOption none
  | _ => Read.ofOption none

/-- Reads the tag that says which of several forms an object has. Inside another tagged object the
position of the form among all forms will do as well. -/
def tag (isNested : Bool) (name : String) (forms : List String) :
    List (String × Json) → Read String :=
  required name fun
    | .str s => if s ∈ forms then return s else Read.ofOption none
    | .int n => if isNested ∧ 0 ≤ n then Read.ofOption forms[n.toNat]? else Read.ofOption none
    | _ => Read.ofOption none

/-- Reads a tagged object. All of the outermost one must be readable, also what nobody asks for. -/
def tagged {α : Type} (isNested : Bool) (read : List (String × Json) → Read α) (j : Json) :
    Read α :=
  if isNested || j.isReadable then object read j else Read.ofOption none

/-- Reads a place. -/
def span : Json → Read Span :=
  object fun fields => do
    return {
      file := ← defaulted "file" (pure "") text fields
      start := ← defaulted "start" (pure 0) word fields
      stop := ← defaulted "end" (pure 0) word fields
      line := ← defaulted "line" (pure 0) word fields
      col := ← defaulted "col" (pure 0) word fields }

/-- Reads the place among the fields of an object. -/
def spanField : List (String × Json) → Read Span :=
  defaulted "span" (pure {}) span

/-- Reads the identity and place among the fields of an object. -/
def node (fields : List (String × Json)) : Read Node := do
  let id ← defaulted "id" fresh (fun j => return ⟨← word j⟩) fields
  return { id, span := ← spanField fields }

end UnitAnalysis.Document

/-!
# JSON values

The values that documents are read into and written from. Whole numbers are kept apart from
fractional ones, because a place for a whole number takes no number that is written with a fraction
or an exponent. An object is the list of its fields as they stand, so that a field given twice can
be seen.

A text can be well formed and still stand for no value: a number too large for a double, an unpaired
half of a surrogate, or too deep a nesting. Such a part becomes `Json.unreadable`. It does no harm
in a field that nobody asks for, and refuses the document everywhere else.
-/

set_option autoImplicit false

namespace UnitAnalysis

/-- A JSON value. -/
inductive Json where
  | null
  | bool (b : Bool)
  /-- A whole number from the least signed to the greatest unsigned 64-bit number. -/
  | int (n : Int)
  | float (x : Float)
  | str (s : String)
  | arr (items : List Json)
  | obj (fields : List (String × Json))
  /-- A well-formed part of a text that stands for no value. -/
  | unreadable
  deriving Repr

namespace Json

instance : Inhabited Json := ⟨null⟩

mutual

/-- Whether every part of a value can be read. -/
def isReadable : Json → Bool
  | arr items => allReadable items
  | obj fields => fieldsReadable fields
  | unreadable => false
  | _ => true

/-- Whether every part of several values can be read. -/
def allReadable : List Json → Bool
  | [] => true
  | j :: js => j.isReadable && allReadable js

/-- Whether every part of every field can be read. -/
def fieldsReadable : List (String × Json) → Bool
  | [] => true
  | (_, j) :: fields => j.isReadable && fieldsReadable fields

end

mutual

/-- The number of arrays and objects around the innermost part of a value, plus one. -/
def height : Json → Nat
  | arr items => heightAll items + 1
  | obj fields => heightFields fields + 1
  | _ => 1

/-- The greatest height of several values. -/
def heightAll : List Json → Nat
  | [] => 0
  | j :: js => max j.height (heightAll js)

/-- The greatest height of a field. -/
def heightFields : List (String × Json) → Nat
  | [] => 0
  | (_, j) :: fields => max j.height (heightFields fields)

end

end Json

end UnitAnalysis

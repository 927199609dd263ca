import UnitAnalysis.Config.Basic
import UnitAnalysis.Syntax.TypeExpr
import UnitAnalysis.Text.Blank
import UnitAnalysis.Text.Letter

/-!
# Types in a configuration

A configuration writes types in a small syntax: a name, a type followed by `?`, or a type in square
brackets. Blanks may stand around every type.
-/

set_option autoImplicit false

namespace UnitAnalysis

/-- Whether characters are a name: a letter, then letters, numbers and underscores. -/
def isTypeName : List Char → Bool
  | [] => false
  | c :: cs => Text.isLetter c && cs.all fun c => Text.isLetterOrNumber c || c = '_'

/-- The characters before a last one. -/
def beforeLast? (last : Char) (cs : List Char) : Option (List Char) :=
  if cs.getLast? = some last then some cs.dropLast else none

/-- The characters between square brackets. -/
def betweenBrackets? : List Char → Option (List Char)
  | '[' :: cs => beforeLast? ']' cs
  | _ => none

/-- Reads a type. Every step takes away a character, so as much fuel as there are characters, and
one more, is enough. -/
def TypeExpr.ofChars? : (fuel : Nat) → List Char → Option TypeExpr
  | 0, _ => none
  | fuel + 1, cs =>
    let cs := Text.trim cs
    match beforeLast? '?' cs with
    | some inner => (ofChars? fuel inner).map (.optional {})
    | none =>
      match betweenBrackets? cs with
      | some inner => (ofChars? fuel inner).map (.array {})
      | none => if isTypeName cs then some (.named {} (String.ofList cs) []) else none

/-- Reads a type from a text. -/
def TypeExpr.ofText? (s : String) : Option TypeExpr :=
  ofChars? (s.length + 1) s.toList

namespace Config

/-- The further functions with the types of their results, or the first one whose type cannot be
read. -/
def intrinsicTypes (c : Config) : Except (String × String) (List (String × TypeExpr)) :=
  c.intrinsics.mapM fun (name, text) =>
    match TypeExpr.ofText? text with
    | some e => .ok (name, e)
    | none => .error (name, text)

/-- The further functions whose types can be read. -/
def readableIntrinsics (c : Config) : List (String × TypeExpr) :=
  c.intrinsics.filterMap fun (name, text) => (TypeExpr.ofText? text).map fun e => (name, e)

end Config

end UnitAnalysis

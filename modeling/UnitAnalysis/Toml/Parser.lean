import UnitAnalysis.Toml.Number
import UnitAnalysis.Toml.Value

/-!
# Reading TOML

A document is a list of lines: an entry goes into the table of the last header above it, and a
header begins a table. Values are nested less than eighty deep.
-/

set_option autoImplicit false

namespace UnitAnalysis.Toml

/-- The number of arrays and tables in braces that a value may not reach. -/
def nestingLimit : Nat := 80

mutual

/-- A value. `room` is how deep arrays and tables may still be nested, and `fuel` bounds the steps.
-/
def value : (room fuel : Nat) → List Char → Option (Toml × List Char)
  | room + 1, fuel + 1, '[' :: cs =>
    if room = 0 then none else elements room [] fuel (skipLayout false cs)
  | room + 1, fuel + 1, '\x7b' :: cs =>
    if room = 0 then none
    else
      match skipBlanks cs with
      | '\x7d' :: cs => some (.table .inline [], cs)
      | cs => pairs room [] fuel cs
  | _, _, 't' :: 'r' :: 'u' :: 'e' :: cs => some (.truth true, cs)
  | _, _, 'f' :: 'a' :: 'l' :: 's' :: 'e' :: cs => some (.truth false, cs)
  | _, _, '"' :: cs => (string ('"' :: cs)).map fun (s, cs) => (.text s, cs)
  | _, _, '\'' :: cs => (string ('\'' :: cs)).map fun (s, cs) => (.text s, cs)
  | _, _, cs => (scalar? cs).map fun cs => (.scalar, cs)

/-- The rest of an array, in which blanks, ends of lines and comments may stand anywhere and a comma
after the last element. -/
def elements (room : Nat) (acc : List Toml) : (fuel : Nat) → List Char → Option (Toml × List Char)
  | _, ']' :: cs => some (.array acc.reverse, cs)
  | fuel + 1, cs => do
    let (v, cs) ← value room fuel cs
    match skipLayout false cs with
    | ',' :: cs => elements room (v :: acc) fuel (skipLayout false cs)
    | ']' :: cs => return (.array (v :: acc).reverse, cs)
    | _ => none
  | 0, _ => none

/-- The rest of a table in braces, on one line and without a comma after the last entry. -/
def pairs (room : Nat) (acc : Entries) : (fuel : Nat) → List Char → Option (Toml × List Char)
  | fuel + 1, cs => do
    let ((path, last), cs) ← key cs
    let cs ← exactly? '=' cs
    let (v, cs) ← value room fuel (skipBlanks cs)
    let acc ← insert path last v .header acc
    match skipBlanks cs with
    | ',' :: cs => pairs room acc fuel cs
    | '\x7d' :: cs => return (.table .inline acc, cs)
    | _ => none
  | 0, _ => none

end

/-- A document so far: its entries, and the path of the table that is being filled. -/
structure Draft where
  /-- The entries of the whole document. -/
  root : Entries := []
  /-- The header of the table that is being filled. -/
  path : List String := []

namespace Draft

/-- Adds an entry to the table that is being filled. -/
def add (d : Draft) (path : List String) (key : String) (v : Toml) : Option Draft := do
  let root ← update false (insert path key v) d.path .header d.root
  return { d with root }

/-- Begins a table. -/
def begin (d : Draft) (isElement : Bool) (path : List String) (key : String) : Option Draft := do
  let start := if isElement then openElement key else openTable key
  let root ← update false (fun _ => start) path .header d.root
  return { root, path := path ++ [key] }

end Draft

/-- A line with an entry. -/
def entryLine (d : Draft) (cs : List Char) : Option (Draft × List Char) := do
  let ((path, last), cs) ← key cs
  let cs ← exactly? '=' cs
  let (v, cs) ← value nestingLimit (2 * cs.length + 2) (skipBlanks cs)
  let cs ← lineEnd? cs
  return (← d.add path last v, cs)

/-- A line with a header, after its opening brackets. -/
def headerLine (d : Draft) (isElement : Bool) (cs : List Char) : Option (Draft × List Char) := do
  let ((path, last), cs) ← key cs
  let cs ← exactly? ']' cs
  let cs ← if isElement then exactly? ']' cs else some cs
  let cs ← lineEnd? cs
  return (← d.begin isElement path last, cs)

/-- The lines of a document. Every line takes a character, so one more than their number is enough
fuel. -/
def lines (d : Draft) : (fuel : Nat) → List Char → Option Entries
  | 0, _ => none
  | fuel + 1, cs =>
    match skipBlanks cs with
    | [] => some d.root
    | '#' :: cs => (lineEnd? ('#' :: cs)).bind (lines d fuel)
    | '\n' :: cs => lines d fuel cs
    | '\r' :: '\n' :: cs => lines d fuel cs
    | '[' :: '[' :: cs => do
      let (d, cs) ← headerLine d true cs
      lines d fuel cs
    | '[' :: cs => do
      let (d, cs) ← headerLine d false cs
      lines d fuel cs
    | cs => do
      let (d, cs) ← entryLine d cs
      lines d fuel cs

/-- Leaves out a byte order mark. -/
def skipMark : List Char → List Char
  | '\ufeff' :: cs => cs
  | cs => cs

/-- The entries of a document. -/
def parse? (text : String) : Option Entries :=
  lines {} (text.length + 1) (skipMark text.toList)

end UnitAnalysis.Toml

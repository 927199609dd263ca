import UnitAnalysis.Json.Number

/-!
# Reading JSON text

`Json.parse?` reads a whole text: one value, with blanks around it and nothing else. It takes strict
JSON only, so neither a trailing comma nor a leading zero, a comment, a byte order mark or a raw
control character in a string. What is well formed but has no value is read as `Json.unreadable`;
arrays and objects may be nested `Json.nestingLimit` deep before that happens.
-/

set_option autoImplicit false

namespace UnitAnalysis.Json

/-- How deep arrays and objects may be nested in a text. -/
def nestingLimit : Nat := 127

namespace Parser

/-- A character that may stand between the parts of a text. -/
def isBlank (c : Char) : Bool :=
  c = ' ' || c = '\n' || c = '\t' || c = '\r'

/-- The text after its leading blanks. -/
def skipBlanks (cs : List Char) : List Char :=
  cs.dropWhile isBlank

/-- The value of a hexadecimal digit. -/
def hexDigit? (c : Char) : Option Nat :=
  if '0' ≤ c ∧ c ≤ '9' then some (c.toNat - 48)
  else if 'a' ≤ c ∧ c ≤ 'f' then some (c.toNat - 87)
  else if 'A' ≤ c ∧ c ≤ 'F' then some (c.toNat - 55)
  else none

/-- The value of four hexadecimal digits. -/
def hex4? (a b c d : Char) : Option Nat := do
  return (((← hexDigit? a) * 16 + (← hexDigit? b)) * 16 + (← hexDigit? c)) * 16 + (← hexDigit? d)

/-- The character that a one-letter escape stands for. -/
def escape? (c : Char) : Option Char :=
  match c with
  | '"' => some '"'
  | '\\' => some '\\'
  | '/' => some '/'
  | 'b' => some '\x08'
  | 'f' => some '\x0c'
  | 'n' => some '\n'
  | 'r' => some '\r'
  | 't' => some '\t'
  | _ => none

/-- A part of a string: a character, or a 16-bit unit that is written by its number. -/
inductive Piece where
  | char (c : Char)
  | unit (n : Nat)

/-- Reads the parts of a string after its opening quote, up to its closing quote. Those read so far
come in reverse. -/
def pieces (acc : List Piece) : List Char → Option (List Piece × List Char)
  | '"' :: rest => some (acc.reverse, rest)
  | '\\' :: 'u' :: a :: b :: c :: d :: rest =>
    match hex4? a b c d with
    | some n => pieces (.unit n :: acc) rest
    | none => none
  | '\\' :: c :: rest =>
    match escape? c with
    | some e => pieces (.char e :: acc) rest
    | none => none
  | c :: rest => if c.toNat < 0x20 ∨ c = '\\' then none else pieces (.char c :: acc) rest
  | [] => none

/-- Whether a unit is the first half of a surrogate pair. -/
def isHigh (n : Nat) : Bool :=
  decide (0xD800 ≤ n ∧ n < 0xDC00)

/-- Whether a unit is the second half of a surrogate pair. -/
def isLow (n : Nat) : Bool :=
  decide (0xDC00 ≤ n ∧ n < 0xE000)

/-- The characters that parts of a string stand for; there are none when a half of a surrogate pair
stands alone. Those found so far come in reverse. -/
def join (acc : List Char) : List Piece → Option (List Char)
  | [] => some acc.reverse
  | .char c :: rest => join (c :: acc) rest
  | .unit high :: .unit low :: rest =>
    if isHigh high && isLow low then
      join (Char.ofNat (0x10000 + (high - 0xD800) * 0x400 + (low - 0xDC00)) :: acc) rest
    else if isHigh high || isLow high then none
    else join (Char.ofNat high :: acc) (.unit low :: rest)
  | .unit n :: rest =>
    if isHigh n || isLow n then none else join (Char.ofNat n :: acc) rest

/-- Reads a string after its opening quote. -/
def string (cs : List Char) : Option (Option String × List Char) :=
  match pieces [] cs with
  | some (parts, rest) => some ((join [] parts).map String.ofList, rest)
  | none => none

/-- The leading decimal digits of a text, and the text after them. -/
def digits (cs : List Char) : List Nat × List Char :=
  ((cs.takeWhile Char.isDigit).map fun c => c.toNat - 48, cs.dropWhile Char.isDigit)

/-- Digits as a whole number. -/
def ofDigits (ds : List Nat) : Nat :=
  ds.foldl (fun n d => n * 10 + d) 0

/-- Reads the digits after a point, when a point stands there. -/
def fraction : List Char → Option (Option (List Nat) × List Char)
  | '.' :: rest =>
    match digits rest with
    | ([], _) => none
    | (ds, rest) => some (some ds, rest)
  | cs => some (none, cs)

/-- Reads the digits of an exponent and gives them a sign. -/
def signedExponent (isNegative : Bool) (cs : List Char) : Option (Option Int × List Char) :=
  match digits cs with
  | ([], _) => none
  | (ds, rest) => some (some (if isNegative then -(ofDigits ds : Int) else ofDigits ds), rest)

/-- Reads an exponent, when one stands there. -/
def exponent : List Char → Option (Option Int × List Char)
  | c :: rest =>
    if c = 'e' ∨ c = 'E' then
      match rest with
      | '-' :: rest => signedExponent true rest
      | '+' :: rest => signedExponent false rest
      | rest => signedExponent false rest
    else some (none, c :: rest)
  | [] => some (none, [])

/-- Reads a number after its sign. A zero is followed by no other digit before the point. -/
def number (isNegative : Bool) (cs : List Char) : Option (Json × List Char) := do
  let (whole, rest) := digits cs
  guard (whole ≠ [] ∧ (whole.head? = some 0 → whole.length = 1))
  let (fraction, rest) ← fraction rest
  let (exponent, rest) ← exponent rest
  return (Numeral.value { isNegative, whole, fraction, exponent }, rest)

/-- An array or object that was read, unless it is nested too deep. -/
def within (room : Nat) (j : Json) : Json :=
  if room = 0 then unreadable else j

/-- Reads a key of an object and the colon after it. -/
def key (cs : List Char) : Option (Option String × List Char) :=
  match skipBlanks cs with
  | '"' :: rest =>
    match string rest with
    | some (k, rest) =>
      match skipBlanks rest with
      | ':' :: rest => some (k, rest)
      | _ => none
    | none => none
  | _ => none

mutual

/-- Reads one value. `room` is how many arrays and objects may still be opened, and `fuel` bounds
the number of steps. -/
def value (room : Nat) : (fuel : Nat) → List Char → Option (Json × List Char)
  | 0, _ => none
  | fuel + 1, cs =>
    match skipBlanks cs with
    | 'n' :: 'u' :: 'l' :: 'l' :: rest => some (.null, rest)
    | 't' :: 'r' :: 'u' :: 'e' :: rest => some (.bool true, rest)
    | 'f' :: 'a' :: 'l' :: 's' :: 'e' :: rest => some (.bool false, rest)
    | '"' :: rest =>
      match string rest with
      | some (some s, rest) => some (.str s, rest)
      | some (none, rest) => some (.unreadable, rest)
      | none => none
    | '[' :: rest =>
      match skipBlanks rest with
      | ']' :: rest => some (within room (.arr []), rest)
      | rest => elements room [] fuel rest
    | '{' :: rest =>
      match skipBlanks rest with
      | '}' :: rest => some (within room (.obj []), rest)
      | rest => members room (some []) fuel rest
    | '-' :: rest => number true rest
    | rest => number false rest

/-- Reads the elements of an array to its closing bracket. Those read so far come in reverse. -/
def elements (room : Nat) (acc : List Json) : (fuel : Nat) → List Char → Option (Json × List Char)
  | 0, _ => none
  | fuel + 1, cs =>
    match value (room - 1) fuel cs with
    | none => none
    | some (j, rest) =>
      match skipBlanks rest with
      | ',' :: rest => elements room (j :: acc) fuel rest
      | ']' :: rest => some (within room (.arr (j :: acc).reverse), rest)
      | _ => none

/-- Reads the fields of an object to its closing brace. Those read so far come in reverse, and are
lost when a key stands for no text. -/
def members (room : Nat) (acc : Option (List (String × Json))) :
    (fuel : Nat) → List Char → Option (Json × List Char)
  | 0, _ => none
  | fuel + 1, cs =>
    match key cs with
    | none => none
    | some (k, rest) =>
      match value (room - 1) fuel rest with
      | none => none
      | some (j, rest) =>
        let acc := match acc, k with
          | some fields, some k => some ((k, j) :: fields)
          | _, _ => none
        match skipBlanks rest with
        | ',' :: rest => members room acc fuel rest
        | '}' :: rest =>
          match acc with
          | some fields => some (within room (.obj fields.reverse), rest)
          | none => some (.unreadable, rest)
        | _ => none

end

end Parser

/-- Reads a list of characters that is one value with blanks around it, nested at most `limit`
deep. Every value or element takes a character, so twice their number bounds the steps. -/
def parseChars? (limit : Nat) (cs : List Char) : Option Json :=
  match Parser.value limit (2 * cs.length + 2) cs with
  | some (j, rest) => if Parser.skipBlanks rest = [] then some j else none
  | none => none

/-- Reads a text that is one value with blanks around it. -/
def parse? (text : String) : Option Json :=
  parseChars? nestingLimit text.toList

end UnitAnalysis.Json

import UnitAnalysis.Json.Basic
import UnitAnalysis.Decimal.Shortest

/-!
# Writing JSON text

`Json.render` writes a value without blanks and with its fields in the order in which they stand. Of
the characters of a string only quotes, backslashes and control characters are escaped. A double has
the fewest digits that read back; it is written positionally from `1e-5` up to below `1e16`, always
with a point, and with an exponent otherwise.
-/

set_option autoImplicit false

namespace UnitAnalysis.Json

/-- A hexadecimal digit in lower case. -/
def hexChar (n : Nat) : Char :=
  if n < 10 then Char.ofNat (48 + n) else Char.ofNat (87 + n)

/-- A character as it stands inside a string. -/
def escapeChar (c : Char) : List Char :=
  match c with
  | '"' => ['\\', '"']
  | '\\' => ['\\', '\\']
  | '\x08' => ['\\', 'b']
  | '\t' => ['\\', 't']
  | '\n' => ['\\', 'n']
  | '\x0c' => ['\\', 'f']
  | '\r' => ['\\', 'r']
  | c =>
    if c.toNat < 0x20 then ['\\', 'u', '0', '0', hexChar (c.toNat / 16), hexChar (c.toNat % 16)]
    else [c]

/-- A string in quotes. -/
def quote (s : String) : String :=
  "\"" ++ String.ofList (s.toList.flatMap escapeChar) ++ "\""

/-- A text of zeros. -/
def zeros (n : Nat) : String :=
  String.ofList (List.replicate n '0')

/-- A positive decimal: positionally when its first digit stands for `1e-5` to `1e15`. -/
def renderDecimal (d : Decimal) : String :=
  let digits := toString d.digits
  let point : Int := digits.length + d.power
  if 0 ≤ d.power ∧ point ≤ 16 then digits ++ zeros d.power.toNat ++ ".0"
  else if 0 < point ∧ point ≤ 16 then
    String.ofList (digits.toList.take point.toNat) ++ "."
      ++ String.ofList (digits.toList.drop point.toNat)
  else if -5 < point ∧ point ≤ 0 then "0." ++ zeros (-point).toNat ++ digits
  else if digits.length = 1 then digits ++ "e" ++ toString (point - 1)
  else String.ofList (digits.toList.take 1) ++ "." ++ String.ofList (digits.toList.drop 1)
    ++ "e" ++ toString (point - 1)

/-- A double; one that is not finite has no JSON form and is written as `null`. -/
def renderFloat (x : Float) : String :=
  let bits := x.toBits.toNat
  let exponent := bits / Nat.pow 2 52 % Nat.pow 2 11
  let fraction := bits % Nat.pow 2 52
  let sign := if bits / Nat.pow 2 63 = 1 then "-" else ""
  if exponent = 2047 then "null"
  else if exponent = 0 ∧ fraction = 0 then sign ++ "0.0"
  else sign ++ renderDecimal (Decimal.shortest exponent fraction)

mutual

/-- The text of a value. -/
def render : Json → String
  | null => "null"
  | bool b => if b then "true" else "false"
  | int n => toString n
  | float x => renderFloat x
  | str s => quote s
  | arr items => "[" ++ String.intercalate "," (renderAll items) ++ "]"
  | obj fields => "\x7b" ++ String.intercalate "," (renderFields fields) ++ "\x7d"
  | unreadable => "null"

/-- The texts of several values. -/
def renderAll : List Json → List String
  | [] => []
  | j :: js => render j :: renderAll js

/-- The texts of fields, each with its key. -/
def renderFields : List (String × Json) → List String
  | [] => []
  | (k, j) :: fields => (quote k ++ ":" ++ render j) :: renderFields fields

end

end UnitAnalysis.Json

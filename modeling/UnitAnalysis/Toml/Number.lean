import UnitAnalysis.Toml.Text

/-!
# Numbers and dates of TOML

A configuration has no place for numbers and dates, so these readers only tell where one ends and
refuse those that stand for nothing: whole numbers beyond 64 bits, decimal ones beyond the doubles,
and days and times that do not exist.
-/

set_option autoImplicit false

namespace UnitAnalysis.Toml

/-- Digits, between which single underscores may stand. -/
def digitRun (isDigit : Char → Bool) (acc : List Char) : List Char → List Char × List Char
  | '_' :: c :: cs =>
    if isDigit c then digitRun isDigit (c :: acc) cs else (acc.reverse, '_' :: c :: cs)
  | c :: cs => if isDigit c then digitRun isDigit (c :: acc) cs else (acc.reverse, c :: cs)
  | [] => (acc.reverse, [])

/-- At least one digit. -/
def digits? (isDigit : Char → Bool) (cs : List Char) : Option (List Char × List Char) :=
  match cs with
  | c :: _ =>
    if isDigit c then
      let (digits, rest) := digitRun isDigit [] cs
      some (digits, rest)
    else none
  | [] => none

/-- The number that digits stand for. -/
def ofDigits (base : Nat) (digits : List Char) : Nat :=
  digits.foldl (fun n c => base * n + (hexDigit? c).getD 0) 0

/-- Whether a character is a digit of a base. -/
def isDigitOf (base : Nat) (c : Char) : Bool :=
  match hexDigit? c with
  | some d => d < base
  | none => false

/-- Takes away a sign, and tells whether it is a minus. -/
def sign : List Char → Bool × List Char
  | '-' :: cs => (true, cs)
  | '+' :: cs => (false, cs)
  | cs => (false, cs)

/-- A whole number after a base prefix. -/
def basedInteger? (base : Nat) (cs : List Char) : Option (List Char) := do
  let (digits, rest) ← digits? (isDigitOf base) cs
  if ofDigits base digits < Nat.pow 2 63 then some rest else none

/-- The digits of a decimal whole number without sign: a zero stands alone. -/
def decimalDigits? : List Char → Option (List Char × List Char)
  | '0' :: cs => some (['0'], cs)
  | cs => digits? Char.isDigit cs

/-- An exponent, if one stands there. -/
def exponent? : List Char → Option (Option (Bool × List Char) × List Char)
  | c :: cs =>
    if c = 'e' || c = 'E' then do
      let (isNegative, cs) := sign cs
      let (digits, rest) ← digits? Char.isDigit cs
      return (some (isNegative, digits), rest)
    else some (none, c :: cs)
  | [] => some (none, [])

/-- The digits after a decimal point, if one stands there. -/
def fraction? : List Char → Option (Option (List Char) × List Char)
  | '.' :: cs => do
    let (digits, rest) ← digits? Char.isDigit cs
    return (some digits, rest)
  | cs => some (none, cs)

/-- Whether a decimal number lies beyond all doubles, also after rounding. Exponents that decide the
matter alone are not raised to a power. -/
def isHuge (whole frac : List Char) (isDown : Bool) (exponent : List Char) : Bool :=
  let mantissa := ofDigits 10 (whole ++ frac)
  let power := ofDigits 10 exponent
  let limit := Nat.pow 2 1024 - Nat.pow 2 970
  if mantissa = 0 then false
  else if isDown then
    power ≤ whole.length && mantissa ≥ limit * Nat.pow 10 (frac.length + power)
  else power > 400 + frac.length || mantissa * Nat.pow 10 power ≥ limit * Nat.pow 10 frac.length

/-- A decimal number, whole or not. -/
def decimalNumber? (cs : List Char) : Option (List Char) := do
  let (isNegative, cs) := sign cs
  let (whole, cs) ← decimalDigits? cs
  let (frac, cs) ← fraction? cs
  let (exponent, cs) ← exponent? cs
  match frac, exponent with
  | none, none =>
    let n := ofDigits 10 whole
    if n < Nat.pow 2 63 || (isNegative && n = Nat.pow 2 63) then some cs else none
  | frac, exponent =>
    let (isDown, digits) := exponent.getD (false, [])
    if isHuge whole (frac.getD []) isDown digits then none else some cs

/-- Infinity or the number that is none, perhaps with a sign. -/
def specialNumber? (cs : List Char) : Option (List Char) :=
  match (sign cs).2 with
  | 'i' :: 'n' :: 'f' :: cs => some cs
  | 'n' :: 'a' :: 'n' :: cs => some cs
  | _ => none

/-- A number. -/
def number? : List Char → Option (List Char)
  | '0' :: 'x' :: cs => basedInteger? 16 cs
  | '0' :: 'o' :: cs => basedInteger? 8 cs
  | '0' :: 'b' :: cs => basedInteger? 2 cs
  | cs => (specialNumber? cs).or (decimalNumber? cs)

/-- A number of exactly `count` digits between two bounds. -/
def fixed? (count least greatest : Nat) (cs : List Char) : Option (Nat × List Char) :=
  let digits := cs.take count
  let n := ofDigits 10 digits
  if digits.length = count && digits.all Char.isDigit && least ≤ n && n ≤ greatest then
    some (n, cs.drop count)
  else none

/-- A character that must stand there. -/
def exactly? (c : Char) : List Char → Option (List Char)
  | d :: cs => if c = d then some cs else none
  | [] => none

/-- The number of days of a month. -/
def daysOf (year month : Nat) : Nat :=
  if month = 2 then
    if year % 4 = 0 && (year % 100 ≠ 0 || year % 400 = 0) then 29 else 28
  else if month ∈ [4, 6, 9, 11] then 30
  else 31

/-- A date. -/
def date? (cs : List Char) : Option (List Char) := do
  let (year, cs) ← fixed? 4 0 9999 cs
  let cs ← exactly? '-' cs
  let (month, cs) ← fixed? 2 1 12 cs
  let cs ← exactly? '-' cs
  let (_, cs) ← fixed? 2 1 (daysOf year month) cs
  return cs

/-- The fraction of a second, if one stands there. -/
def secondFraction? : List Char → Option (List Char)
  | '.' :: cs =>
    let rest := cs.dropWhile Char.isDigit
    if rest.length < cs.length then some rest else none
  | cs => some cs

/-- A time of day. -/
def time? (cs : List Char) : Option (List Char) := do
  let (_, cs) ← fixed? 2 0 23 cs
  let cs ← exactly? ':' cs
  let (_, cs) ← fixed? 2 0 59 cs
  let cs ← exactly? ':' cs
  let (_, cs) ← fixed? 2 0 60 cs
  secondFraction? cs

/-- A difference to universal time, if one stands there. -/
def offset? : List Char → Option (List Char)
  | c :: cs =>
    if c = 'Z' || c = 'z' then some cs
    else if c = '+' || c = '-' then do
      let (_, cs) ← fixed? 2 0 23 cs
      let cs ← exactly? ':' cs
      let (_, cs) ← fixed? 2 0 59 cs
      return cs
    else some (c :: cs)
  | [] => some []

/-- The time of day and the difference to universal time after a date, if they stand there. -/
def timeAfterDate? : List Char → Option (List Char)
  | c :: cs =>
    if c = 'T' || c = 't' then (time? cs).bind offset?
    else if c = ' ' && (fixed? 2 0 23 cs).isSome then (time? cs).bind offset?
    else some (c :: cs)
  | [] => some []

/-- A date or a time of day, or both. -/
def dateTime? (cs : List Char) : Option (List Char) :=
  match date? cs with
  | some rest => timeAfterDate? rest
  | none => time? cs

/-- A number or a date. -/
def scalar? (cs : List Char) : Option (List Char) :=
  (dateTime? cs).or (number? cs)

end UnitAnalysis.Toml

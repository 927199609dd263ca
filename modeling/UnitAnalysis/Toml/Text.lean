/-!
# Texts and keys of TOML

The readers of this module take characters from the front of a list and give back the rest. A basic
text stands between quotation marks and knows escapes; a literal one stands between apostrophes and
knows none; both can run over several lines between three marks. A line ends in a line feed, before
which a carriage return may stand.
-/

set_option autoImplicit false

namespace UnitAnalysis.Toml

/-- Whether a character is a blank within a line. -/
def isBlank (c : Char) : Bool :=
  c = ' ' || c = '\t'

/-- Leaves out blanks. -/
def skipBlanks (cs : List Char) : List Char :=
  cs.dropWhile isBlank

/-- Whether a character may stand in a comment: no control character but the tabulator. -/
def isPlain (c : Char) : Bool :=
  c = '\t' || (32 ≤ c.toNat && c.toNat ≤ 126) || 128 ≤ c.toNat

/-- What is after the end of a line. -/
def newline? : List Char → Option (List Char)
  | '\n' :: cs => some cs
  | '\r' :: '\n' :: cs => some cs
  | _ => none

/-- Leaves out a comment. -/
def skipComment : List Char → List Char
  | '#' :: cs => cs.dropWhile isPlain
  | cs => cs

/-- What is after a line of which only blanks and a comment are left. -/
def lineEnd? (cs : List Char) : Option (List Char) :=
  match skipComment (skipBlanks cs) with
  | [] => some []
  | cs => newline? cs

/-- Leaves out blanks, ends of lines and comments. -/
def skipLayout : (isComment : Bool) → List Char → List Char
  | _, '\n' :: cs => skipLayout false cs
  | _, '\r' :: '\n' :: cs => skipLayout false cs
  | false, '#' :: cs => skipLayout true cs
  | false, c :: cs => if isBlank c then skipLayout false cs else c :: cs
  | true, c :: cs => if isPlain c then skipLayout true cs else c :: cs
  | _, [] => []

/-- The value of a hexadecimal digit. -/
def hexDigit? (c : Char) : Option Nat :=
  if c.isDigit then some (c.toNat - '0'.toNat)
  else if 'a' ≤ c ∧ c ≤ 'f' then some (c.toNat - 'a'.toNat + 10)
  else if 'A' ≤ c ∧ c ≤ 'F' then some (c.toNat - 'A'.toNat + 10)
  else none

/-- The character with a code point in hexadecimal digits. -/
def codePoint? (digits : List Char) : Option Char := do
  let n ← digits.foldlM (fun n c => (hexDigit? c).map fun d => 16 * n + d) 0
  if h : n.isValidChar then some (Char.ofNatAux n h) else none

/-- The character that an escape of one letter stands for. -/
def escape? : Char → Option Char
  | 'b' => some '\x08'
  | 't' => some '\t'
  | 'n' => some '\n'
  | 'f' => some '\x0c'
  | 'r' => some '\r'
  | '"' => some '"'
  | '\\' => some '\\'
  | _ => none

/-- The character that an escape stands for; `cs` is what follows the backslash. -/
def escaped? : (cs : List Char) → Option (Char × List Char)
  | 'u' :: cs => do
    if cs.length < 4 then none else return (← codePoint? (cs.take 4), cs.drop 4)
  | 'U' :: cs => do
    if cs.length < 8 then none else return (← codePoint? (cs.take 8), cs.drop 8)
  | c :: cs => (escape? c).map fun e => (e, cs)
  | [] => none

/-- What is after a backslash at the end of a line: it takes away all blanks and ends of lines. -/
def continued? (cs : List Char) : Option (List Char) :=
  (newline? (skipBlanks cs)).map (skipWhite ·)
where
  /-- Leaves out blanks and ends of lines. -/
  skipWhite : List Char → List Char
    | '\n' :: cs => skipWhite cs
    | '\r' :: '\n' :: cs => skipWhite cs
    | c :: cs => if isBlank c then skipWhite cs else c :: cs
    | [] => []

/-- The rest of a basic text on one line. Every step takes a character, so their number is enough
fuel. -/
def basic (acc : List Char) : (fuel : Nat) → List Char → Option (String × List Char)
  | _, '"' :: cs => some (String.ofList acc.reverse, cs)
  | fuel + 1, '\\' :: cs => do
    let (c, cs) ← escaped? cs
    basic (c :: acc) fuel cs
  | fuel + 1, c :: cs => if isPlain c then basic (c :: acc) fuel cs else none
  | _, _ => none

/-- The rest of a literal text on one line. -/
def literal (acc : List Char) : List Char → Option (String × List Char)
  | '\'' :: cs => some (String.ofList acc.reverse, cs)
  | c :: cs => if isPlain c then literal (c :: acc) cs else none
  | [] => none

/-- The end of a text over several lines, after three marks: up to two more marks belong to the
text. -/
def closing (mark : Char) (acc cs : List Char) : String × List Char :=
  let extra := ((cs.take 2).takeWhile fun c => c = mark).length
  (String.ofList (acc.reverse ++ List.replicate extra mark), cs.drop extra)

/-- The rest of a basic text over several lines. -/
def multiBasic (acc : List Char) : (fuel : Nat) → List Char → Option (String × List Char)
  | _, '"' :: '"' :: '"' :: cs => some (closing '"' acc cs)
  | fuel + 1, '\\' :: cs =>
    match continued? cs with
    | some cs => multiBasic acc fuel cs
    | none => do
      let (c, cs) ← escaped? cs
      multiBasic (c :: acc) fuel cs
  | fuel + 1, '\n' :: cs => multiBasic ('\n' :: acc) fuel cs
  | fuel + 1, '\r' :: '\n' :: cs => multiBasic ('\n' :: acc) fuel cs
  | fuel + 1, c :: cs => if isPlain c then multiBasic (c :: acc) fuel cs else none
  | _, _ => none

/-- The rest of a literal text over several lines. -/
def multiLiteral (acc : List Char) : List Char → Option (String × List Char)
  | '\'' :: '\'' :: '\'' :: cs => some (closing '\'' acc cs)
  | '\n' :: cs => multiLiteral ('\n' :: acc) cs
  | '\r' :: '\n' :: cs => multiLiteral ('\n' :: acc) cs
  | c :: cs => if isPlain c then multiLiteral (c :: acc) cs else none
  | [] => none

/-- Leaves out the end of the line on which a text over several lines begins. -/
def skipFirstNewline (cs : List Char) : List Char :=
  (newline? cs).getD cs

/-- A text of any kind. -/
def string : List Char → Option (String × List Char)
  | '"' :: '"' :: '"' :: cs => multiBasic [] cs.length (skipFirstNewline cs)
  | '"' :: cs => basic [] cs.length cs
  | '\'' :: '\'' :: '\'' :: cs => multiLiteral [] (skipFirstNewline cs)
  | '\'' :: cs => literal [] cs
  | _ => none

/-- Whether a character may stand in a key without marks. -/
def isBare (c : Char) : Bool :=
  c.isAlphanum || c = '_' || c = '-'

/-- A key without dots. -/
def simpleKey : List Char → Option (String × List Char)
  | '"' :: cs => basic [] cs.length cs
  | '\'' :: cs => literal [] cs
  | cs =>
    let name := cs.takeWhile isBare
    if name.isEmpty then none else some (String.ofList name, cs.dropWhile isBare)

/-- The parts of a key after a dot, with blanks around them. -/
def keyParts : (fuel : Nat) → List Char → Option (List String × List Char)
  | 0, _ => none
  | fuel + 1, cs => do
    let (part, cs) ← simpleKey (skipBlanks cs)
    match skipBlanks cs with
    | '.' :: cs =>
      let (parts, cs) ← keyParts fuel cs
      return (part :: parts, cs)
    | cs => return ([part], cs)

/-- A key: the parts before the last dot, and the last part. -/
def key (cs : List Char) : Option ((List String × String) × List Char) := do
  let (parts, rest) ← keyParts (cs.length + 1) cs
  let last ← parts.getLast?
  return ((parts.dropLast, last), rest)

end UnitAnalysis.Toml

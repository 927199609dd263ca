import UnitAnalysis.Table

/-!
# TOML values

The values of TOML documents and how tables grow. A table remembers what it was made by, because
that decides whether a later line may add to it: a table in braces is complete, one with a header
may have its header only once, and dotted keys add only to tables that dotted keys made.
-/

set_option autoImplicit false

namespace UnitAnalysis

/-- What a table was made by. -/
inductive TableForm where
  /-- Braces around its entries. -/
  | inline
  /-- Dotted keys. -/
  | dotted
  /-- The header of a table inside it. -/
  | implicit
  /-- Its own header. -/
  | header
  deriving DecidableEq, Repr

/-- A TOML value. -/
inductive Toml where
  | text (s : String)
  | truth (b : Bool)
  /-- A number or a date, of which only the kind is kept. -/
  | scalar
  | array (items : List Toml)
  | table (form : TableForm) (entries : List (String × Toml))
  /-- The tables with one header in double brackets. -/
  | tables (items : List (List (String × Toml)))
  deriving Repr

namespace Toml

/-- The entries of a table. -/
abbrev Entries := List (String × Toml)

/-- Whether keys may lead through a table: no keys lead into braces, and dotted ones lead only
through tables without a header. -/
def TableForm.isOpen (isDotted : Bool) : TableForm → Bool
  | .inline => false
  | .header => !isDotted
  | .dotted => true
  | .implicit => true

/-- Changes the table at the end of a path. Tables that are missing on the way are made, and a path
through the tables of a header in double brackets leads through the last one. -/
def update (isDotted : Bool) (change : TableForm → Entries → Option Entries) :
    (path : List String) → TableForm → Entries → Option Entries
  | [], form, entries => change form entries
  | key :: path, _, entries =>
    match Table.find key entries with
    | none => do
      let form := if isDotted then .dotted else .implicit
      let inner ← update isDotted change path form []
      return Table.put key (.table form inner) entries
    | some (.table form inner) => do
      if TableForm.isOpen isDotted form then
        let inner ← update isDotted change path form inner
        return Table.put key (.table form inner) entries
      else none
    | some (.tables items) => do
      let inner ← update isDotted change path .header (items.getLast?.getD [])
      return Table.put key (.tables (items.dropLast ++ [inner])) entries
    | some _ => none

/-- Adds an entry to a table that was reached by `path`. The key must be new, and after dotted keys
the table must be one that dotted keys made. -/
def addEntry (path : List String) (key : String) (value : Toml) (form : TableForm)
    (entries : Entries) : Option Entries :=
  if (form = .dotted) ↔ path = [] then none
  else if (Table.find key entries).isSome then none
  else some (entries ++ [(key, value)])

/-- Adds an entry under a dotted key to a table. -/
def insert (path : List String) (key : String) (value : Toml) (form : TableForm)
    (entries : Entries) : Option Entries :=
  update true (addEntry path key value) path form entries

/-- The table of a header begins. It may be there already, but without a header. -/
def openTable (key : String) (entries : Entries) : Option Entries :=
  match Table.find key entries with
  | none => some (Table.put key (.table .header []) entries)
  | some (.table .implicit inner) => some (Table.put key (.table .header inner) entries)
  | some _ => none

/-- The next table of a header in double brackets begins. -/
def openElement (key : String) (entries : Entries) : Option Entries :=
  match Table.find key entries with
  | none => some (Table.put key (.tables [[]]) entries)
  | some (.tables items) => some (Table.put key (.tables (items ++ [[]])) entries)
  | some _ => none

end Toml

end UnitAnalysis

/-!
# Keyed tables

A `Table` is a finite map kept as the list of its entries. An insertion under a key that is present
replaces the value where it stands, and any other goes to the end, so every key keeps the place of
its first insertion. The two lemmas on `get?` say what a later reader sees; nothing outside this
file needs to look at the list itself to reason about look-ups.
-/

set_option autoImplicit false

namespace UnitAnalysis

/-- A finite map from `κ` to `α`, in the order in which its keys were first inserted. -/
structure Table (κ α : Type) where
  /-- The entries, first inserted first. -/
  entries : List (κ × α) := []
  deriving Repr

namespace Table

variable {κ α : Type}

instance : Inhabited (Table κ α) := ⟨{}⟩

/-- Puts `v` under `k` in a list of entries, in place when `k` is there and at the end when not. -/
def put [DecidableEq κ] (k : κ) (v : α) : List (κ × α) → List (κ × α)
  | [] => [(k, v)]
  | (k', v') :: rest => if k' = k then (k, v) :: rest else (k', v') :: put k v rest

/-- The value under the first entry for `k` in a list of entries. -/
def find [DecidableEq κ] (k : κ) : List (κ × α) → Option α
  | [] => none
  | (k', v') :: rest => if k' = k then some v' else find k rest

/-- The value under `k`. -/
def get? [DecidableEq κ] (t : Table κ α) (k : κ) : Option α :=
  find k t.entries

/-- Whether `k` has a value. -/
def contains [DecidableEq κ] (t : Table κ α) (k : κ) : Bool :=
  (t.get? k).isSome

/-- Maps `k` to `v`, whatever it was mapped to before. -/
def insert [DecidableEq κ] (t : Table κ α) (k : κ) (v : α) : Table κ α :=
  ⟨put k v t.entries⟩

/-- Changes the value under `k`, when there is one. -/
def modify [DecidableEq κ] (t : Table κ α) (k : κ) (f : α → α) : Table κ α :=
  match t.get? k with
  | some v => t.insert k (f v)
  | none => t

/-- The table of a list of pairs; of two pairs with one key the later one counts. -/
def ofList [DecidableEq κ] (pairs : List (κ × α)) : Table κ α :=
  pairs.foldl (fun t p => t.insert p.1 p.2) {}

/-- The number of keys. -/
def size (t : Table κ α) : Nat :=
  t.entries.length

/-- Whether there is no key at all. -/
def isEmpty (t : Table κ α) : Bool :=
  t.entries.isEmpty

/-- The keys, first inserted first. -/
def keys (t : Table κ α) : List κ :=
  t.entries.map Prod.fst

/-- The values, in the order of their keys. -/
def values (t : Table κ α) : List α :=
  t.entries.map Prod.snd

theorem find_put [DecidableEq κ] (k j : κ) (v : α) (entries : List (κ × α)) :
    find j (put k v entries) = if k = j then some v else find j entries := by
  induction entries with
  | nil => simp [put, find]
  | cons e rest ih =>
      obtain ⟨k', v'⟩ := e
      by_cases hk : k' = k
      · subst hk
        by_cases hj : k' = j <;> simp [put, find, hj]
      · by_cases hj : k' = j
        · subst hj
          simp [put, find, hk, Ne.symm hk]
        · simp [put, find, hk, hj, ih]

/-- A look-up under the key that was inserted last finds what was inserted. -/
@[simp] theorem get?_insert_self [DecidableEq κ] (t : Table κ α) (k : κ) (v : α) :
    (t.insert k v).get? k = some v := by
  simp [get?, insert, find_put]

/-- An insertion changes no look-up under another key. -/
theorem get?_insert_of_ne [DecidableEq κ] (t : Table κ α) {k j : κ} (h : k ≠ j) (v : α) :
    (t.insert k v).get? j = t.get? j := by
  simp [get?, insert, find_put, h]

/-- What holds of the new entry and of the old ones under other keys holds of all entries. -/
theorem forall_get?_insert [DecidableEq κ] {t : Table κ α} {k : κ} {v : α} {p : κ → α → Prop}
    (hnew : p k v) (hold : ∀ j w, t.get? j = some w → p j w) :
    ∀ j w, (t.insert k v).get? j = some w → p j w := by
  intro j w hget
  by_cases hkey : k = j
  · subst hkey
    cases (t.get?_insert_self k v).symm.trans hget
    exact hnew
  · exact hold j w ((t.get?_insert_of_ne hkey v).symm.trans hget)

end Table

/-- The entries of a table with text keys, by code points of the key. -/
def Table.sorted {α : Type} (t : Table String α) : List (String × α) :=
  t.entries.mergeSort fun a b => decide (a.1 ≤ b.1)

end UnitAnalysis

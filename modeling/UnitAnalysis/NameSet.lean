/-!
# Sets of names

A `NameSet` is a finite set of names. Its members are listed in increasing order without repetition,
so two sets with the same members are the same list. `NameSet.mem_ofList` says that a set has just
the names that it was made of.
-/

set_option autoImplicit false

namespace UnitAnalysis

/-- A finite set of names. -/
structure NameSet where
  /-- The members, in increasing order. -/
  names : List String
  /-- The order is strict, so no member stands there twice. -/
  increasing : names.Pairwise (· < ·)
  deriving DecidableEq, Repr

namespace NameSet

instance : Membership String NameSet := ⟨fun s name => name ∈ s.names⟩

instance (s : NameSet) (name : String) : Decidable (name ∈ s) :=
  inferInstanceAs (Decidable (name ∈ s.names))

/-- Puts a name into an increasing list of names, unless it is there. -/
def insertName (name : String) : List String → List String
  | [] => [name]
  | other :: rest =>
    if name < other then name :: other :: rest
    else if name = other then other :: rest
    else other :: insertName name rest

theorem mem_insertName {name other : String} {names : List String} :
    other ∈ insertName name names ↔ other = name ∨ other ∈ names := by
  induction names with
  | nil => simp [insertName]
  | cons first rest ih =>
      simp only [insertName]
      split
      · simp
      · split
        · next h => subst h; simp
        · simp only [List.mem_cons, ih, or_left_comm]

/-- Putting a name into an increasing list leaves it increasing. -/
theorem insertName_increasing (name : String) {names : List String}
    (h : names.Pairwise (· < ·)) : (insertName name names).Pairwise (· < ·) := by
  induction names with
  | nil => simp [insertName]
  | cons first rest ih =>
      obtain ⟨hfirst, hrest⟩ := List.pairwise_cons.1 h
      simp only [insertName]
      split
      · next hlt =>
          refine List.pairwise_cons.2 ⟨fun other hother => ?_, h⟩
          rcases List.mem_cons.1 hother with rfl | hmem
          · exact hlt
          · exact String.lt_trans hlt (hfirst other hmem)
      · split
        · exact h
        · next hlt hne =>
            refine List.pairwise_cons.2 ⟨fun other hother => ?_, ih hrest⟩
            rcases mem_insertName.1 hother with rfl | hmem
            · exact Std.lt_of_le_of_ne (String.not_lt.1 hlt) (Ne.symm hne)
            · exact hfirst other hmem

/-- The set without members. -/
def empty : NameSet := ⟨[], .nil⟩

/-- Adds a name. -/
def insert (s : NameSet) (name : String) : NameSet :=
  ⟨insertName name s.names, insertName_increasing name s.increasing⟩

/-- The set of the names of a list, in whatever order they come and however often. -/
def ofList : List String → NameSet
  | [] => empty
  | name :: rest => (ofList rest).insert name

/-- A set has the names that it was made of and no others. -/
@[simp] theorem mem_ofList {name : String} {names : List String} :
    name ∈ ofList names ↔ name ∈ names := by
  induction names with
  | nil => exact Iff.rfl
  | cons first rest ih =>
      have step : name ∈ ofList (first :: rest) ↔ name = first ∨ name ∈ ofList rest :=
        mem_insertName
      rw [step, ih, List.mem_cons]

end NameSet

end UnitAnalysis

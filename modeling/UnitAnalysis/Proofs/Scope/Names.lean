import Mathlib.Tactic.Tauto
import UnitAnalysis.Scope

/-!
# Names in scopes

What the operations on scopes do to the names in them, whatever symbols the names stand for.
`Arena.Binds` is about one scope and `Arena.Sees` about a scope with the scopes around it.
`Arena.Defines` says that one scope received some names and that nothing else changed, which is what
every definition does, and `Arena.Extends` allows for new scopes as well.
-/

set_option autoImplicit false

namespace UnitAnalysis

/-- Changing the value under a key changes what a look-up finds under that key, and nothing else. -/
theorem Table.get?_modify {κ α : Type} [DecidableEq κ] (t : Table κ α) (k j : κ) (f : α → α) :
    (t.modify k f).get? j = if k = j then (t.get? j).map f else t.get? j := by
  unfold Table.modify
  by_cases hj : k = j
  · subst hj
    cases hk : t.get? k with
    | none => simp [hk]
    | some v => simp
  · cases hk : t.get? k with
    | none => simp [hj]
    | some v => simp [hj, get?_insert_of_ne t hj]

namespace Arena

/-- A scope has a symbol of a name. -/
def Binds (a : Arena) (scope : ScopeId) (name : String) : Prop :=
  (a.lookupLocal scope name).isSome

/-- A name is visible from a scope. -/
def Sees (a : Arena) (scope : ScopeId) (name : String) : Prop :=
  (a.lookup scope name).isSome

instance (a : Arena) (scope : ScopeId) (name : String) : Decidable (a.Binds scope name) :=
  inferInstanceAs (Decidable (_ = true))

instance (a : Arena) (scope : ScopeId) (name : String) : Decidable (a.Sees scope name) :=
  inferInstanceAs (Decidable (_ = true))

/-- What opened a scope. -/
def kind? (a : Arena) (scope : ScopeId) : Option ScopeKind :=
  (a.get? scope).map fun s => s.kind

variable {scope : ScopeId}

/-- A name is visible from a scope when that scope or one around it has it. -/
theorem sees_iff {a : Arena} {name : String} :
    a.Sees scope name ↔ ∃ i ∈ scope :: a.enclosing scope, a.Binds i name := by
  unfold Sees Binds lookup lookupWithScope
  simp only [Option.isSome_map, List.findSome?_isSome_iff]

/-- A look-up finds the same when no scope that it searches changed. -/
theorem lookupWithScope_congr {a a' : Arena} {name : String}
    (henclosing : a'.enclosing scope = a.enclosing scope)
    (h : ∀ c ∈ scope :: a.enclosing scope, a'.lookupLocal c name = a.lookupLocal c name) :
    a'.lookupWithScope scope name = a.lookupWithScope scope name := by
  unfold lookupWithScope
  rw [henclosing]
  generalize scope :: a.enclosing scope = around at h
  induction around with
  | nil => rfl
  | cons c around ih =>
    rw [List.findSome?_cons, List.findSome?_cons, h c List.mem_cons_self,
      ih fun d hd => h d (List.mem_cons_of_mem _ hd)]

/-! ## Definitions -/

/-- One scope received names, and nothing else changed. -/
structure Defines (scope : ScopeId) (names : List String) (a a' : Arena) : Prop where
  /-- No scope came or went. -/
  size : a'.size = a.size
  /-- The kinds of scopes stay. -/
  kind : ∀ i, a'.kind? i = a.kind? i
  /-- Scopes stay where they are. -/
  enclosing : ∀ i, a'.enclosing i = a.enclosing i
  /-- The names that scopes have are those of before and the new ones. -/
  binds : ∀ i name, a'.Binds i name ↔
    a.Binds i name ∨ (i = scope ∧ scope.index < a.size ∧ name ∈ names)

namespace Defines

variable {a a' a'' : Arena} {scope : ScopeId} {names more : List String}

/-- Nothing is defined. -/
theorem refl (scope : ScopeId) (a : Arena) : Defines scope [] a a :=
  ⟨rfl, fun _ => rfl, fun _ => rfl, by simp⟩

/-- Names add up. -/
theorem trans (h : Defines scope names a a') (h' : Defines scope more a' a'') :
    Defines scope (names ++ more) a a'' where
  size := h'.size.trans h.size
  kind i := (h'.kind i).trans (h.kind i)
  enclosing i := (h'.enclosing i).trans (h.enclosing i)
  binds i name := by
    rw [h'.binds, h.binds, h.size, List.mem_append]
    tauto

/-- A name that the scope has already counts as received. -/
theorem cons_of_binds {name : String} (h : Defines scope names a a')
    (hname : scope.index < a.size → a.Binds scope name) : Defines scope (name :: names) a a' where
  size := h.size
  kind := h.kind
  enclosing := h.enclosing
  binds i other := by
    rw [h.binds, List.mem_cons]
    constructor
    · tauto
    · rintro (hb | ⟨rfl, hlt, rfl | hmem⟩)
      · exact .inl hb
      · exact .inl (hname hlt)
      · exact .inr ⟨rfl, hlt, hmem⟩

/-- Without new names it does not matter which scope received them. -/
theorem of_nil (h : Defines scope [] a a') (other : ScopeId) : Defines other [] a a' :=
  ⟨h.size, h.kind, h.enclosing, fun i name => by rw [h.binds]; simp⟩

/-- Without new names the same names are visible. -/
theorem sees_iff (h : Defines scope [] a a') (i : ScopeId) (name : String) :
    a'.Sees i name ↔ a.Sees i name := by
  simp only [Arena.sees_iff, h.enclosing, h.binds, List.not_mem_nil, and_false, or_false]

end Defines

/-- One scope changes. -/
theorem get?_modifySymbols (a : Arena) (scope i : ScopeId)
    (f : Table String Symbol → Table String Symbol) :
    (a.modifySymbols scope f).get? i =
      if i = scope then (a.get? i).map fun s => { s with symbols := f s.symbols }
      else a.get? i := by
  obtain ⟨k⟩ := scope
  obtain ⟨j⟩ := i
  unfold modifySymbols get?
  rw [Array.getElem?_modify]
  simp only [ScopeId.mk.injEq, eq_comm (a := k)]

/-- Look-ups there change. -/
theorem lookupLocal_modifySymbols (a : Arena) (scope i : ScopeId) (name : String)
    (f : Table String Symbol → Table String Symbol) :
    (a.modifySymbols scope f).lookupLocal i name =
      if i = scope then (a.get? i).bind fun s => (f s.symbols).get? name
      else a.lookupLocal i name := by
  unfold lookupLocal
  rw [get?_modifySymbols]
  by_cases hi : i = scope
  · simp only [hi, if_true]
    cases a.get? scope <;> rfl
  · simp only [hi, if_false]

/-- Changing the symbols of a scope defines the names that become bound there, when none is lost. -/
theorem defines_modifySymbols (a : Arena) (scope : ScopeId) (names : List String)
    (f : Table String Symbol → Table String Symbol)
    (hf : ∀ t name, ((f t).get? name).isSome ↔ (t.get? name).isSome ∨ name ∈ names) :
    Defines scope names a (a.modifySymbols scope f) where
  size := Array.size_modify
  kind i := by
    unfold kind?
    rw [get?_modifySymbols]
    by_cases hi : i = scope
    · rw [if_pos hi, Option.map_map]
      rfl
    · rw [if_neg hi]
  enclosing i := by
    unfold enclosing
    rw [get?_modifySymbols]
    by_cases hi : i = scope
    · rw [if_pos hi]
      cases a.get? i <;> rfl
    · rw [if_neg hi]
  binds i name := by
    unfold Binds
    rw [lookupLocal_modifySymbols]
    by_cases hi : i = scope
    · subst hi
      unfold lookupLocal get? size
      simp only [if_true, true_and]
      by_cases hlt : i.index < a.scopes.size
      · simp only [Array.getElem?_eq_getElem hlt, Option.bind_some, hf, hlt, true_and]
      · simp [hlt]
    · simp only [hi, if_false, false_and, or_false]

/-- A definition that succeeds gives the scope the name of the symbol. -/
theorem defines_of_define {a a' : Arena} {symbol : Symbol}
    (h : a.define scope symbol = .ok a') : Defines scope [symbol.name] a a' := by
  unfold define at h
  split at h
  · cases h
  · cases h
    refine defines_modifySymbols a scope _ _ fun t name => ?_
    by_cases hn : symbol.name = name
    · simp [hn]
    · simp [Table.get?_insert_of_ne t hn, Ne.symm hn]

/-- A definition fails only when the scope has the name, so it has the name in any case. -/
theorem defines_self_of_define {a : Arena} {symbol : Symbol} {e : ScopeError}
    (h : a.define scope symbol = .error e) : Defines scope [symbol.name] a a := by
  unfold define at h
  split at h
  · next first hfirst =>
      refine ⟨rfl, fun _ => rfl, fun _ => rfl, fun i name => ⟨Or.inl, ?_⟩⟩
      rintro (hb | ⟨rfl, -, hn⟩)
      · exact hb
      · rw [List.mem_singleton] at hn
        simp [Binds, hn, hfirst]
  · cases h

/-- Giving a symbol its type changes no name. -/
theorem defines_resolveType (a : Arena) (scope : ScopeId) (name : String) (t : Ty) :
    Defines scope [] a (a.resolveType scope name t) := by
  refine defines_modifySymbols a scope [] _ fun table other => ?_
  rw [Table.get?_modify]
  split <;> simp

/-! ## New scopes -/

/-- Scopes came to be and one scope received names, but nothing else changed. -/
structure Extends (scope : ScopeId) (names : List String) (a a' : Arena) : Prop where
  /-- No scope went. -/
  size : a.size ≤ a'.size
  /-- The kinds of scopes stay. -/
  kind : ∀ i : ScopeId, i.index < a.size → a'.kind? i = a.kind? i
  /-- Scopes stay where they are. -/
  enclosing : ∀ i : ScopeId, i.index < a.size → a'.enclosing i = a.enclosing i
  /-- The scopes of before have the names of before and the new ones. -/
  binds : ∀ (i : ScopeId) name, i.index < a.size →
    (a'.Binds i name ↔ a.Binds i name ∨ (i = scope ∧ name ∈ names))

/-- Definitions alone open no scope. -/
theorem Defines.extends {names : List String} {a a' : Arena}
    (h : Defines scope names a a') : Extends scope names a a' where
  size := Nat.le_of_eq h.size.symm
  kind i _ := h.kind i
  enclosing i _ := h.enclosing i
  binds i name hi := by
    rw [h.binds]
    constructor
    · rintro (hb | ⟨rfl, -, hn⟩)
      · exact .inl hb
      · exact .inr ⟨rfl, hn⟩
    · rintro (hb | ⟨rfl, hn⟩)
      · exact .inl hb
      · exact .inr ⟨rfl, hi, hn⟩

namespace Extends

variable {a a' a'' : Arena} {scope inner : ScopeId} {names more : List String}

/-- Names add up. -/
theorem trans (h : Extends scope names a a') (h' : Extends scope more a' a'') :
    Extends scope (names ++ more) a a'' where
  size := Nat.le_trans h.size h'.size
  kind i hi := (h'.kind i (Nat.lt_of_lt_of_le hi h.size)).trans (h.kind i hi)
  enclosing i hi := (h'.enclosing i (Nat.lt_of_lt_of_le hi h.size)).trans (h.enclosing i hi)
  binds i name hi := by
    rw [h'.binds i name (Nat.lt_of_lt_of_le hi h.size), h.binds i name hi, List.mem_append]
    tauto

/-- Without new names it does not matter which scope received them. -/
theorem of_nil (h : Extends scope [] a a') (other : ScopeId) : Extends other [] a a' :=
  ⟨h.size, h.kind, h.enclosing, fun i name hi => by rw [h.binds i name hi]; simp⟩

/-- Names that go to a scope that was not there before change nothing about the scopes of before. -/
theorem of_le_index (h : Extends inner names a a') (hinner : a.size ≤ inner.index)
    (scope : ScopeId) : Extends scope [] a a' where
  size := h.size
  kind := h.kind
  enclosing := h.enclosing
  binds i name hi := by
    have hne : i ≠ inner := by
      rintro rfl
      omega
    rw [h.binds i name hi]
    simp [hne]

end Extends

section Enter

variable (a : Arena) (parent : ScopeId) (kind : ScopeKind)

/-- One scope more. -/
theorem size_enter : (a.enter parent kind).2.size = a.size + 1 :=
  Array.size_push _

/-- The new scope. -/
theorem get?_enter_self : (a.enter parent kind).2.get? ⟨a.size⟩ =
    some { kind, enclosing := parent :: a.enclosing parent } :=
  Array.getElem?_push_size

/-- Old scopes stay. -/
theorem get?_enter_of_lt {i : ScopeId}
    (hi : i.index < a.size) : (a.enter parent kind).2.get? i = a.get? i := by
  unfold enter get?
  rw [Array.getElem?_push]
  exact if_neg (Nat.ne_of_lt hi)

/-- Opening a scope changes nothing about the others. -/
theorem extends_enter (scope : ScopeId) : Extends scope [] a (a.enter parent kind).2 where
  size := by rw [size_enter]; omega
  kind i hi := by unfold kind?; rw [get?_enter_of_lt a parent kind hi]
  enclosing i hi := by unfold enclosing; rw [get?_enter_of_lt a parent kind hi]
  binds i name hi := by
    unfold Binds lookupLocal
    rw [get?_enter_of_lt a parent kind hi]
    simp

end Enter

end Arena

end UnitAnalysis

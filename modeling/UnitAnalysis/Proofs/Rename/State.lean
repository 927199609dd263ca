import Mathlib.Logic.Function.Basic
import UnitAnalysis.Proofs.Scope.Names
import UnitAnalysis.Symbols.Builder

/-!
# Renaming nodes in what is known of a unit

Identities of nodes are the keys of some tables, and symbols, signatures, traits and implementations
remember the node that they come from. `rename f` changes them all. As long as `f` keeps different
identities apart, every look-up in a renamed table answers as it did before.
-/

set_option autoImplicit false

namespace UnitAnalysis

open Function (Injective)

/-! ## Tables -/

namespace Table

variable {κ κ' α β : Type}

/-- The table with its values under other keys. -/
def mapKeys (f : κ → κ') (t : Table κ α) : Table κ' α :=
  ⟨t.entries.map fun e => (f e.1, e.2)⟩

/-- The table with other values under its keys. -/
def mapValues (g : α → β) (t : Table κ α) : Table κ β :=
  ⟨t.entries.map fun e => (e.1, g e.2)⟩

@[simp] theorem mapKeys_id (t : Table κ α) : t.mapKeys id = t := by
  simp [mapKeys]

@[simp] theorem mapValues_id (t : Table κ α) : t.mapValues id = t := by
  simp [mapValues]

/-- The values of a table with changed values. -/
theorem values_mapValues (g : α → β) (t : Table κ α) : (t.mapValues g).values = t.values.map g := by
  simp [values, mapValues]

section Keys

variable [DecidableEq κ] [DecidableEq κ'] {f : κ → κ'}

/-- A renamed key has what the key had. -/
theorem get?_mapKeys (hf : Injective f) (t : Table κ α) (k : κ) :
    (t.mapKeys f).get? (f k) = t.get? k := by
  obtain ⟨entries⟩ := t
  simp only [get?, mapKeys]
  induction entries with
  | nil => rfl
  | cons e rest ih => simp [find, hf.eq_iff, ih]

/-- Renaming keys after an entry is made. -/
theorem mapKeys_insert (hf : Injective f) (t : Table κ α) (k : κ) (v : α) :
    (t.insert k v).mapKeys f = (t.mapKeys f).insert (f k) v := by
  obtain ⟨entries⟩ := t
  simp only [insert, mapKeys, Table.mk.injEq]
  induction entries with
  | nil => rfl
  | cons e rest ih =>
    by_cases h : e.1 = k
    · simp [put, h]
    · simp [put, h, hf.eq_iff, ih]

end Keys

section Values

variable [DecidableEq κ]

@[simp] theorem get?_mapValues (g : α → β) (t : Table κ α) (k : κ) :
    (t.mapValues g).get? k = (t.get? k).map g := by
  obtain ⟨entries⟩ := t
  simp only [get?, mapValues]
  induction entries with
  | nil => rfl
  | cons e rest ih =>
    by_cases h : e.1 = k
    · simp [find, h]
    · simp [find, h, ih]

@[simp] theorem contains_mapValues (g : α → β) (t : Table κ α) (k : κ) :
    (t.mapValues g).contains k = t.contains k := by
  simp [contains]

/-- Changing values after an entry is made. -/
theorem mapValues_insert (g : α → β) (t : Table κ α) (k : κ) (v : α) :
    (t.insert k v).mapValues g = (t.mapValues g).insert k (g v) := by
  obtain ⟨entries⟩ := t
  simp only [insert, mapValues, Table.mk.injEq]
  induction entries with
  | nil => rfl
  | cons e rest ih =>
    by_cases h : e.1 = k
    · simp [put, h]
    · simp [put, h, ih]

/-- Changing values after one was modified. -/
theorem mapValues_modify {g : α → β} {change : α → α} {change' : β → β}
    (h : ∀ v, g (change v) = change' (g v)) (t : Table κ α) (k : κ) :
    (t.modify k change).mapValues g = (t.mapValues g).modify k change' := by
  simp only [modify, get?_mapValues]
  cases t.get? k with
  | none => rfl
  | some v => simp [mapValues_insert, h]

end Values

end Table

/-! ## Scopes -/

section

variable (f : NodeId → NodeId)

/-- Renames the node of a symbol. -/
def Symbol.rename (s : Symbol) : Symbol :=
  { s with origin := s.origin.map f }

/-- Renames the nodes of the symbols of a scope. -/
def Scope.rename (s : Scope) : Scope :=
  { s with symbols := s.symbols.mapValues (Symbol.rename f) }

/-- Renames the nodes of all symbols. -/
def Arena.rename (a : Arena) : Arena :=
  ⟨a.scopes.map (Scope.rename f)⟩

@[simp] theorem Symbol.ty_rename (s : Symbol) : (s.rename f).ty = s.ty := rfl

namespace Arena

variable (a : Arena)

@[simp] theorem get?_rename (id : ScopeId) :
    (a.rename f).get? id = (a.get? id).map (Scope.rename f) := by
  simp [get?, rename]

@[simp] theorem enclosing_rename (id : ScopeId) : (a.rename f).enclosing id = a.enclosing id := by
  simp only [enclosing, get?_rename]
  cases a.get? id <;> rfl

@[simp] theorem lookupLocal_rename (id : ScopeId) (name : String) :
    (a.rename f).lookupLocal id name = (a.lookupLocal id name).map (Symbol.rename f) := by
  simp only [lookupLocal, get?_rename]
  cases a.get? id with
  | none => rfl
  | some s => exact Table.get?_mapValues _ s.symbols name

@[simp] theorem lookupWithScope_rename (id : ScopeId) (name : String) :
    (a.rename f).lookupWithScope id name =
      (a.lookupWithScope id name).map fun found => (found.1, found.2.rename f) := by
  simp only [lookupWithScope, enclosing_rename]
  induction id :: a.enclosing id with
  | nil => rfl
  | cons i rest ih =>
    simp only [List.findSome?_cons, lookupLocal_rename]
    cases a.lookupLocal i name with
    | none => simpa using ih
    | some s => rfl

/-- A change of symbols that goes along with renaming. -/
theorem rename_modifySymbols {change change' : Table String Symbol → Table String Symbol}
    (h : ∀ t, (change t).mapValues (Symbol.rename f) = change' (t.mapValues (Symbol.rename f)))
    (a : Arena) (id : ScopeId) :
    (a.modifySymbols id change).rename f = (a.rename f).modifySymbols id change' := by
  simp only [modifySymbols, rename, Arena.mk.injEq]
  apply Array.ext_getElem?
  intro i
  simp only [Array.getElem?_map, Array.getElem?_modify]
  by_cases hi : id.index = i
  · cases a.scopes[i]? with
    | none => simp
    | some s => simp [hi, Scope.rename, h]
  · simp [hi]

/-- A name gets its type before or after renaming. -/
theorem rename_resolveType (id : ScopeId) (name : String) (t : Ty) :
    (a.resolveType id name t).rename f = (a.rename f).resolveType id name t := by
  apply rename_modifySymbols
  intro table
  apply Table.mapValues_modify
  intro s
  rfl

/-- A definition succeeds in a renamed arena just when it did before. -/
theorem define_rename (id : ScopeId) (s : Symbol) :
    (a.rename f).define id (s.rename f) = (a.define id s).map (Arena.rename f) := by
  have hname : (s.rename f).name = s.name := rfl
  simp only [define, lookupLocal_rename, hname]
  cases a.lookupLocal id s.name with
  | some first => rfl
  | none =>
    simp only [Option.map_none, Except.map, Except.ok.injEq]
    rw [rename_modifySymbols]
    intro table
    exact Table.mapValues_insert _ table s.name s

/-- A scope is entered before or after renaming. -/
theorem enter_rename (parent : ScopeId) (kind : ScopeKind) :
    (a.rename f).enter parent kind =
      ((a.enter parent kind).1, (a.enter parent kind).2.rename f) := by
  have henclosing := enclosing_rename f a parent
  simp only [rename] at henclosing
  simp [enter, size, rename, henclosing]
  rfl

end Arena

/-! ## Signatures and declared types -/

/-- Renames the node of a signature. -/
def Signature.rename (s : Signature) : Signature :=
  { s with origin := f s.origin }

/-- Renames the nodes of a declared type. -/
def DeclaredType.rename (d : DeclaredType) : DeclaredType :=
  { d with methods := d.methods.mapValues (Signature.rename f) }

/-- Renames the nodes of all declared types. -/
def DeclIndex.rename (ix : DeclIndex) : DeclIndex :=
  { ix with types := ix.types.mapValues (DeclaredType.rename f) }

namespace DeclIndex

variable (ix : DeclIndex)

@[simp] theorem get?_rename (name : String) :
    (ix.rename f).get? name = (ix.get? name).map (DeclaredType.rename f) :=
  Table.get?_mapValues _ ix.types name

@[simp] theorem variant?_rename (name : String) :
    (ix.rename f).variant? name = ix.variant? name := rfl

@[simp] theorem contains_rename (name : String) : (ix.rename f).contains name = ix.contains name :=
  Table.contains_mapValues _ ix.types name

/-- A type is declared before or after renaming. -/
theorem rename_declare (d : DeclaredType) :
    (ix.declare d).rename f = (ix.rename f).declare (d.rename f) := by
  have hname : (d.rename f).name = d.name := rfl
  simp only [declare, contains_rename, hname]
  split
  · rfl
  · simp [rename, Table.mapValues_insert]

/-- A change of a declared type that goes along with renaming. -/
theorem rename_modify {change change' : DeclaredType → DeclaredType}
    (h : ∀ d, (change d).rename f = change' (d.rename f)) (ix : DeclIndex) (name : String) :
    (ix.modify name change).rename f = (ix.rename f).modify name change' := by
  simp only [modify, rename]
  rw [Table.mapValues_modify h]

/-- A variant is added before or after renaming. -/
theorem rename_addVariant (v : Variant) :
    (ix.addVariant v).rename f = (ix.rename f).addVariant v := by
  simp only [addVariant, rename]
  rw [Table.mapValues_modify]
  intro d
  rfl

end DeclIndex

/-! ## Traits -/

/-- Renames the nodes of a trait. -/
def Trait.rename (t : Trait) : Trait :=
  { t with methods := t.methods.map (Signature.rename f), origin := f t.origin }

/-- Renames the nodes of an implementation. -/
def Implementation.rename (i : Implementation) : Implementation :=
  { i with methods := i.methods.map (Signature.rename f), origin := f i.origin }

/-- Renames the nodes of a registry. -/
def Registry.rename (r : Registry) : Registry :=
  { traits := r.traits.mapValues (Trait.rename f)
    byTrait := r.byTrait.mapValues (List.map (Implementation.rename f))
    inherent := r.inherent.map (Implementation.rename f) }

/-! ## The symbol table -/

/-- Renames the nodes of a symbol table, also as keys. -/
def SymbolTable.rename (t : SymbolTable) : SymbolTable :=
  { t with
    scopes := t.scopes.rename f
    scopeMap := t.scopeMap.mapKeys f
    decls := t.decls.rename f
    annotations := t.annotations.mapKeys f
    functions := (t.functions.mapValues (Signature.rename f)).mapKeys f }

variable {f}

/-- A renamed node keeps its scope. -/
theorem SymbolTable.scopeFor_rename (hf : Injective f) (t : SymbolTable) (id : NodeId)
    (fallback : ScopeId) : (t.rename f).scopeFor (f id) fallback = t.scopeFor id fallback := by
  simp only [scopeFor, rename, Table.get?_mapKeys hf]

/-- A renamed node keeps its annotation. -/
theorem SymbolTable.annotation_rename (hf : Injective f) (t : SymbolTable) (id : NodeId) :
    (t.rename f).annotations.get? (f id) = t.annotations.get? id :=
  Table.get?_mapKeys hf t.annotations id

/-- A renamed function keeps its signature. -/
theorem SymbolTable.signature_rename (hf : Injective f) (t : SymbolTable) (id : NodeId) :
    (t.rename f).functions.get? (f id) = (t.functions.get? id).map (Signature.rename f) := by
  simp only [rename, Table.get?_mapKeys hf, Table.get?_mapValues]

end

/-! ## Renaming to the same -/

/-- A symbol with its own identity. -/
theorem Symbol.rename_id : Symbol.rename id = id := by
  funext s
  simp [Symbol.rename]

/-- A scope with its own identities. -/
theorem Scope.rename_id : Scope.rename id = id := by
  funext s
  simp [Scope.rename, Symbol.rename_id]

/-- Scopes with their own identities. -/
theorem Arena.rename_id (a : Arena) : a.rename id = a := by
  simp [Arena.rename, Scope.rename_id]

/-- A signature with its own identity. -/
theorem Signature.rename_id : Signature.rename id = id := rfl

/-- A declared type with its own identities. -/
theorem DeclaredType.rename_id : DeclaredType.rename id = id := by
  funext d
  simp [DeclaredType.rename, Signature.rename_id]

/-- Declared types with their own identities. -/
theorem DeclIndex.rename_id (ix : DeclIndex) : ix.rename id = ix := by
  simp [DeclIndex.rename, DeclaredType.rename_id]

/-- A trait with its own identities. -/
theorem Trait.rename_id : Trait.rename id = id := by
  funext t
  simp [Trait.rename, Signature.rename_id]

/-- An implementation with its own identities. -/
theorem Implementation.rename_id : Implementation.rename id = id := by
  funext i
  simp [Implementation.rename, Signature.rename_id]

/-- A registry with its own identities. -/
theorem Registry.rename_id (r : Registry) : r.rename id = r := by
  simp [Registry.rename, Trait.rename_id, Implementation.rename_id]

/-- A symbol table with its own identities. -/
theorem SymbolTable.rename_id (t : SymbolTable) : t.rename id = t := by
  simp [SymbolTable.rename, Arena.rename_id, DeclIndex.rename_id, Signature.rename_id]

end UnitAnalysis

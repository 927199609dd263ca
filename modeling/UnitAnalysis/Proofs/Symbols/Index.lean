import UnitAnalysis.Proofs.Order.Declare

/-!
# The index and the global scope

A construction keeps the types of a unit twice: as global symbols and in the index of declared
types, which also has the variants. `DeclIndex.Agrees` says that the two fit together. Defining a
name that stands for no type keeps this, and so does each change to the index: declaring a type
together with its name, filling in its members, and listing a variant whose name was free.
-/

set_option autoImplicit false

namespace UnitAnalysis

/-- The kinds of symbols that stand for types. -/
def SymbolKind.ofTypes : List SymbolKind :=
  [.struct, .spark, .data, .trait]

theorem DeclKind.symbolKind_mem_ofTypes (k : DeclKind) : k.symbolKind ∈ SymbolKind.ofTypes := by
  cases k <;> simp [symbolKind, SymbolKind.ofTypes]

theorem SymbolKind.function_not_mem_ofTypes : SymbolKind.function ∉ ofTypes := by
  decide

theorem SymbolKind.variableName_not_mem_ofTypes : SymbolKind.variableName ∉ ofTypes := by
  decide

/-- The symbol of a variant: a function from its fields to its data type. -/
structure Symbol.Constructs (s : Symbol) (v : Variant) (d : DeclaredType) : Prop where
  kind : s.kind = .function
  declaredType : s.declaredType = some (.function (v.fields.map fun f => f.ty) d.selfType)

/-- The symbol of a declared type. -/
structure Symbol.Declares (s : Symbol) (d : DeclaredType) : Prop where
  kind : s.kind = d.kind.symbolKind
  declaredType : s.declaredType = some d.selfType

/-- A symbol is added to the symbols of a scope, under a name that was free. -/
structure Symbol.Adds (s : Symbol) (globals globals' : String → Option Symbol) : Prop where
  free : globals s.name = none
  self : globals' s.name = some s
  kept : ∀ {name t}, globals name = some t → globals' name = some t
  back : ∀ {name t}, globals' name = some t → (name = s.name ∧ t = s) ∨ globals name = some t

theorem Symbol.Adds.named {s : Symbol} {globals globals' : String → Option Symbol}
    (h : s.Adds globals globals') (hnamed : ∀ {name t}, globals name = some t → t.name = name)
    {name : String} {t : Symbol} (ht : globals' name = some t) : t.name = name := by
  rcases h.back ht with ⟨rfl, rfl⟩ | ht
  · rfl
  · exact hnamed ht

theorem Arena.adds_insert (a : Arena) {s : Symbol} (hpos : 0 < a.size)
    (hfree : a.lookupLocal .global s.name = none) :
    s.Adds (a.lookupLocal .global)
      ((a.modifySymbols .global fun t => t.insert s.name s).lookupLocal .global) := by
  have hlookup : ∀ name, (a.modifySymbols .global fun t => t.insert s.name s).lookupLocal .global
      name = if name = s.name then some s else a.lookupLocal .global name := by
    intro name
    rw [@Builder.lookupLocal_insert .global a s .global name hpos]
    simp only [true_and]
  refine ⟨hfree, ?_, fun {name t} ht => ?_, fun {name t} ht => ?_⟩
  · rw [hlookup, if_pos rfl]
  · rw [hlookup, if_neg fun heq => ?_]
    · exact ht
    · rw [heq, hfree] at ht
      cases ht
  · rw [hlookup] at ht
    split at ht
    · next heq => exact .inl ⟨heq, (Option.some.inj ht).symm⟩
    · exact .inr ht

/-- Two states of a declared type have one head: only members were added. -/
structure DeclaredType.SameHead (d d' : DeclaredType) : Prop where
  name : d.name = d'.name
  kind : d.kind = d'.kind
  selfType : d.selfType = d'.selfType

namespace DeclaredType.SameHead

variable {d d' : DeclaredType} {s : Symbol}

theorem refl (d : DeclaredType) : d.SameHead d :=
  ⟨rfl, rfl, rfl⟩

theorem declares (h : d.SameHead d') (hs : s.Declares d') : s.Declares d :=
  ⟨hs.kind.trans (congrArg DeclKind.symbolKind h.kind.symm), h.selfType ▸ hs.declaredType⟩

theorem constructs (h : d.SameHead d') {v : Variant} (hs : s.Constructs v d') : s.Constructs v d :=
  ⟨hs.kind, h.selfType ▸ hs.declaredType⟩

end DeclaredType.SameHead

/-- An index of declared types fits the symbols of the global scope. -/
structure DeclIndex.Agrees (ix : DeclIndex) (globals : String → Option Symbol) : Prop where
  named : ∀ {name s}, globals name = some s → s.name = name
  declared : ∀ {name s}, globals name = some s → s.kind ∈ SymbolKind.ofTypes →
    (ix.get? name).isSome
  type : ∀ {name d}, ix.get? name = some d →
    d.name = name ∧ ∃ s, globals name = some s ∧ s.Declares d
  listed : ∀ {name d}, ix.get? name = some d → ∀ v ∈ d.variants,
    ∃ w, ix.variant? v = some w ∧ w.parent = name
  variant : ∀ {name v}, ix.variant? name = some v →
    v.name = name ∧ ∃ d s, ix.get? v.parent = some d ∧ globals name = some s ∧
      d.kind = .data ∧ d.variants.count name = 1 ∧ s.Constructs v d

namespace DeclIndex

variable {ix ix' : DeclIndex} {globals globals' : String → Option Symbol}

/-- Declaring a name again does nothing. -/
theorem get?_declare_of_eq_some {d other : DeclaredType} {name : String}
    (h : ix.get? name = some other) : (ix.declare d).get? name = some other := by
  rw [get?_declare]
  split
  · rw [h, Option.getD_some]
  · exact h

theorem get?_modify_eq_some_iff {name other : String} {f : DeclaredType → DeclaredType}
    {d : DeclaredType} : (ix.modify name f).get? other = some d ↔
      ∃ before, ix.get? other = some before ∧ d = if name = other then f before else before := by
  have hget : (ix.modify name f).get? other =
      if name = other then (ix.get? other).map f else ix.get? other :=
    Table.get?_modify ix.types name other f
  rw [hget]
  split
  · simp only [Option.map_eq_some_iff, eq_comm (a := d)]
  · simp

theorem variant?_addVariant (ix : DeclIndex) (v : Variant) (name : String) :
    (ix.addVariant v).variant? name = if v.name = name then some v else ix.variant? name := by
  split
  · next heq => exact heq ▸ Table.get?_insert_self ix.variants v.name v
  · next hne => exact Table.get?_insert_of_ne ix.variants hne v

theorem get?_addVariant_eq_some_iff {v : Variant} {name : String} {d : DeclaredType} :
    (ix.addVariant v).get? name = some d ↔ ∃ before, ix.get? name = some before ∧
      d = if v.parent = name then { before with variants := before.variants ++ [v.name] }
        else before :=
  get?_modify_eq_some_iff

/-- A declared type stays when another is changed, or its own members. -/
theorem exists_get?_modify {name other : String} {f : DeclaredType → DeclaredType}
    (hf : ∀ d, (f d).SameHead d) {before : DeclaredType} (h : ix.get? other = some before) :
    ∃ d, (ix.modify name f).get? other = some d ∧ d.SameHead before := by
  refine ⟨_, get?_modify_eq_some_iff.2 ⟨before, h, rfl⟩, ?_⟩
  split
  · exact hf before
  · exact .refl before

theorem exists_get?_addVariant {v : Variant} {name : String} {before : DeclaredType}
    (h : ix.get? name = some before) :
    ∃ d, (ix.addVariant v).get? name = some d ∧ d.SameHead before := by
  have hlists : ∀ d : DeclaredType,
      DeclaredType.SameHead { d with variants := d.variants ++ [v.name] } d :=
    fun _ => ⟨rfl, rfl, rfl⟩
  exact exists_get?_modify hlists h

namespace Agrees

theorem empty : Agrees {} fun _ => none :=
  ⟨nofun, nofun, nofun, nofun, nofun⟩

variable (h : ix.Agrees globals)

include h

theorem congr (hix : ix'.Alike ix)
    (hglobals : ∀ name, globals' name = globals name) : ix'.Agrees globals' where
  named hs := h.named (hglobals _ ▸ hs)
  declared hs hkind := by
    rw [hix.get?]
    exact h.declared (hglobals _ ▸ hs) hkind
  type hd := by
    rw [hglobals]
    exact h.type (hix.get? _ ▸ hd)
  listed hd v hv := by
    rw [hix.variant?]
    exact h.listed (hix.get? _ ▸ hd) v hv
  variant hv := by
    rw [hglobals]
    obtain ⟨hname, d, s, hd, hrest⟩ := h.variant (hix.variant? _ ▸ hv)
    exact ⟨hname, d, s, (hix.get? _).trans hd, hrest⟩

/-- Symbols stay and one is added, under a name that was free. -/
theorem define {s : Symbol} (hadds : s.Adds globals globals')
    (hkind : s.kind ∉ SymbolKind.ofTypes) : ix.Agrees globals' where
  named := hadds.named h.named
  declared {name t} ht htype := by
    rcases hadds.back ht with ⟨-, rfl⟩ | ht
    · exact absurd htype hkind
    · exact h.declared ht htype
  type hd := by
    obtain ⟨hname, t, ht, hdeclares⟩ := h.type hd
    exact ⟨hname, t, hadds.kept ht, hdeclares⟩
  listed := h.listed
  variant hv := by
    obtain ⟨hname, d, t, hd, ht, hrest⟩ := h.variant hv
    exact ⟨hname, d, t, hd, hadds.kept ht, hrest⟩

/-- A name that is not global is not declared either. -/
theorem get?_eq_none {name : String} (hnone : globals name = none) : ix.get? name = none := by
  cases hd : ix.get? name with
  | none => rfl
  | some d =>
    obtain ⟨-, s, hs, -⟩ := h.type hd
    rw [hnone] at hs
    cases hs

theorem variant?_eq_none {name : String} (hnone : globals name = none) :
    ix.variant? name = none := by
  cases hv : ix.variant? name with
  | none => rfl
  | some v =>
    obtain ⟨-, d, s, -, hs, -⟩ := h.variant hv
    rw [hnone] at hs
    cases hs

/-- A type without variants is declared together with its symbol. -/
theorem declare {s : Symbol} {d : DeclaredType}
    (hadds : s.Adds globals globals') (hname : s.name = d.name) (hdeclares : s.Declares d)
    (hvariants : d.variants = []) : (ix.declare d).Agrees globals' := by
  have hfree : ix.get? d.name = none := h.get?_eq_none (hname ▸ hadds.free)
  have hget : ∀ name,
      (ix.declare d).get? name = if d.name = name then some d else ix.get? name := by
    intro name
    rw [get?_declare]
    split
    · next heq => rw [← heq, hfree, Option.getD_none]
    · rfl
  have hback : ∀ {name other}, (ix.declare d).get? name = some other →
      (name = d.name ∧ other = d) ∨ ix.get? name = some other := by
    intro name other hother
    rw [hget] at hother
    split at hother
    · next heq => exact .inl ⟨heq.symm, (Option.some.inj hother).symm⟩
    · exact .inr hother
  refine ⟨hadds.named h.named, fun {name t} ht htype => ?_, fun {name other} hother => ?_,
    fun {name other} hother v hv => ?_, fun {name v} hv => ?_⟩
  · rcases hadds.back ht with ⟨rfl, -⟩ | ht
    · rw [hget, if_pos hname.symm]
      rfl
    · obtain ⟨other, hother⟩ := Option.isSome_iff_exists.1 (h.declared ht htype)
      rw [get?_declare_of_eq_some hother]
      rfl
  · rcases hback hother with ⟨rfl, rfl⟩ | hother
    · exact ⟨rfl, s, hname ▸ hadds.self, hdeclares⟩
    · obtain ⟨hother', t, ht, hrest⟩ := h.type hother
      exact ⟨hother', t, hadds.kept ht, hrest⟩
  · rw [variant?_declare]
    rcases hback hother with ⟨-, rfl⟩ | hother
    · rw [hvariants] at hv
      cases hv
    · exact h.listed hother v hv
  · rw [variant?_declare] at hv
    obtain ⟨hv', other, t, hother, ht, hrest⟩ := h.variant hv
    exact ⟨hv', other, t, get?_declare_of_eq_some hother, hadds.kept ht, hrest⟩

/-- Changing the members of a type, and neither its head nor its variants. -/
theorem modify {f : DeclaredType → DeclaredType}
    (hf : ∀ d, (f d).SameHead d ∧ (f d).variants = d.variants) (name : String) :
    (ix.modify name f).Agrees globals := by
  have hsame : ∀ other before, let d := if name = other then f before else before
      d.SameHead before ∧ d.variants = before.variants := by
    intro other before
    dsimp only
    split
    · exact hf before
    · exact ⟨.refl before, rfl⟩
  have hkept : ∀ {other before}, ix.get? other = some before →
      (ix.modify name f).get? other = some (if name = other then f before else before) :=
    fun hbefore => get?_modify_eq_some_iff.2 ⟨_, hbefore, rfl⟩
  refine ⟨h.named, fun {other s} hs hkind => ?_, fun {other d} hd => ?_,
    fun {other d} hd v hv => ?_, fun {other v} hv => ?_⟩
  · obtain ⟨before, hbefore⟩ := Option.isSome_iff_exists.1 (h.declared hs hkind)
    exact Option.isSome_iff_exists.2 ⟨_, hkept hbefore⟩
  · obtain ⟨before, hbefore, rfl⟩ := get?_modify_eq_some_iff.1 hd
    obtain ⟨hhead, -⟩ := hsame other before
    obtain ⟨hname, s, hs, hdeclares⟩ := h.type hbefore
    exact ⟨hhead.name.trans hname, s, hs, hhead.declares hdeclares⟩
  · obtain ⟨before, hbefore, rfl⟩ := get?_modify_eq_some_iff.1 hd
    obtain ⟨-, hvariants⟩ := hsame other before
    exact h.listed hbefore v (hvariants ▸ hv)
  · obtain ⟨hname, before, s, hbefore, hs, hkind, hcount, hconstructs⟩ := h.variant hv
    obtain ⟨hhead, hvariants⟩ := hsame v.parent before
    exact ⟨hname, _, s, hkept hbefore, hs, hhead.kind.trans hkind, hvariants ▸ hcount,
      hhead.constructs hconstructs⟩

/-- A variant that has a constructor and is new is listed once with its data type. -/
theorem addVariant {v : Variant} {d : DeclaredType} {s : Symbol}
    (hd : ix.get? v.parent = some d) (hdata : d.kind = .data) (hs : globals v.name = some s)
    (hconstructs : s.Constructs v d) (hnew : ix.variant? v.name = none) :
    (ix.addVariant v).Agrees globals := by
  have hunlisted : ∀ {name before}, ix.get? name = some before → v.name ∉ before.variants := by
    intro name before hbefore hmem
    obtain ⟨w, hw, -⟩ := h.listed hbefore v.name hmem
    rw [hnew] at hw
    cases hw
  have hhead : ∀ name (before : DeclaredType), DeclaredType.SameHead
      (if v.parent = name then { before with variants := before.variants ++ [v.name] } else before)
      before := by
    intro name before
    split
    · exact ⟨rfl, rfl, rfl⟩
    · exact .refl before
  have hkept : ∀ {name before}, ix.get? name = some before → (ix.addVariant v).get? name = some
      (if v.parent = name then { before with variants := before.variants ++ [v.name] }
        else before) :=
    fun hbefore => get?_addVariant_eq_some_iff.2 ⟨_, hbefore, rfl⟩
  refine ⟨h.named, fun {name t} ht hkind => ?_, fun {name other} hother => ?_,
    fun {name other} hother w hw => ?_, fun {name w} hw => ?_⟩
  · obtain ⟨before, hbefore⟩ := Option.isSome_iff_exists.1 (h.declared ht hkind)
    exact Option.isSome_iff_exists.2 ⟨_, hkept hbefore⟩
  · obtain ⟨before, hbefore, rfl⟩ := get?_addVariant_eq_some_iff.1 hother
    obtain ⟨hname, t, ht, hdeclares⟩ := h.type hbefore
    exact ⟨(hhead name before).name.trans hname, t, ht, (hhead name before).declares hdeclares⟩
  · obtain ⟨before, hbefore, rfl⟩ := get?_addVariant_eq_some_iff.1 hother
    -- a listed name was listed before, or it is the new one
    have hmem : w ∈ before.variants ∨ (v.parent = name ∧ w = v.name) := by
      split at hw
      · next hparent => simpa [hparent] using hw
      · exact .inl hw
    rw [variant?_addVariant]
    rcases hmem with hmem | ⟨hparent, rfl⟩
    · have hne : v.name ≠ w := fun heq => hunlisted hbefore (heq ▸ hmem)
      rw [if_neg hne]
      exact h.listed hbefore w hmem
    · exact ⟨v, if_pos rfl, hparent⟩
  · rw [variant?_addVariant] at hw
    split at hw
    · next heq =>
        subst heq
        cases hw
        refine ⟨rfl, _, s, hkept hd, hs, (hhead _ d).kind.trans hdata, ?_,
          (hhead _ d).constructs hconstructs⟩
        rw [if_pos rfl, List.count_append, List.count_eq_zero.2 (hunlisted hd)]
        simp
    · next hne =>
        obtain ⟨hname, before, t, hbefore, ht, hkind, hcount, hrest⟩ := h.variant hw
        refine ⟨hname, _, t, hkept hbefore, ht, (hhead _ before).kind.trans hkind, ?_,
          (hhead _ before).constructs hrest⟩
        split
        · simpa [List.count_append, hne] using hcount
        · exact hcount

end Agrees

end DeclIndex

end UnitAnalysis

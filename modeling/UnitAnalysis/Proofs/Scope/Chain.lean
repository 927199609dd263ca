import UnitAnalysis.Proofs.Order.Fill
import UnitAnalysis.Proofs.Order.Link
import UnitAnalysis.Proofs.Scope.Guarded

/-!
# Look-ups along the chain of parents

A scope knows the scope directly around it, and a walk from parent to parent comes by the chain of a
scope. In every arena that can be reached the walk ends, because a scope is entered below one that
is there already, whatever else happens in between. A look-up finds the nearest symbol on the chain.
A definition is seen from the scopes whose chain it lies on, as long as nothing nearer hides it, and
from nowhere else. Entering scopes and giving types to symbols hides and uncovers nothing.
-/

set_option autoImplicit false

namespace UnitAnalysis

namespace Arena

/-- The scopes that a walk over parents comes by, from a scope to one that has no parent. -/
inductive Chain (a : Arena) : ScopeId → List ScopeId → Prop
  | outermost {s : ScopeId} {scope : Scope} (hs : a.get? s = some scope)
      (hparent : scope.parent? = none) : Chain a s [s]
  | inner {s parent : ScopeId} {scope : Scope} {rest : List ScopeId} (hs : a.get? s = some scope)
      (hparent : scope.parent? = some parent) (hrest : Chain a parent rest) : Chain a s (s :: rest)

/-- The arenas that the operations on scopes lead to, in any order and on any scope. -/
inductive Reached : Arena → Prop
  | new : Reached {}
  | enter {a : Arena} {parent : ScopeId} (h : Reached a) (hparent : parent.index < a.size)
      (kind : ScopeKind) : Reached (a.enter parent kind).2
  | define {a a' : Arena} {scope : ScopeId} {symbol : Symbol} (h : Reached a)
      (hdefine : a.define scope symbol = .ok a') : Reached a'
  | resolveType {a : Arena} (h : Reached a) (scope : ScopeId) (name : String) (t : Ty) :
      Reached (a.resolveType scope name t)

/-- A scope lies on a chain, and no scope before it has the name. -/
def Nearest (a : Arena) (chain : List ScopeId) (scope : ScopeId) (name : String) : Prop :=
  ∃ nearer farther, chain = nearer ++ scope :: farther ∧
    ∀ c ∈ nearer, a.lookupLocal c name = none

/-- Parents come first. -/
theorem Reached.ordered {a : Arena} (h : a.Reached) : a.Ordered := by
  induction h with
  | new => exact ordered_empty
  | enter _ hparent kind ih => exact ih.enter hparent kind
  | define _ hdefine ih => exact ih.defines (defines_of_define hdefine)
  | resolveType _ scope name t ih => exact ih.defines (defines_resolveType _ scope name t)

/-! ## The chain of a scope -/

/-- All scopes of a chain are there. -/
theorem Chain.lt_size {a : Arena} {s : ScopeId} {chain : List ScopeId} (h : a.Chain s chain) :
    ∀ c ∈ chain, c.index < a.size := by
  have hlt : ∀ {i : ScopeId} {scope : Scope}, a.get? i = some scope → i.index < a.size :=
    fun hi => (Array.getElem?_eq_some_iff.1 hi).1
  induction h with
  | outermost hs _ => exact List.forall_mem_singleton.2 (hlt hs)
  | inner hs _ _ ih => exact List.forall_mem_cons.2 ⟨hlt hs, ih⟩

namespace Ordered

variable {a : Arena} {s : ScopeId} {chain : List ScopeId}

/-- The walk over parents ends: every parent comes before its scope. -/
theorem chain_enclosing (h : a.Ordered) {s : ScopeId} (hs : s.index < a.size) :
    a.Chain s (s :: a.enclosing s) := by
  obtain ⟨scope, hget⟩ : ∃ scope, a.get? s = some scope := ⟨_, Array.getElem?_eq_getElem hs⟩
  have hscope : a.enclosing s = scope.enclosing := by rw [enclosing, hget]
  by_cases hglobal : s = .global
  · subst hglobal
    rw [h.global] at hscope ⊢
    exact .outermost hget (by rw [Scope.parent?, ← hscope]; rfl)
  · obtain ⟨parent, hbelow, hparent⟩ := h.inner s hs hglobal
    rw [hparent] at hscope ⊢
    exact .inner hget (by rw [Scope.parent?, ← hscope]; rfl)
      (chain_enclosing h (Nat.lt_trans hbelow hs))
termination_by s.index
decreasing_by exact hbelow

/-- A chain is the scope and those around it. -/
theorem eq_of_chain (h : a.Ordered) (hchain : a.Chain s chain) : chain = s :: a.enclosing s := by
  induction hchain with
  | @outermost s scope hs hparent =>
    have hnone : scope.enclosing = [] := List.head?_eq_none_iff.1 hparent
    simp [enclosing, hs, hnone]
  | @inner s parent scope rest hs hparent hrest ih =>
    obtain ⟨others, hscope⟩ := List.head?_eq_some_iff.1 hparent
    have henclosing : a.enclosing s = parent :: others := by simp only [enclosing, hs, hscope]
    have hlt := lt_size_of_enclosing henclosing
    have hne : s ≠ .global := by
      rintro rfl
      rw [h.global] at henclosing
      cases henclosing
    obtain ⟨parent', -, hparent'⟩ := h.inner s hlt hne
    obtain ⟨rfl, -⟩ := List.cons.inj (henclosing.symm.trans hparent')
    rw [ih, hparent']

/-- Only the global scope has no way out. -/
theorem exit_eq_error_iff (h : a.Ordered) (hs : s.index < a.size) {e : ScopeError} :
    a.exit s = .error e ↔ s = .global ∧ e = .leftGlobal := by
  unfold exit
  by_cases hglobal : s = .global
  · subst hglobal
    rw [h.global]
    exact ⟨fun herror => ⟨rfl, (Except.error.inj herror).symm⟩, fun herror => by rw [herror.2]; rfl⟩
  · obtain ⟨parent, -, hparent⟩ := h.inner s hs hglobal
    rw [hparent]
    exact iff_of_false (fun herror => nomatch herror) fun herror => hglobal herror.1

end Ordered

/-! ## What a look-up finds -/

section Lookups

variable {a a' : Arena} {s d : ScopeId} {symbol : Symbol} {name : String}

/-- The nearest is found. -/
theorem lookupWithScope_eq_some_iff {owner : ScopeId} :
    a.lookupWithScope s name = some (owner, symbol) ↔
      a.Nearest (s :: a.enclosing s) owner name ∧ a.lookupLocal owner name = some symbol := by
  simp only [lookupWithScope, Nearest, List.findSome?_eq_some_iff, Option.map_eq_some_iff,
    Option.map_eq_none_iff]
  constructor
  · rintro ⟨nearer, c, farther, hchain, ⟨found, hfound, hpair⟩, hnearer⟩
    cases hpair
    exact ⟨⟨nearer, farther, hchain, hnearer⟩, hfound⟩
  · rintro ⟨⟨nearer, farther, hchain, hnearer⟩, hfound⟩
    exact ⟨nearer, owner, farther, hchain, ⟨symbol, hfound, rfl⟩, hnearer⟩

/-- Nothing on the chain. -/
theorem lookupWithScope_eq_none_iff :
    a.lookupWithScope s name = none ↔ ∀ c ∈ s :: a.enclosing s, a.lookupLocal c name = none := by
  simp only [lookupWithScope, List.findSome?_eq_none_iff, Option.map_eq_none_iff]

/-- When the symbols of one scope change, a look-up changes only if that scope is the nearest to
be searched. -/
theorem lookupWithScope_eq_or_nearest (henclosing : a'.enclosing s = a.enclosing s)
    (h : ∀ c, c ≠ d → a'.lookupLocal c name = a.lookupLocal c name) :
    a'.lookupWithScope s name = a.lookupWithScope s name ∨
      a.Nearest (s :: a.enclosing s) d name := by
  unfold lookupWithScope Nearest
  rw [henclosing]
  generalize s :: a.enclosing s = chain
  induction chain with
  | nil => exact .inl rfl
  | cons c chain ih =>
    by_cases hc : c = d
    · exact .inr ⟨[], chain, by rw [hc]; rfl, nofun⟩
    · rw [List.findSome?_cons, List.findSome?_cons, h c hc]
      cases hlocal : a.lookupLocal c name with
      | some found => exact .inl rfl
      | none =>
        refine ih.imp_right fun hnearest => ?_
        obtain ⟨nearer, farther, rfl, hnearer⟩ := hnearest
        exact ⟨c :: nearer, farther, rfl, List.forall_mem_cons.2 ⟨hlocal, hnearer⟩⟩

/-- A definition is local. -/
theorem lookupLocal_define (hd : d.index < a.size) (h : a.define d symbol = .ok a') (c : ScopeId)
    (name : String) : a'.lookupLocal c name =
      if c = d ∧ name = symbol.name then some symbol else a.lookupLocal c name := by
  unfold define at h
  split at h
  · cases h
  · cases h
    exact Builder.lookupLocal_insert a symbol c name hd

/-- It hides what is further out. -/
theorem lookupWithScope_define (hd : d.index < a.size) (h : a.define d symbol = .ok a') :
    (a.Nearest (s :: a.enclosing s) d symbol.name →
      a'.lookupWithScope s symbol.name = some (d, symbol)) ∧
    ∀ name, a'.lookupWithScope s name = a.lookupWithScope s name ∨
      (name = symbol.name ∧ a.Nearest (s :: a.enclosing s) d name) := by
  have henclosing := (defines_of_define h).enclosing s
  refine ⟨fun hnearest => ?_, fun name => ?_⟩
  · obtain ⟨nearer, farther, hchain, hnearer⟩ := hnearest
    rw [lookupWithScope, henclosing, hchain]
    clear hchain
    induction nearer with
    | nil => simp [lookupLocal_define hd h]
    | cons c nearer ih =>
      obtain ⟨hc, hrest⟩ := List.forall_mem_cons.1 hnearer
      rw [List.cons_append, List.findSome?_cons, lookupLocal_define hd h, hc]
      by_cases hcd : c = d
      · simp [hcd]
      · simpa [hcd] using ih hrest
  · by_cases hname : name = symbol.name
    · refine (lookupWithScope_eq_or_nearest henclosing fun c hc => ?_).imp_right fun hnearest =>
        ⟨hname, hnearest⟩
      rw [lookupLocal_define hd h, if_neg fun heq => hc heq.1]
    · refine .inl ?_
      simp only [lookupWithScope, henclosing, lookupLocal_define hd h, hname, and_false, if_false]

/-- A new scope hides nothing. -/
theorem lookupWithScope_enter {parent : ScopeId} (ha : a.Ordered) (hs : s.index < a.size)
    (kind : ScopeKind) :
    (a.enter parent kind).2.lookupWithScope s name = a.lookupWithScope s name := by
  refine lookupWithScope_congr ((a.extends_enter parent kind s).enclosing s hs) fun c hc => ?_
  have hlt := (ha.chain_enclosing hs).lt_size c hc
  rw [lookupLocal, get?_enter_of_lt a parent kind hlt, lookupLocal]

/-- Giving a type is seen by the look-ups that find the symbol, when it had none. -/
theorem lookupWithScope_resolveType (n : String) (t : Ty) :
    (a.resolveType d n t).lookupWithScope s name = a.lookupWithScope s name ∨
      ∃ symbol, symbol.declaredType = none ∧ name = n ∧
        a.lookupWithScope s name = some (d, symbol) ∧
        (a.resolveType d n t).lookupWithScope s name =
          some (d, { symbol with declaredType := some t }) := by
  let fill : ScopeId × Symbol → ScopeId × Symbol := fun found =>
    if found.1 = d ∧ n = name then
      (found.1, { found.2 with declaredType := found.2.declaredType.or (some t) })
    else found
  have hlookup : (a.resolveType d n t).lookupWithScope s name =
      (a.lookupWithScope s name).map fill := by
    unfold lookupWithScope
    rw [(defines_resolveType a d n t).enclosing, List.map_findSome?]
    congr 1
    funext c
    rw [lookupLocal_resolveType]
    by_cases hc : c = d ∧ n = name
    · cases hlocal : a.lookupLocal c name <;> simp_all [fill]
    · cases hlocal : a.lookupLocal c name <;> simp [fill, hc, hlocal]
  rw [hlookup]
  cases hfound : a.lookupWithScope s name with
  | none => exact .inl rfl
  | some found =>
    obtain ⟨owner, symbol⟩ := found
    by_cases hfill : owner = d ∧ n = name
    · obtain ⟨rfl, rfl⟩ := hfill
      cases htype : symbol.declaredType with
      | none => exact .inr ⟨symbol, htype, rfl, rfl, by simp [fill, htype]⟩
      | some u =>
        refine .inl ?_
        cases symbol
        simp_all [fill]
    · exact .inl (by simp [fill, hfill])

end Lookups

/-- What a scope sees along its chain, and what the operations on scopes change about it. -/
structure SeesAlong (a : Arena) (s : ScopeId) (chain : List ScopeId) : Prop where
  /-- A look-up finds the nearest symbol. -/
  found : ∀ name owner symbol, a.lookupWithScope s name = some (owner, symbol) ↔
    a.Nearest chain owner name ∧ a.lookupLocal owner name = some symbol
  /-- A look-up finds nothing only when no scope of the chain has the name. -/
  missed : ∀ name, a.lookupWithScope s name = none ↔ ∀ c ∈ chain, a.lookupLocal c name = none
  /-- A definition is found where it is the nearest one, and it changes no other look-up. -/
  defined : ∀ (d : ScopeId) symbol a', d.index < a.size → a.define d symbol = .ok a' →
    (a.Nearest chain d symbol.name → a'.lookupWithScope s symbol.name = some (d, symbol)) ∧
    ∀ name, a'.lookupWithScope s name = a.lookupWithScope s name ∨
      (name = symbol.name ∧ a.Nearest chain d name)
  /-- A scope that is entered changes no look-up. -/
  entered : ∀ parent kind name, (a.enter parent kind).2.lookupWithScope s name =
    a.lookupWithScope s name
  /-- A type is given to a symbol that has none, and changes nothing else. -/
  typed : ∀ d n t name,
    (a.resolveType d n t).lookupWithScope s name = a.lookupWithScope s name ∨
      ∃ symbol, symbol.declaredType = none ∧ name = n ∧
        a.lookupWithScope s name = some (d, symbol) ∧
        (a.resolveType d n t).lookupWithScope s name =
          some (d, { symbol with declaredType := some t })
  /-- The way out goes along the chain, and fails at the global scope only. -/
  left : (∀ e, a.exit s = .error e ↔ s = .global ∧ e = .leftGlobal) ∧
    ∀ parent, a.exit s = .ok parent → ∃ rest, chain = s :: parent :: rest

/-- **Look-ups find the innermost binding, and definitions are local.** In every arena that the
operations on scopes lead to, the walk over parents from a scope ends, and the scope sees along the
chain of its parents. A definition fails just when the scope has the name, and then it changes
nothing. -/
theorem seesAlong_chain {a : Arena} (ha : a.Reached) :
    (∀ s : ScopeId, s.index < a.size → ∃ chain, a.Chain s chain) ∧
    (∀ s chain, a.Chain s chain → a.SeesAlong s chain) ∧
    ∀ b : Builder, b.table.scopes = a → ∀ d symbol,
      (a.Binds d symbol.name ↔ ∃ e, a.define d symbol = .error e) ∧
      ∀ e, a.define d symbol = .error e → (Build.tryDefine d symbol).run b = (.error e, b) := by
  have hordered := ha.ordered
  refine ⟨fun s hs => ⟨_, hordered.chain_enclosing hs⟩, fun s chain hchain => ?_, ?_⟩
  · have hs := hchain.lt_size s (by cases hchain <;> exact List.mem_cons_self)
    obtain rfl := hordered.eq_of_chain hchain
    refine ⟨fun _ _ _ => lookupWithScope_eq_some_iff, fun _ => lookupWithScope_eq_none_iff,
      fun d symbol a' hd hdefine => lookupWithScope_define hd hdefine,
      fun parent kind name => lookupWithScope_enter hordered hs kind,
      fun d n t name => lookupWithScope_resolveType n t,
      fun e => hordered.exit_eq_error_iff hs, fun parent hexit => ?_⟩
    unfold exit at hexit
    split at hexit
    · next hhead =>
        cases hexit
        obtain ⟨rest, hrest⟩ := List.head?_eq_some_iff.1 hhead
        exact ⟨rest, by rw [hrest]⟩
    · cases hexit
  · rintro b rfl d symbol
    cases hfirst : b.table.scopes.lookupLocal d symbol.name with
    | none => simp [Binds, define, hfirst]
    | some first =>
      have hdefine : b.table.scopes.define d symbol =
          .error (.redefinition symbol.name first.span) := by simp [define, hfirst]
      refine ⟨iff_of_true (by simp [Binds, hfirst]) ⟨_, hdefine⟩, fun e he => ?_⟩
      cases hdefine.symm.trans he
      exact Build.tryDefine_run_of_some hfirst

/-- A block whose name `x` hides the global one, and a look-up from the block. -/
theorem seesAlong_chain_of_hiding :
    let x : Symbol := { name := "x", kind := .variableName, declaredType := none }
    let outer := ({} : Arena).modifySymbols .global fun t => t.insert "x" x
    let nested := (outer.enter .global .block).2.modifySymbols ⟨1⟩ fun t => t.insert "x" x
    nested.Reached ∧ ∃ chain, nested.Chain ⟨1⟩ chain ∧ nested.SeesAlong ⟨1⟩ chain := by
  intro x outer nested
  have houter : outer.Reached := .define .new (show Arena.define {} .global x = .ok outer from rfl)
  have hnested : nested.Reached :=
    .define (.enter houter Nat.one_pos .block)
      (show (outer.enter .global .block).2.define ⟨1⟩ x = .ok nested from rfl)
  obtain ⟨hends, hsees, -⟩ := seesAlong_chain hnested
  obtain ⟨chain, hchain⟩ := hends ⟨1⟩ (by decide)
  exact ⟨hnested, chain, hchain, hsees ⟨1⟩ chain hchain⟩

end Arena

end UnitAnalysis

import Mathlib.Data.Set.Basic
import UnitAnalysis.Proofs.Scope.Names
import UnitAnalysis.Symbols.Visit

/-!
# What a construction can be asked for

A construction shows what it has under keys: a node, a declared name, a type, a global name. Scopes
are shown by the node that opened them and not by their numbers, so two constructions can show the
same although they opened their scopes in different orders. `Builder.AgreeOn` says that two
constructions show the same under some keys, and `Builder.Moves` what a step does that works on some
keys and reads nothing else: from constructions that agree there it leads to constructions that
agree there, and it changes nothing under other keys.
-/

set_option autoImplicit false

namespace UnitAnalysis

/-- What a construction has for a node. -/
structure NodeRecord where
  /-- The type, when the node is annotated. -/
  annotation : Option Ty
  /-- The signature, when the node is a function. -/
  signature : Option Signature
  /-- The symbols of the scope that the node opened. -/
  symbols : String → Option Symbol
  /-- Whether the node is a declaration that lost its name. -/
  isShadowed : Bool
  /-- The implementation that the node declares. -/
  impl? : Option Implementation

/-- A question to a construction. -/
inductive Key where
  | node (id : NodeId)
  /-- Whether a type has the name. -/
  | declared (name : String)
  /-- The type and the variant of a name. -/
  | type (name : String)
  /-- The global symbol of a name, and its result when it needs no declaration. -/
  | global (name : String)
  deriving DecidableEq

/-- The answers to a question. -/
def Key.Value : Key → Type
  | node _ => NodeRecord
  | declared _ => Bool
  | type _ => Option DeclaredType × Option Variant
  | global _ => Option Symbol × Option Ty

/-- A symbol of the scope that a node opened. A node of the script, which remembers the global
scope, did not open it. -/
def SymbolTable.symbolOf (t : SymbolTable) (id : NodeId) (name : String) : Option Symbol :=
  match t.scopeMap.get? id with
  | some scope => if scope = .global then none else t.scopes.lookupLocal scope name
  | none => none

namespace Builder

/-- What a construction has for a node. -/
def nodeRecord (b : Builder) (id : NodeId) : NodeRecord where
  annotation := b.table.annotations.get? id
  signature := b.table.functions.get? id
  symbols := b.table.symbolOf id
  isShadowed := id ∈ b.shadowed
  impl? := b.impls.find? fun impl => impl.origin = id

/-- What a construction answers. -/
def view (b : Builder) : (k : Key) → k.Value
  | .node id => b.nodeRecord id
  | .declared name => b.table.decls.contains name
  | .type name => (b.table.decls.get? name, b.table.decls.variant? name)
  | .global name => (b.table.scopes.lookupLocal .global name, b.table.intrinsics.get? name)

/-- Two constructions show the same under some keys. -/
def AgreeOn (K : Set Key) (b b' : Builder) : Prop :=
  ∀ k ∈ K, b.view k = b'.view k

namespace AgreeOn

variable {K L : Set Key} {b b' b'' : Builder}

/-- A builder agrees with itself. -/
theorem refl (K : Set Key) (b : Builder) : AgreeOn K b b :=
  fun _ _ => rfl

/-- Agreement is mutual. -/
theorem symm (h : AgreeOn K b b') : AgreeOn K b' b :=
  fun k hk => (h k hk).symm

/-- Agreement goes on. -/
theorem trans (h : AgreeOn K b b') (h' : AgreeOn K b' b'') : AgreeOn K b b'' :=
  fun k hk => (h k hk).trans (h' k hk)

/-- Fewer keys may be asked for. -/
theorem mono (h : AgreeOn L b b') (hsub : K ⊆ L) : AgreeOn K b b' :=
  fun k hk => h k (hsub hk)

end AgreeOn

/-- What was reported, declared and implemented between two states. -/
structure Logs (found : List Finding) (traits : List Trait) (impls : List Implementation)
    (b c : Builder) : Prop where
  findings : c.findings = b.findings ++ found
  traits : c.traits = b.traits ++ traits
  impls : c.impls = b.impls ++ impls

namespace Logs

variable {found more : List Finding} {traits traits' : List Trait}
  {impls impls' : List Implementation} {b c d : Builder}

/-- Nothing is logged. -/
theorem refl (b : Builder) : Logs [] [] [] b b :=
  ⟨(List.append_nil _).symm, (List.append_nil _).symm, (List.append_nil _).symm⟩

/-- Logs are appended. -/
theorem trans (h : Logs found traits impls b c) (h' : Logs more traits' impls' c d) :
    Logs (found ++ more) (traits ++ traits') (impls ++ impls') b d where
  findings := by rw [h'.findings, h.findings, List.append_assoc]
  traits := by rw [h'.traits, h.traits, List.append_assoc]
  impls := by rw [h'.impls, h.impls, List.append_assoc]

end Logs

/-- Two constructions went from `b` and `b'` to `c` and `c'` in the same way: they agree on the keys
`W` afterwards, they have changed nothing else, and they have logged the same. -/
structure Moves (W : Set Key) (b b' c c' : Builder) : Prop where
  agree : AgreeOn W c c'
  kept : AgreeOn Wᶜ b c
  kept' : AgreeOn Wᶜ b' c'
  logs : ∃ found traits impls, Logs found traits impls b c ∧ Logs found traits impls b' c'

namespace Moves

variable {W K : Set Key} {b b' c c' d d' : Builder}

/-- Nothing moves. -/
theorem refl (h : AgreeOn W b b') : Moves W b b' b b' :=
  ⟨h, .refl _ _, .refl _ _, [], [], [], .refl b, .refl b'⟩

/-- Moves go on. -/
theorem trans (h : Moves W b b' c c') (h' : Moves W c c' d d') : Moves W b b' d d' := by
  obtain ⟨found, traits, impls, hlogs, hlogs'⟩ := h.logs
  obtain ⟨more, traits', impls', hmore, hmore'⟩ := h'.logs
  exact ⟨h'.agree, h.kept.trans h'.kept, h.kept'.trans h'.kept', found ++ more, traits ++ traits',
    impls ++ impls', hlogs.trans hmore, hlogs'.trans hmore'⟩

/-- Where the constructions agreed they agree still. -/
theorem agree_of (h : Moves W b b' c c') (hK : AgreeOn K b b') : AgreeOn K c c' := by
  intro k hk
  by_cases hW : k ∈ W
  · exact h.agree k hW
  · exact ((h.kept k hW).symm.trans (hK k hk)).trans (h.kept' k hW)

/-- A step that changes nothing that is shown. -/
theorem of_view (h : ∀ k, c.view k = b.view k) (h' : ∀ k, c'.view k = b'.view k)
    (hW : AgreeOn W b b')
    (hlogs : ∃ found traits impls, Logs found traits impls b c ∧ Logs found traits impls b' c') :
    Moves W b b' c c' where
  agree k hk := by rw [h, h', hW k hk]
  kept k _ := (h k).symm
  kept' k _ := (h' k).symm
  logs := hlogs

end Moves

/-- A step changed what is shown under one key. -/
structure Sets (k : Key) (f : k.Value → k.Value) (b c : Builder) : Prop where
  self : c.view k = f (b.view k)
  other : ∀ j, j ≠ k → c.view j = b.view j

/-- Two constructions that change what they show under one key in the same way. -/
theorem Sets.moves {W : Set Key} {b b' c c' : Builder} {k : Key} {f : k.Value → k.Value}
    (h : Sets k f b c) (h' : Sets k f b' c') (hk : k ∈ W) (hW : AgreeOn W b b')
    (hlogs : ∃ found traits impls, Logs found traits impls b c ∧ Logs found traits impls b' c') :
    Moves W b b' c c' where
  agree j hj := by
    by_cases heq : j = k
    · subst heq
      rw [h.self, h'.self, hW j hj]
    · rw [h.other j heq, h'.other j heq, hW j hj]
  kept j hj := (h.other j (ne_of_mem_of_not_mem hk hj).symm).symm
  kept' j hj := (h'.other j (ne_of_mem_of_not_mem hk hj).symm).symm
  logs := hlogs

end Builder

end UnitAnalysis

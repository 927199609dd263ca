import UnitAnalysis.Proofs.Meets
import UnitAnalysis.Proofs.Scope.Names

/-!
# Guarded handling of scopes

The walks through a unit name scopes by their indices and follow the scopes around a scope from the
inside out. They never ask whether an index is one of the arena, or whether the way out of a scope
comes by the scope that it should come to. Guarded steps do ask, and stop with a `ScopeFault` when
something is wrong.

`Arena.Ordered` says what makes scopes safe to handle: every scope but the global one lies directly
below an earlier one. Then the way out of a scope and the look-up of a name, both taken one scope at
a time, raise no fault. `Faultless` compares a guarded step with the plain one: it raises no fault
and does the same.
-/

set_option autoImplicit false

namespace UnitAnalysis

/-- What can go wrong with the index of a scope. -/
inductive ScopeFault where
  /-- The arena has no such scope. -/
  | missing (scope : ScopeId)
  /-- The scope directly around a scope does not come before it. -/
  | misplaced (scope parent : ScopeId)
  /-- The way out ended at the global scope and did not come by the target. -/
  | unbalanced (target : ScopeId)
  deriving DecidableEq, Repr

namespace Arena

/-- Asks for a scope to be there. -/
def require (a : Arena) (scope : ScopeId) : Except ScopeFault Unit :=
  if scope.index < a.size then .ok () else .error (.missing scope)

/-- Asks for a scope to be there and to come after another one. -/
def requireAfter (a : Arena) (parent scope : ScopeId) : Except ScopeFault Unit :=
  if scope.index < a.size then
    if parent.index < scope.index then .ok () else .error (.misplaced scope parent)
  else .error (.missing scope)

/-- The scope directly around a scope, which has to come before it; the global scope has none. -/
def outward (a : Arena) (scope : ScopeId) :
    Except ScopeFault (Option { parent : ScopeId // parent.index < scope.index }) :=
  if scope.index < a.size then
    match a.exit scope with
    | .ok parent =>
      if h : parent.index < scope.index then .ok (some ⟨parent, h⟩)
      else .error (.misplaced scope parent)
    | .error _ => .ok none
  else .error (.missing scope)

/-- Goes out of scopes until the target is reached. -/
def leave (a : Arena) (scope target : ScopeId) : Except ScopeFault Unit :=
  if scope = target then .ok ()
  else match a.outward scope with
    | .ok (some parent) => a.leave parent target
    | .ok none => .error (.unbalanced target)
    | .error fault => .error fault
termination_by scope.index
decreasing_by exact parent.2

/-- Searches a scope for a name and then, one by one, the scopes around it. -/
def search (a : Arena) (scope : ScopeId) (name : String) :
    Except ScopeFault (Option (ScopeId × Symbol)) :=
  match a.outward scope with
  | .ok parent? =>
    match a.lookupLocal scope name with
    | some symbol => .ok (some (scope, symbol))
    | none =>
      match parent? with
      | some parent => a.search parent name
      | none => .ok none
  | .error fault => .error fault
termination_by scope.index
decreasing_by exact parent.2

/-! ## Scopes in order -/

/-- Every scope but the global one lies directly below an earlier one. -/
structure Ordered (a : Arena) : Prop where
  global_lt : ScopeId.global.index < a.size
  global : a.enclosing .global = []
  inner : ∀ scope : ScopeId, scope.index < a.size → scope ≠ .global →
    ∃ parent : ScopeId, parent.index < scope.index ∧
      a.enclosing scope = parent :: a.enclosing parent

/-- The way out of a scope comes by a target. -/
structure Leads (a : Arena) (scope target : ScopeId) : Prop where
  lt_size : scope.index < a.size
  target_lt_size : target.index < a.size
  suffix : target :: a.enclosing target <:+ scope :: a.enclosing scope

/-- Scopes may have come to be, and those of before are where they were. -/
structure Grows (a a' : Arena) : Prop where
  size : a.size ≤ a'.size
  enclosing : ∀ i : ScopeId, i.index < a.size → a'.enclosing i = a.enclosing i

theorem Grows.refl (a : Arena) : Grows a a :=
  ⟨Nat.le_refl _, fun _ _ => rfl⟩

theorem Grows.trans {a a' a'' : Arena} (h : Grows a a') (h' : Grows a' a'') : Grows a a'' where
  size := Nat.le_trans h.size h'.size
  enclosing i hi := (h'.enclosing i (Nat.lt_of_lt_of_le hi h.size)).trans (h.enclosing i hi)

theorem Grows.lt_size {a a' : Arena} {i : ScopeId} (h : Grows a a') (hi : i.index < a.size) :
    i.index < a'.size :=
  Nat.lt_of_lt_of_le hi h.size

theorem Extends.grows {a a' : Arena} {scope : ScopeId} {names : List String}
    (h : Extends scope names a a') : Grows a a' :=
  ⟨h.size, h.enclosing⟩

namespace Leads

variable {a a' : Arena} {scope inner target : ScopeId}

theorem refl (hscope : scope.index < a.size) : a.Leads scope scope :=
  ⟨hscope, hscope, List.suffix_rfl⟩

theorem trans (h : a.Leads inner scope) (h' : a.Leads scope target) : a.Leads inner target :=
  ⟨h.lt_size, h'.target_lt_size, h'.suffix.trans h.suffix⟩

/-- A way out stays what it is while scopes come to be. -/
theorem grows (h : a.Leads scope target) (hgrows : Grows a a') : a'.Leads scope target where
  lt_size := hgrows.lt_size h.lt_size
  target_lt_size := hgrows.lt_size h.target_lt_size
  suffix := by
    rw [hgrows.enclosing _ h.lt_size, hgrows.enclosing _ h.target_lt_size]
    exact h.suffix

end Leads

/-- A scope with scopes around it is there. -/
theorem lt_size_of_enclosing {a : Arena} {scope parent : ScopeId} {rest : List ScopeId}
    (h : a.enclosing scope = parent :: rest) : scope.index < a.size := by
  rcases Nat.lt_or_ge scope.index a.size with hlt | hge
  · exact hlt
  · unfold enclosing get? at h
    rw [Array.getElem?_eq_none hge] at h
    cases h

/-- A scope that lies directly below another one leads to it. -/
theorem leads_parent {a : Arena} {scope parent : ScopeId} (hscope : scope.index < a.size)
    (hbelow : parent.index < scope.index)
    (hparent : a.enclosing scope = parent :: a.enclosing parent) : a.Leads scope parent :=
  ⟨hscope, Nat.lt_trans hbelow hscope, hparent ▸ List.suffix_cons _ _⟩

theorem enclosing_enter_self (a : Arena) (parent : ScopeId) (kind : ScopeKind) :
    (a.enter parent kind).2.enclosing ⟨a.size⟩ = parent :: a.enclosing parent := by
  rw [enclosing, get?_enter_self]

/-- A scope that is entered leads to the one that it is entered below. -/
theorem leads_enter {a : Arena} {parent : ScopeId} (hparent : parent.index < a.size)
    (kind : ScopeKind) : (a.enter parent kind).2.Leads ⟨a.size⟩ parent := by
  refine leads_parent ?_ hparent ?_
  · rw [size_enter]
    exact Nat.lt_succ_self _
  · rw [enclosing_enter_self, (a.extends_enter parent kind parent).enclosing parent hparent]

theorem ordered_empty : Ordered {} where
  global_lt := by decide
  global := rfl
  inner scope hscope hne := by
    refine absurd ?_ hne
    obtain ⟨index⟩ := scope
    exact congrArg ScopeId.mk (Nat.lt_one_iff.1 hscope)

namespace Ordered

variable {a a' : Arena} {scope target parent : ScopeId} {names : List String}

/-- Definitions move no scope. -/
theorem defines (h : a.Ordered) (hdefines : Defines scope names a a') : a'.Ordered where
  global_lt := hdefines.size ▸ h.global_lt
  global := by rw [hdefines.enclosing, h.global]
  inner i hi hne := by
    simp only [hdefines.enclosing]
    exact h.inner i (hdefines.size ▸ hi) hne

/-- A scope that is entered comes last, so every scope around it comes before it. -/
theorem enter (h : a.Ordered) (hparent : parent.index < a.size) (kind : ScopeKind) :
    (a.enter parent kind).2.Ordered := by
  have hgrows := (a.extends_enter parent kind parent).grows
  refine ⟨hgrows.lt_size h.global_lt, ?_, fun i hi hne => ?_⟩
  · rw [hgrows.enclosing _ h.global_lt, h.global]
  · rw [size_enter] at hi
    rcases Nat.lt_succ_iff_lt_or_eq.1 hi with hlt | heq
    · obtain ⟨around, hbelow, haround⟩ := h.inner i hlt hne
      refine ⟨around, hbelow, ?_⟩
      rw [hgrows.enclosing i hlt, hgrows.enclosing around (Nat.lt_trans hbelow hlt), haround]
    · obtain rfl : i = ⟨a.size⟩ := congrArg ScopeId.mk heq
      exact ⟨parent, hparent, by rw [enclosing_enter_self, hgrows.enclosing parent hparent]⟩

/-- A scope is the global one, or it lies directly below the one that its way out comes to next. -/
theorem outward_cases (h : a.Ordered) (hscope : scope.index < a.size) :
    scope = .global ∧ a.outward scope = .ok none ∨
      ∃ parent : { parent : ScopeId // parent.index < scope.index },
        a.outward scope = .ok (some parent) ∧
          a.enclosing scope = parent.1 :: a.enclosing parent.1 := by
  unfold outward exit
  rw [if_pos hscope]
  by_cases hglobal : scope = .global
  · subst hglobal
    exact .inl ⟨rfl, by rw [h.global]; rfl⟩
  · obtain ⟨parent, hbelow, hparent⟩ := h.inner scope hscope hglobal
    refine .inr ⟨⟨parent, hbelow⟩, ?_, hparent⟩
    rw [hparent]
    exact dif_pos hbelow

/-- The way out of a scope comes by the scope directly around it. -/
theorem leads_of_exit (h : a.Ordered) (hexit : a.exit scope = .ok parent) :
    a.Leads scope parent := by
  unfold exit at hexit
  cases hscopes : a.enclosing scope with
  | nil =>
    rw [hscopes] at hexit
    cases hexit
  | cons first rest =>
    rw [hscopes] at hexit
    cases hexit
    have hlt := lt_size_of_enclosing hscopes
    have hne : scope ≠ .global := by
      rintro rfl
      rw [h.global] at hscopes
      cases hscopes
    obtain ⟨parent', hbelow, hparent⟩ := h.inner scope hlt hne
    obtain ⟨rfl, -⟩ := List.cons.inj (hscopes.symm.trans hparent)
    exact leads_parent hlt hbelow hparent

/-- The way out of a scope ends at a target without fault exactly when it comes by the target. -/
theorem leave_eq_ok_iff (h : a.Ordered) {scope : ScopeId} (hscope : scope.index < a.size) :
    a.leave scope target = .ok () ↔ a.Leads scope target := by
  unfold leave
  by_cases heq : scope = target
  · subst heq
    rw [if_pos rfl]
    exact iff_of_true rfl (.refl hscope)
  · rw [if_neg heq]
    rcases h.outward_cases hscope with ⟨rfl, hout⟩ | ⟨parent, hout, hparent⟩
    · rw [hout]
      refine iff_of_false (fun hleave => nomatch hleave) fun hleads => heq ?_
      have hmem := hleads.suffix.subset List.mem_cons_self
      rw [h.global, List.mem_singleton] at hmem
      exact hmem.symm
    · rw [hout]
      have hlt := Nat.lt_trans parent.2 hscope
      refine (leave_eq_ok_iff h hlt).trans ⟨(leads_parent hscope parent.2 hparent).trans, ?_⟩
      -- the target is not the scope itself, so it lies on the rest of the way
      refine fun hleads => ⟨hlt, hleads.target_lt_size, ?_⟩
      rcases List.suffix_cons_iff.1 hleads.suffix with hsame | hsuffix
      · exact absurd (List.cons.inj hsame).1.symm heq
      · rwa [hparent] at hsuffix
termination_by scope.index
decreasing_by exact parent.2

/-- A search one scope at a time finds what a look-up finds, and raises no fault. -/
theorem search_eq (h : a.Ordered) {scope : ScopeId} (hscope : scope.index < a.size)
    (name : String) : a.search scope name = .ok (a.lookupWithScope scope name) := by
  unfold search lookupWithScope
  rcases h.outward_cases hscope with ⟨rfl, hout⟩ | ⟨parent, hout, hparent⟩
  · rw [hout, h.global]
    cases hlocal : a.lookupLocal .global name <;> simp [hlocal]
  · rw [hout, hparent]
    cases hlocal : a.lookupLocal scope name with
    | some symbol => simp [hlocal]
    | none =>
      rw [List.findSome?_cons, hlocal]
      exact search_eq h (Nat.lt_trans parent.2 hscope) name
termination_by scope.index
decreasing_by exact parent.2

end Ordered

end Arena

/-! ## Guarded steps -/

/-- A step that passes on a state and stops at the first fault. -/
abbrev Guarded (σ : Type) := StateT σ (Except ScopeFault)

namespace Guarded

variable {σ α : Type}

/-- A plain step, which raises no fault. -/
def plain (x : StateM σ α) : Guarded σ α :=
  fun s => .ok (x.run s)

/-- What can be told of the state, unless that raises a fault. -/
def ask (f : σ → Except ScopeFault α) : Guarded σ α :=
  fun s => (f s).map fun v => (v, s)

theorem run_ask (f : σ → Except ScopeFault α) (s : σ) :
    (ask f).run s = (f s).map fun v => (v, s) :=
  rfl

end Guarded

/-- A guarded step that starts where `P` holds raises no fault, does what the plain step does and
ends where `Q` holds of its value and of the state. -/
structure Faultless {σ α : Type} (P : σ → Prop) (x : Guarded σ α) (y : StateM σ α)
    (Q : α → σ → Prop) : Prop where
  run : ∀ s, P s → x.run s = .ok (y.run s)
  meets : Meets P y Q

namespace Faultless

variable {σ α β : Type} {P P' : σ → Prop} {Q Q' : α → σ → Prop} {R : β → σ → Prop}
  {x : Guarded σ α} {y : StateM σ α}

theorem pure {a : α} (h : ∀ s, P s → Q a s) : Faultless P (Pure.pure a) (Pure.pure a) Q :=
  ⟨fun _ _ => rfl, .pure h⟩

theorem plain (h : Meets P y Q) : Faultless P (Guarded.plain y) y Q :=
  ⟨fun _ _ => rfl, h⟩

theorem bind {f : α → Guarded σ β} {g : α → StateM σ β} (hx : Faultless P x y Q)
    (hf : ∀ a, Faultless (Q a) (f a) (g a) R) : Faultless P (x >>= f) (y >>= g) R where
  run s hs := by
    rw [StateT.run_bind, hx.run s hs]
    exact (hf _).run _ (hx.meets.run s hs)
  meets := hx.meets.bind fun a => (hf a).meets

theorem look {f : σ → Guarded σ α} {g : σ → StateM σ α}
    (hf : ∀ s, P s → Faultless (· = s) (f s) (g s) Q) :
    Faultless P (get >>= f) (get >>= g) Q where
  run s hs := (hf s hs).run s rfl
  meets := .look fun s hs => (hf s hs).meets

theorem mono (hx : Faultless P x y Q) (hP : ∀ s, P' s → P s) (hQ : ∀ a s, Q a s → Q' a s) :
    Faultless P' x y Q' :=
  ⟨fun s hs => hx.run s (hP s hs), hx.meets.mono hP hQ⟩

/-- A step may be told of by what it does in each state. -/
theorem of_states (h : ∀ s, P s → Faultless (· = s) x y Q) : Faultless P x y Q :=
  ⟨fun s hs => (h s hs).run s rfl, ⟨fun s hs => (h s hs).meets.run s rfl⟩⟩

theorem from_state (hx : Faultless P x y Q) {s : σ} (hs : P s) : Faultless (· = s) x y Q :=
  hx.mono (fun _ heq => heq ▸ hs) fun _ _ h => h

theorem forM {ι : Type} {xs : List ι} {step : ι → Guarded σ PUnit} {step' : ι → StateM σ PUnit}
    (h : ∀ i ∈ xs, Faultless P (step i) (step' i) fun _ => P) :
    Faultless P (xs.forM step) (xs.forM step') fun _ => P := by
  induction xs with
  | nil => exact pure fun _ hs => hs
  | cons i xs ih =>
    exact (h i List.mem_cons_self).bind fun _ => ih fun j hj => h j (List.mem_cons_of_mem _ hj)

/-- A question that raises no fault changes nothing. -/
theorem ask {f : σ → Except ScopeFault α} {v : σ → α} (hf : ∀ s, P s → f s = .ok (v s))
    (hQ : ∀ s, P s → Q (v s) s) : Faultless P (Guarded.ask f) (do return v (← get)) Q where
  run s hs := by
    rw [Guarded.run_ask, hf s hs]
    rfl
  meets := .look fun s hs => .pure fun _ heq => heq ▸ hQ s hs

/-- A question whose answer does not matter, before a step. -/
theorem asked {f : σ → Except ScopeFault Unit} (hf : ∀ s, P s → f s = .ok ())
    (hx : Faultless P x y Q) : Faultless P (Guarded.ask f >>= fun _ => x) y Q :=
  (ask hf fun _ hs => hs).bind fun _ => hx

/-- A step whose value is checked. -/
theorem checked {f : α → σ → Except ScopeFault Unit} (hx : Faultless P x y Q)
    (hf : ∀ a s, Q a s → f a s = .ok ()) :
    Faultless P (x >>= fun a => Guarded.ask (f a) >>= fun _ => Pure.pure a) y Q where
  run s hs := by
    have hask := Guarded.run_ask (f (y.run s).1) (y.run s).2
    rw [hf _ _ (hx.meets.run s hs)] at hask
    rw [StateT.run_bind, hx.run s hs]
    change (Guarded.ask (f (y.run s).1) >>= fun _ => Pure.pure (y.run s).1).run (y.run s).2 = _
    rw [StateT.run_bind, hask]
    rfl
  meets := hx.meets

end Faultless

end UnitAnalysis

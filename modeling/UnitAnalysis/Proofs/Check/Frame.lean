import Mathlib.Data.List.Forall2
import UnitAnalysis.Analysis
import UnitAnalysis.Proofs.Rename.Bodies

/-!
# What a check leaves alone

A check appends to the findings and gives types to names that have none. It never takes a type away
or changes one, opens no scope, defines no name, and leaves everything else of the symbol table and
the traits as they are. This holds from every session and for every expression, block and unit,
whether or not the identities of their nodes are distinct.
-/

set_option autoImplicit false

namespace UnitAnalysis

/-! ## Names that receive types -/

/-- A symbol later on: it is the same, or it had no type and has received one. -/
def Symbol.Resolves (s s' : Symbol) : Prop :=
  s' = s ∨ s.declaredType = none ∧ ∃ t, s' = { s with declaredType := some t }

/-- A scope later on: the same names in the same order, and symbols that may have received types. -/
structure Scope.Resolves (s s' : Scope) : Prop where
  kind : s'.kind = s.kind
  enclosing : s'.enclosing = s.enclosing
  symbols : List.Forall₂ (fun e e' => e'.1 = e.1 ∧ Symbol.Resolves e.2 e'.2)
    s.symbols.entries s'.symbols.entries

/-- An arena later on: the same scopes in the same order, whose symbols may have received types. -/
def Arena.Resolves (a a' : Arena) : Prop :=
  List.Forall₂ Scope.Resolves a.scopes.toList a'.scopes.toList

section

variable {ι : Type} {R : ι → ι → Prop}

theorem forall₂_trans (h : ∀ {x y z}, R x y → R y z → R x z) {xs ys zs : List ι}
    (hxy : List.Forall₂ R xs ys) (hyz : List.Forall₂ R ys zs) : List.Forall₂ R xs zs := by
  induction hxy generalizing zs with
  | nil => exact hyz
  | cons hx _ ih =>
    cases hyz with
    | cons hy hrest => exact .cons (h hx hy) (ih hrest)

theorem forall₂_modify (hrefl : ∀ x, R x x) {change : ι → ι} (hchange : ∀ x, R x (change x))
    (xs : List ι) (i : Nat) : List.Forall₂ R xs (xs.modify i change) := by
  induction xs generalizing i with
  | nil => simp
  | cons x xs ih =>
    cases i with
    | zero => exact .cons (hchange x) (List.forall₂_same.2 fun y _ => hrefl y)
    | succ i => exact .cons (hrefl x) (ih i)

end

namespace Symbol.Resolves

variable {s s' s'' : Symbol}

theorem refl (s : Symbol) : s.Resolves s :=
  .inl rfl

theorem trans (h : s.Resolves s') (h' : s'.Resolves s'') : s.Resolves s'' := by
  rcases h with rfl | ⟨hnone, t, rfl⟩
  · exact h'
  · rcases h' with rfl | ⟨hsome, _⟩
    · exact .inr ⟨hnone, t, rfl⟩
    · cases hsome

theorem of_or (s : Symbol) (t : Ty) :
    s.Resolves { s with declaredType := s.declaredType.or (some t) } := by
  cases h : s.declaredType with
  | none => exact .inr ⟨h, t, rfl⟩
  | some old =>
    refine .inl ?_
    rw [Option.some_or, ← h]

end Symbol.Resolves

/-- The entries of a table after the value of one key has changed. -/
theorem Table.forall₂_modify {κ α : Type} [DecidableEq κ] {R : α → α → Prop} (hrefl : ∀ v, R v v)
    {change : α → α} (hchange : ∀ v, R v (change v)) (t : Table κ α) (k : κ) :
    List.Forall₂ (fun e e' => e'.1 = e.1 ∧ R e.2 e'.2) t.entries (t.modify k change).entries := by
  have hsame : ∀ entries : List (κ × α),
      List.Forall₂ (fun e e' => e'.1 = e.1 ∧ R e.2 e'.2) entries entries := by
    intro entries
    exact List.forall₂_same.2 fun e _ => ⟨rfl, hrefl e.2⟩
  obtain ⟨entries⟩ := t
  unfold modify
  split
  · next v hfound =>
      simp only [get?, insert] at hfound ⊢
      induction entries with
      | nil => cases hfound
      | cons e rest ih =>
        by_cases hk : e.1 = k
        · simp only [find, hk, if_true, Option.some.injEq] at hfound
          subst hfound
          simp only [put, hk, if_true]
          exact .cons ⟨hk.symm, hchange e.2⟩ (hsame rest)
        · simp only [find, hk, if_false] at hfound
          simp only [put, hk, if_false]
          exact .cons ⟨rfl, hrefl e.2⟩ (ih hfound)
  · exact hsame entries

namespace Scope.Resolves

variable {s s' s'' : Scope}

theorem refl (s : Scope) : s.Resolves s :=
  ⟨rfl, rfl, List.forall₂_same.2 fun e _ => ⟨rfl, .refl e.2⟩⟩

theorem trans (h : s.Resolves s') (h' : s'.Resolves s'') : s.Resolves s'' where
  kind := h'.kind.trans h.kind
  enclosing := h'.enclosing.trans h.enclosing
  symbols := forall₂_trans (fun he he' => ⟨he'.1.trans he.1, he.2.trans he'.2⟩) h.symbols h'.symbols

end Scope.Resolves

namespace Arena.Resolves

variable {a a' a'' : Arena}

theorem refl (a : Arena) : a.Resolves a :=
  List.forall₂_same.2 fun s _ => .refl s

theorem trans (h : a.Resolves a') (h' : a'.Resolves a'') : a.Resolves a'' :=
  forall₂_trans (R := Scope.Resolves) Scope.Resolves.trans h h'

theorem resolveType (a : Arena) (scope : ScopeId) (name : String) (t : Ty) :
    a.Resolves (a.resolveType scope name t) := by
  unfold Resolves Arena.resolveType modifySymbols
  rw [Array.toList_modify]
  apply forall₂_modify Scope.Resolves.refl
  intro s
  refine ⟨rfl, rfl, ?_⟩
  exact Table.forall₂_modify Symbol.Resolves.refl (fun s => .of_or s t) s.symbols name

end Arena.Resolves

/-! ## Steps of a check -/

/-- A check compared with itself, in which scopes change only by names that receive types. -/
def Check.keeping (ctx : Context) : Comparison ctx ctx :=
  { (Context.Renamed.self ctx).comparison Function.injective_id with
    KeptScopes := Arena.Resolves
    resolveType := fun {s s' a a'} hs ha _ name t => by
      rw [hs, ← ha]
      exact ⟨(s.rename_resolveType id a name t).symm, .resolveType s a name t⟩
    keptScopes_refl := .refl
    keptScopes_trans := .trans }

/-! ## The whole check -/

/-- What is known of a unit later on: more findings, and types for names that had none. -/
structure Analysis.Keeps (a a' : Analysis) : Prop where
  registry : a'.registry = a.registry
  decls : a'.table.decls = a.table.decls
  scopeMap : a'.table.scopeMap = a.table.scopeMap
  annotations : a'.table.annotations = a.table.annotations
  functions : a'.table.functions = a.table.functions
  intrinsics : a'.table.intrinsics = a.table.intrinsics
  findings : a.findings <+: a'.findings
  scopes : a.table.scopes.Resolves a'.table.scopes

theorem Prepared.keeps_of_mirrors {α : Type} (p : Prepared) {x y : Check α}
    (h : Check.Mirrors (Check.keeping p.context) Eq x y) :
    (p.analysis p.session).Keeps (p.analysis (x.run p.session).2) := by
  have hself : (Check.keeping p.context).Alike p.session p.session :=
    ⟨(Arena.rename_id _).symm, (Table.mapKeys_id _).symm, rfl⟩
  have hrun := h.run p.session p.session hself
  obtain ⟨all, hall, -⟩ := hrun.findings
  exact ⟨rfl, rfl, rfl, rfl, rfl, rfl, ⟨_, hall.symm⟩, hrun.kept.scopes⟩

/-- From any session, a check of a unit, of an expression or of a block leaves the traits, the
declared types, the scopes of nodes, the annotations, the signatures and the intrinsics as they are,
appends to the findings, and changes the scopes only by giving types to names that have none. -/
theorem check_keeps_symbol_table (p : Prepared) (u : SourceUnit) (scope : ScopeId) (e : Expr)
    (b : Block) :
    (p.analysis p.session).Keeps (p.analysis ((Check.unit p.context u).run p.session).2) ∧
    (p.analysis p.session).Keeps
      (p.analysis ((Check.inferExpr p.context scope e).run p.session).2) ∧
    (p.analysis p.session).Keeps
      (p.analysis ((Check.inferBlock p.context scope b).run p.session).2) := by
  have hcovers : ∀ sites, (Check.keeping p.context).Covers sites :=
    (Context.Renamed.self p.context).covers Function.injective_id
  exact ⟨p.keeps_of_mirrors (Check.unit_mirrors u trivial (fun _ _ => trivial) (hcovers _)),
    p.keeps_of_mirrors (Check.inferExpr_mirrors e rfl (hcovers _)),
    p.keeps_of_mirrors (Check.inferBlock_mirrors b rfl (hcovers (b.sites blindRules .block ())))⟩

end UnitAnalysis

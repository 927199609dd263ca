import Mathlib.Data.Set.Defs
import UnitAnalysis.Proofs.Check.Steps
import UnitAnalysis.Proofs.Diagnostic.Options
import UnitAnalysis.Proofs.Rename.Context
import UnitAnalysis.Proofs.Syntax.Identity

/-!
# Two checks of one body

The same body is checked twice, the second time perhaps with renamed nodes, under other options and
in a context that has its scopes under other numbers. A `Comparison` says what belongs together in
the two contexts, what the two sessions have in common on the way, and what the first check leaves
alone. `Check.Mirrors` says that two steps of a check cannot tell their sessions apart: they have
values that belong together, report one list of problems, each under its own options, and leave
sessions behind that still belong together.
-/

set_option autoImplicit false

namespace UnitAnalysis

/-- How two checks of one body are compared. -/
structure Comparison (ctx ctx' : Context) where
  /-- What the second check has for the nodes of the first one. -/
  rename : NodeId → NodeId
  /-- Which scopes are the same. -/
  scopes : ScopeId → ScopeId → Prop
  /-- The nodes whose types agree. -/
  ids : Set NodeId
  /-- The nodes whose annotations agree. -/
  annotated : Set NodeId
  /-- The constructs whose scopes are the same. -/
  constructs : Set Opening
  /-- The scopes whose names may receive types. -/
  own : Set ScopeId
  /-- What the scopes of the two sessions have in common. -/
  Arenas : Arena → Arena → Prop
  /-- What the types of nodes in the two sessions have in common. -/
  Tables : Table NodeId Ty → Table NodeId Ty → Prop
  /-- What the first check leaves alone in its scopes. -/
  KeptScopes : Arena → Arena → Prop
  /-- What the first check leaves alone in its types of nodes. -/
  KeptTypes : Table NodeId Ty → Table NodeId Ty → Prop
  contexts : ctx.Renames rename ctx'
  annotations : ∀ id ∈ annotated,
    ctx'.table.annotations.get? (rename id) = ctx.table.annotations.get? id
  global : scopes .global .global
  enter : ∀ {o a a'}, o ∈ constructs → scopes a a' →
    scopes (ctx.table.scopeFor o.id a) (ctx'.table.scopeFor (rename o.id) a')
  owned : ∀ {o}, o ∈ constructs → ∀ a, ctx.table.scopeFor o.id a ∈ own
  lookupWithScope : ∀ {s s' a a'}, Arenas s s' → scopes a a' → ∀ name,
    (s.lookupWithScope a name = none ∧ s'.lookupWithScope a' name = none) ∨
      ∃ owner owner' symbol, (owner = ScopeId.global ↔ owner' = .global) ∧
        s.lookupWithScope a name = some (owner, symbol) ∧
        s'.lookupWithScope a' name = some (owner', symbol.rename rename)
  get? : ∀ {t t'}, Tables t t' → ∀ id ∈ ids, t'.get? (rename id) = t.get? id
  resolveType : ∀ {s s' a a'}, Arenas s s' → scopes a a' → a ∈ own → ∀ name t,
    Arenas (s.resolveType a name t) (s'.resolveType a' name t) ∧
      KeptScopes s (s.resolveType a name t)
  insert : ∀ {t t'}, Tables t t' → ∀ id ∈ ids, ∀ ty,
    Tables (t.insert id ty) (t'.insert (rename id) ty) ∧ KeptTypes t (t.insert id ty)
  keptScopes_refl : ∀ s, KeptScopes s s
  keptScopes_trans : ∀ {s t u}, KeptScopes s t → KeptScopes t u → KeptScopes s u
  keptTypes_refl : ∀ t, KeptTypes t t
  keptTypes_trans : ∀ {s t u}, KeptTypes s t → KeptTypes t u → KeptTypes s u

namespace Comparison

variable {ctx ctx' : Context} (C : Comparison ctx ctx')

/-- Two sessions that a body cannot tell apart. -/
structure Alike (s s' : Session) : Prop where
  scopes : C.Arenas s.scopes s'.scopes
  types : C.Tables s.types s'.types
  around : s'.around = s.around

/-- What the first check leaves alone between two of its sessions. -/
structure Kept (s t : Session) : Prop where
  scopes : C.KeptScopes s.scopes t.scopes
  types : C.KeptTypes s.types t.types
  around : t.around = s.around

/-- Two steps from alike sessions ended alike. -/
structure Mirrored {α β : Type} (V : α → β → Prop) (s s' : Session) (r : α × Session)
    (r' : β × Session) : Prop where
  value : V r.1 r'.1
  alike : C.Alike r.2 r'.2
  kept : C.Kept s r.2
  findings : ∃ all : List Finding,
    r.2.findings = s.findings ++ all.filterMap (Finding.under ctx.options) ∧
      r'.2.findings = s'.findings ++ all.filterMap (Finding.under ctx'.options)

/-- All that is listed belongs to a comparison. -/
def Covers (sites : List (Site Unit)) : Prop :=
  ∀ site ∈ sites, match site with
    | .expr _ e => e.id ∈ C.ids
    | .block _ b => b.id ∈ C.ids
    | .pattern _ _ => True
    | .opening _ o => o ∈ C.constructs ∧ ∀ id ∈ o.ids, id ∈ C.annotated

variable {C} {sites more : List (Site Unit)} {site : Site Unit} {a a' : ScopeId}
  {s s' t u : Session}

namespace Covers

theorem tail (h : C.Covers (site :: sites)) : C.Covers sites :=
  fun site hsite => h site (List.mem_cons_of_mem _ hsite)

theorem left (h : C.Covers (sites ++ more)) : C.Covers sites :=
  fun site hsite => h site (List.mem_append_left _ hsite)

theorem right (h : C.Covers (sites ++ more)) : C.Covers more :=
  fun site hsite => h site (List.mem_append_right _ hsite)

theorem of_mem_flatMap {ι : Type} {xs : List ι} {f : ι → List (Site Unit)} {x : ι}
    (h : C.Covers (xs.flatMap f)) (hx : x ∈ xs) : C.Covers (f x) :=
  fun site hsite => h site (List.mem_flatMap.2 ⟨x, hx, hsite⟩)

theorem opening {o : Opening} (h : C.Covers (.opening () o :: sites)) : o ∈ C.constructs :=
  (h (.opening () o) List.mem_cons_self).1

theorem annotated {o : Opening} (h : C.Covers (.opening () o :: sites)) :
    ∀ id ∈ o.ids, id ∈ C.annotated :=
  (h (.opening () o) List.mem_cons_self).2

end Covers

theorem Kept.refl (s : Session) : C.Kept s s :=
  ⟨C.keptScopes_refl _, C.keptTypes_refl _, rfl⟩

theorem Kept.trans (h : C.Kept s t) (h' : C.Kept t u) : C.Kept s u :=
  ⟨C.keptScopes_trans h.scopes h'.scopes, C.keptTypes_trans h.types h'.types,
    h'.around.trans h.around⟩

theorem Alike.lookup (h : C.Alike s s') (ha : C.scopes a a') (name : String) :
    s'.scopes.lookup a' name = (s.scopes.lookup a name).map (Symbol.rename C.rename) := by
  unfold Arena.lookup
  rcases C.lookupWithScope h.scopes ha name with ⟨hnone, hnone'⟩ | ⟨_, _, _, -, hsome, hsome'⟩
  · rw [hnone, hnone']
    rfl
  · rw [hsome, hsome']
    rfl

end Comparison

/-! ## Steps that mirror each other -/

namespace Check

variable {ctx ctx' : Context} {C : Comparison ctx ctx'} {α β γ δ : Type} {a a' : ScopeId}

/-- Two steps of a check end alike, whatever alike sessions they start from. -/
structure Mirrors (C : Comparison ctx ctx') (V : α → β → Prop) (x : Check α) (y : Check β) :
    Prop where
  run : ∀ s s', C.Alike s s' → C.Mirrored V s s' (x.run s) (y.run s')

namespace Mirrors

variable {V : α → β → Prop} {W : γ → δ → Prop}

theorem pure {v : α} {v' : β} (h : V v v') : Mirrors C V (Pure.pure v) (Pure.pure v') :=
  ⟨fun s _ hs => ⟨h, hs, .refl s, [], (List.append_nil _).symm, (List.append_nil _).symm⟩⟩

/-- One step after another. -/
theorem then_related {x : Check α} {y : Check β} {f : α → Check γ} {g : β → Check δ}
    (hx : Mirrors C V x y) (hf : ∀ v v', V v v' → Mirrors C W (f v) (g v')) :
    Mirrors C W (x >>= f) (y >>= g) := by
  refine ⟨fun s s' hs => ?_⟩
  have hfirst := hx.run s s' hs
  have hsecond := (hf _ _ hfirst.value).run _ _ hfirst.alike
  obtain ⟨found, hfound, hfound'⟩ := hfirst.findings
  obtain ⟨more, hmore, hmore'⟩ := hsecond.findings
  refine ⟨hsecond.value, hsecond.alike, hfirst.kept.trans hsecond.kept, found ++ more, ?_, ?_⟩
  · rw [List.filterMap_append, ← List.append_assoc, ← hfound]
    exact hmore
  · rw [List.filterMap_append, ← List.append_assoc, ← hfound']
    exact hmore'

theorem bind {x y : Check α} {f : α → Check γ} {g : α → Check δ} (hx : Mirrors C Eq x y)
    (hf : ∀ v, Mirrors C W (f v) (g v)) : Mirrors C W (x >>= f) (y >>= g) :=
  hx.then_related fun v _ hv => hv ▸ hf v

theorem get_bind {f : Session → Check α} {g : Session → Check β}
    (h : ∀ s s', C.Alike s s' → Mirrors C V (f s) (g s')) :
    Mirrors C V (get >>= f) (get >>= g) :=
  ⟨fun s s' hs => (h s s' hs).run s s' hs⟩

/-- Two steps that go on with what a name stands for. -/
theorem search_bind {f : Option (ScopeId × Symbol) → Check α}
    {g : Option (ScopeId × Symbol) → Check β} {name : String}
    (h : ∀ s s', C.Alike s s' → Mirrors C V (f (s.scopes.lookupWithScope a name))
      (g (s'.scopes.lookupWithScope a' name))) :
    Mirrors C V (direct.search a name >>= f) (direct.search a' name >>= g) :=
  ⟨fun s s' hs => (h s s' hs).run s s' hs⟩

/-- Two steps inside a function or lambda, after which both checks are where they were. -/
theorem inside {enter : Surroundings → Surroundings} {x : Check α} {y : Check β}
    (hx : Mirrors C V x y) (hframes : ∀ w, (enter w).frames.tail = w.frames) :
    Mirrors C V (Check.inside direct enter x) (Check.inside direct enter y) := by
  refine ⟨fun s s' hs => ?_⟩
  have hrun := hx.run { s with around := enter s.around } { s' with around := enter s'.around }
    ⟨hs.scopes, hs.types, congrArg enter hs.around⟩
  refine ⟨hrun.value, ⟨hrun.alike.scopes, hrun.alike.types, ?_⟩,
    ⟨hrun.kept.scopes, hrun.kept.types, ?_⟩, hrun.findings⟩
  · change (y.run { s' with around := enter s'.around }).2.around.leave s'.around.asyncDepth =
      (x.run { s with around := enter s.around }).2.around.leave s.around.asyncDepth
    rw [hrun.alike.around, hs.around]
  · change (x.run { s with around := enter s.around }).2.around.leave s.around.asyncDepth = s.around
    rw [hrun.kept.around]
    unfold Surroundings.leave
    rw [hframes]

/-- Steps for the members of a list, whose nodes are renamed. -/
theorem forM {ι : Type} {f g : ι → Check Unit} {rename : ι → ι} {xs : List ι}
    (h : ∀ x ∈ xs, Mirrors C Eq (f x) (g (rename x))) :
    Mirrors C Eq (xs.forM f) ((xs.map rename).forM g) := by
  induction xs with
  | nil => exact pure rfl
  | cons x xs ih =>
    exact (h x List.mem_cons_self).bind fun _ => ih fun y hy => h y (List.mem_cons_of_mem _ hy)

theorem report (all : List Finding) :
    Mirrors C Eq (report (all.filterMap (Finding.under ctx.options)))
      (report (all.filterMap (Finding.under ctx'.options))) :=
  ⟨fun s _ hs => ⟨rfl, ⟨hs.scopes, hs.types, hs.around⟩,
    ⟨C.keptScopes_refl s.scopes, C.keptTypes_refl s.types, rfl⟩, all, rfl, rfl⟩⟩

/-- Problems that options have no say in. -/
theorem report_of_codes {codes : List Code} {found : List Finding} (h : Reports codes found)
    (hcodes : ∀ c ∈ codes, c ∉ Options.codes := by decide) :
    Mirrors C Eq (Check.report found) (Check.report found) := by
  have hstep : Mirrors C Eq _ _ := .report found
  rwa [h.filterMap_under hcodes, h.filterMap_under hcodes] at hstep

theorem judge_of_codes {codes : List Code} {j j' : Judged α} (h : Reports codes j.2) (hj : j' = j)
    (hcodes : ∀ c ∈ codes, c ∉ Options.codes := by decide) :
    Mirrors C Eq (judge j) (judge j') := by
  subst hj
  exact (report_of_codes h hcodes).bind fun _ => pure rfl

/-- The two checks may come by nodes in scopes of different numbers. -/
theorem visits (f f' : Array Visit → Array Visit) :
    Mirrors C Eq (modify fun s => { s with visits := f s.visits })
      (modify fun s => { s with visits := f' s.visits }) :=
  ⟨fun s _ hs => ⟨rfl, ⟨hs.scopes, hs.types, hs.around⟩,
    ⟨C.keptScopes_refl s.scopes, C.keptTypes_refl s.types, rfl⟩, [], (List.append_nil _).symm,
    (List.append_nil _).symm⟩⟩

theorem record {id : NodeId} (hid : id ∈ C.ids) (t : Ty) :
    Mirrors C Eq (record id t) (record (C.rename id) t) := by
  refine ⟨fun s _ hs => ?_⟩
  obtain ⟨htypes, hkept⟩ := C.insert hs.types id hid t
  exact ⟨rfl, ⟨hs.scopes, htypes, hs.around⟩, ⟨C.keptScopes_refl s.scopes, hkept, rfl⟩, [],
    (List.append_nil _).symm, (List.append_nil _).symm⟩

/-- A node is looked into by both checks or by none. -/
theorem memo {id : NodeId} {kind : VisitKind} {infer infer' : Check Ty} (hid : id ∈ C.ids)
    (h : Mirrors C Eq infer infer') :
    Mirrors C Eq (memo direct ⟨kind, id, a⟩ infer) (memo direct ⟨kind, C.rename id, a'⟩ infer') := by
  unfold Check.memo
  refine (visits (·.push _) (·.push _)).bind fun _ => .get_bind fun s s' hs => ?_
  simp only [C.get? hs.types id hid]
  cases s.types.get? id with
  | some t => exact .pure rfl
  | none => exact h.bind fun t => (record hid t).bind fun _ => .pure rfl

theorem resolveName (ha : C.scopes a a') (hown : a ∈ C.own) (name : String) (t : Ty) :
    Mirrors C Eq (resolveName a name t) (resolveName a' name t) := by
  refine ⟨fun s _ hs => ?_⟩
  obtain ⟨hscopes, hkept⟩ := C.resolveType hs.scopes ha hown name t
  exact ⟨rfl, ⟨hscopes, hs.types, hs.around⟩, ⟨hkept, C.keptTypes_refl s.types, rfl⟩, [],
    (List.append_nil _).symm, (List.append_nil _).symm⟩

theorem resolveNames (ha : C.scopes a a') (hown : a ∈ C.own) (typings : List (String × Ty)) :
    Mirrors C Eq (resolveNames a typings) (resolveNames a' typings) := by
  induction typings with
  | nil => exact .pure rfl
  | cons p rest ih => exact (resolveName ha hown p.1 p.2).bind fun _ => ih

theorem bindPattern (ha : C.scopes a a') (hown : a ∈ C.own) (pattern : Pattern) (t : Ty) :
    Mirrors C Eq (bindPattern ctx a pattern t)
      (bindPattern ctx' a' (pattern.rename C.rename) t) := by
  unfold Check.bindPattern
  rw [C.contexts.decls.typings]
  exact (visits (· ++ pattern.visits a) (· ++ Pattern.visits a' _)).bind fun _ =>
    resolveNames ha hown _

theorem bindLet (ha : C.scopes a a') (hown : a ∈ C.own) {node : Node}
    (hnode : node.id ∈ C.annotated) (pattern : Pattern) (value : Ty) (span : Span) :
    Mirrors C Eq (bindLet ctx a node pattern value span)
      (bindLet ctx' a' (node.rename C.rename) (pattern.rename C.rename) value span) := by
  unfold Check.bindLet
  have hnote : ctx'.table.annotations.get? (node.rename C.rename).id = _ :=
    C.annotations _ hnode
  rw [hnote]
  exact (judge_of_codes (reports_boundType _ value span) rfl).bind fun t =>
    bindPattern ha hown pattern t

theorem requireAsync (form : AsyncForm) (span : Span) :
    Mirrors C Eq (requireAsync form span) (requireAsync form span) := by
  refine .get_bind fun s s' hs => ?_
  rw [hs.around]
  exact .report_of_codes (reports_asyncFindings s.around form span)

theorem checkReturn (found : Ty) (span : Span) :
    Mirrors C Eq (checkReturn ctx.options found span) (checkReturn ctx'.options found span) := by
  refine .get_bind fun s s' hs => ?_
  rw [hs.around, returnFindings_under ctx.options, returnFindings_under ctx'.options]
  exact .report _

theorem name (ha : C.scopes a a') (name : String) (span : Span) :
    Mirrors C Eq (do judge (nameType (← direct.search a name) name span))
      (do judge (nameType (← direct.search a' name) name span)) := by
  refine .search_bind fun s s' hs => .judge_of_codes (reports_nameType _ name span) ?_
  rcases C.lookupWithScope hs.scopes ha name with
    ⟨hnone, hnone'⟩ | ⟨owner, owner', symbol, howner, h, h'⟩
  · rw [hnone, hnone']
  · rw [h, h']
    rfl

/-- A called name is looked up by both checks, and found by both or by none. -/
theorem callee (ha : C.scopes a a') {node : Node} (hid : node.id ∈ C.ids) (name : String)
    (args : List Argument) (span : Span)
    (hname : Mirrors C Eq (inferExpr ctx a (.ident node name))
      (inferExpr ctx' a' (.ident (node.rename C.rename) name))) :
    Mirrors C Eq
      (do
        match ← direct.search a name with
        | some (owner, symbol) =>
          Check.record node.id symbol.ty
          judge (callSymbol ctx owner symbol args span)
        | none =>
          let _ ← inferExpr ctx a (.ident node name)
          return .any)
      (do
        match ← direct.search a' name with
        | some (owner, symbol) =>
          Check.record (node.rename C.rename).id symbol.ty
          judge (callSymbol ctx' owner symbol args span)
        | none =>
          let _ ← inferExpr ctx' a' (.ident (node.rename C.rename) name)
          return .any) := by
  refine .search_bind fun s s' hs => ?_
  rcases C.lookupWithScope hs.scopes ha name with
    ⟨hnone, hnone'⟩ | ⟨owner, owner', symbol, howner, h, h'⟩
  · simp only [hnone, hnone']
    exact hname.bind fun _ => .pure rfl
  · simp only [h, h']
    exact (record hid symbol.ty).bind fun _ => .judge_of_codes (reports_callSymbol ..)
      (C.contexts.callSymbol howner symbol args span)

end Mirrors

end Check

end UnitAnalysis

import UnitAnalysis.Proofs.Order.Rounds
import UnitAnalysis.Proofs.Order.Scopes

/-!
# The rounds of a check in another order

Within one context the bodies of two declarations see the global scope and scopes of their own, and
write only to the latter. So they can be checked in any order: each finds the session as it would
have found it without the other (`Link.swap`). The statements of the script write to the
global scope and come in their own order before all bodies. `Check.unit_same` puts the two rounds
together.
-/

set_option autoImplicit false

namespace UnitAnalysis

/-! ## Links that are apart -/

/-- A session has the scopes of a context. -/
def Session.Framed (ctx : Context) (s : Session) : Prop :=
  ∀ a, s.scopes.enclosing a = ctx.table.scopes.enclosing a

namespace Link

variable {ctx : Context} {L M : Link ctx ctx} {s t : Session}

/-- A link of a context with itself that exchanges no scopes, and sees the scopes that it writes to.
-/
structure Inner (L : Link ctx ctx) : Prop where
  eq : ∀ {a a'}, L.scopes a a' → a = a'
  refl : ∀ {a}, a ∈ L.own → L.scopes a a

/-- Neither link writes what the other one sees. -/
structure Apart (L M : Link ctx ctx) : Prop where
  scopes : ∀ {a a'}, L.scopes a a' → a ∉ M.own
  scopes' : ∀ {a a'}, M.scopes a a' → a ∉ L.own
  ids : ∀ id ∈ L.ids, id ∉ M.ids

theorem Apart.symm (h : L.Apart M) : M.Apart L :=
  ⟨h.scopes', h.scopes, fun id hid hid' => h.ids id hid' hid⟩

theorem Inner.alike (hL : L.Inner) (h : s.Framed ctx) : L.comparison.Alike s s := by
  refine ⟨⟨fun ha name => ?_, h, h⟩, fun _ _ => rfl, rfl⟩
  rw [hL.eq ha]

/-- A step of another link changes nothing that a link sees. -/
theorem Inner.alike_of_kept (hL : L.Inner) (hapart : L.Apart M) (hk : M.comparison.Kept s t)
    (hs : s.Framed ctx) (ht : t.Framed ctx) : L.comparison.Alike s t := by
  refine ⟨⟨fun ha name => ?_, hs, ht⟩, fun id hid => ?_, hk.around⟩
  · rw [← hL.eq ha, hk.scopes _ (hapart.scopes ha)]
  · rw [hk.types id (hapart.ids id hid)]

end Link

/-! ## Steps that change places -/

/-- Two sessions of one context that differ in the order of what was found wrong. -/
structure Session.Same (ctx : Context) (s t : Session) : Prop where
  symbols : ∀ a name, s.scopes.lookupLocal a name = t.scopes.lookupLocal a name
  types : ∀ id, s.types.get? id = t.types.get? id
  around : s.around = t.around
  findings : s.findings.Perm t.findings
  framed : s.Framed ctx
  framed' : t.Framed ctx

namespace Session.Same

variable {ctx : Context} {s t r : Session}

theorem refl (h : s.Framed ctx) : Same ctx s s :=
  ⟨fun _ _ => rfl, fun _ => rfl, rfl, .refl _, h, h⟩

theorem symm (h : Same ctx s t) : Same ctx t s :=
  ⟨fun a name => (h.symbols a name).symm, fun id => (h.types id).symm, h.around.symm,
    h.findings.symm, h.framed', h.framed⟩

theorem trans (h : Same ctx s t) (h' : Same ctx t r) : Same ctx s r :=
  ⟨fun a name => (h.symbols a name).trans (h'.symbols a name),
    fun id => (h.types id).trans (h'.types id), h.around.trans h'.around,
    h.findings.trans h'.findings, h.framed, h'.framed'⟩

theorem alike (h : Same ctx s t) : (Link.refl ctx).comparison.Alike s t := by
  refine ⟨⟨fun ha name => ?_, h.framed, h.framed'⟩, fun id _ => h.types id, h.around.symm⟩
  obtain rfl := ha
  exact h.symbols _ name

end Session.Same

namespace Link

variable {ctx : Context} {s t : Session}

/-- A step leads from sessions that are the same to sessions that are the same. -/
theorem same {x : Check Unit} (hx : (refl ctx).Mirrors x x)
    (h : Session.Same ctx s t) : Session.Same ctx (x.run s).2 (x.run t).2 := by
  have hrun := hx.run s t h.alike
  obtain ⟨found, hfound, hfound'⟩ := Link.found hrun
  refine ⟨fun a name => hrun.alike.scopes.symbols rfl name, fun id => hrun.alike.types id trivial,
    hrun.alike.around.symm, ?_, hrun.alike.scopes.enclosing, hrun.alike.scopes.enclosing'⟩
  rw [hfound, hfound']
  exact h.findings.append_right found

/-- Steps of links that are apart can change places. -/
theorem swap {L M : Link ctx ctx} {x y : Check Unit} (hx : L.Mirrors x x)
    (hy : M.Mirrors y y) (hL : L.Inner) (hM : M.Inner) (hapart : L.Apart M)
    (hs : s.Framed ctx) :
    Session.Same ctx (y.run (x.run s).2).2 (x.run (y.run s).2).2 := by
  have hfirst := hx.run s s (hL.alike hs)
  have hfirst' := hy.run s s (hM.alike hs)
  -- Each step does after the other one what it does at once.
  have hlater := hx.run s (y.run s).2
    (hL.alike_of_kept hapart hfirst'.kept hs hfirst'.alike.scopes.enclosing)
  have hlater' := hy.run s (x.run s).2
    (hM.alike_of_kept hapart.symm hfirst.kept hs hfirst.alike.scopes.enclosing)
  have hkept := (hx.run (y.run s).2 (y.run s).2 (hL.alike hfirst'.alike.scopes.enclosing)).kept
  have hkept' := (hy.run (x.run s).2 (x.run s).2 (hM.alike hfirst.alike.scopes.enclosing)).kept
  obtain ⟨found, hfound, hfoundLater⟩ := Link.found hlater
  obtain ⟨more, hmore, hmoreLater⟩ := Link.found hlater'
  refine ⟨fun a name => ?_, fun id => ?_, ?_, ?_, hlater'.alike.scopes.enclosing',
    hlater.alike.scopes.enclosing'⟩
  · by_cases ha : a ∈ L.own
    · rw [hkept'.scopes a (hapart.scopes (hL.refl ha))]
      exact hlater.alike.scopes.symbols (hL.refl ha) name
    · rw [hkept.scopes a ha]
      by_cases ha' : a ∈ M.own
      · exact (hlater'.alike.scopes.symbols (hM.refl ha') name).symm
      · rw [hkept'.scopes a ha', hfirst.kept.scopes a ha, hfirst'.kept.scopes a ha']
  · by_cases hid : id ∈ L.ids
    · rw [hkept'.types id (hapart.ids id hid)]
      exact hlater.alike.types id hid
    · rw [hkept.types id hid]
      by_cases hid' : id ∈ M.ids
      · exact (hlater'.alike.types id hid').symm
      · rw [hkept'.types id hid', hfirst.kept.types id hid, hfirst'.kept.types id hid']
  · rw [hkept'.around, hkept.around, hfirst.kept.around, hfirst'.kept.around]
  · rw [hfoundLater, hmoreLater, hfound, hmore, List.append_assoc, List.append_assoc]
    exact List.perm_append_comm.append_left _

end Link

/-! ## Declarations that are apart -/

namespace SymbolTable.Hosts

variable {ctx : Context} {ds : List Decl} {d d' : Decl}

theorem single (h : ctx.table.Hosts (nestings ds)) (hd : d ∈ ds) :
    ctx.table.Hosts (nestings [d]) :=
  h.mono (nestings_subset (List.cons_subset.2 ⟨hd, List.nil_subset _⟩))

/-- The link of one declaration with itself, which writes to scopes of the declaration only. -/
def own (h : ctx.table.Hosts (nestings [d])) : Link ctx ctx :=
  { h.link h (.refl ctx) (fun id => id ∈ d.ids) (fun _ => True) (Link.refl ctx).annotations with
    own := fun a => ∃ p ∈ nestings [d], ctx.table.scopeMap.get? p.2 = some a
    owned := fun ⟨owner, hp⟩ a => by
      obtain ⟨scope, -, hscope, -⟩ := h.opened hp
      refine ⟨_, hp, ?_⟩
      rw [scopeFor, hscope]
      rfl }

theorem covers_own (h : ctx.table.Hosts (nestings [d])) :
    h.own.comparison.Covers (d.sites blindRules ()) := by
  have hcovers := h.covers_link h (.refl ctx) (fun id => id ∈ d.ids) (fun _ => True)
    (fun _ _ => rfl) (fun _ hid => by rwa [List.flatMap_singleton] at hid) (fun _ _ => trivial)
  rwa [List.flatMap_singleton] at hcovers

theorem inner_own (h : ctx.table.Hosts (nestings [d])) : h.own.Inner where
  eq ha := by
    cases ha with
    | global => rfl
    | opened _ ha ha' => exact Option.some.inj (ha.symm.trans ha')
  refl := fun ⟨_, hp, ha⟩ => .opened hp ha ha

/-- The body of a declaration does not see the scopes of another one. -/
theorem not_mem_own (h : ctx.table.Hosts (nestings ds)) (hd : d ∈ ds) (hd' : d' ∈ ds)
    (hids : d.ids.Disjoint d'.ids) {a a' : ScopeId} (ha : (h.single hd).own.scopes a a') :
    a ∉ (h.single hd').own.own := by
  rintro ⟨q, hq, haq⟩
  cases ha with
  | global => exact (h.single hd').ne_global hq haq rfl
  | @opened p _ _ hp ha _ =>
    have heq : p.2 = q.2 := h.injective (nestings_subset (by simpa using hd) hp)
      (nestings_subset (by simpa using hd') hq) ha haq
    have hmem := mem_ids_of_nesting hp
    have hmem' := mem_ids_of_nesting hq
    rw [List.flatMap_singleton] at hmem hmem'
    exact hids hmem (heq ▸ hmem')

theorem apart_own (h : ctx.table.Hosts (nestings ds)) (hd : d ∈ ds) (hd' : d' ∈ ds)
    (hids : d.ids.Disjoint d'.ids) : (h.single hd).own.Apart (h.single hd').own where
  scopes := h.not_mem_own hd hd' hids
  scopes' := h.not_mem_own hd' hd fun _ hid hid' => hids hid' hid
  ids := fun _ hid hid' => hids hid hid'

end SymbolTable.Hosts

namespace Check

variable {ctx : Context} {u u' : SourceUnit} {s t : Session}

/-- The statements of the script are checked in their own order. -/
theorem forM_declScript_run (ctx : Context) (decls : List Decl) (s : Session) :
    ((decls.forM (declScript ctx)).run s).2 =
      (decls.filter Decl.isScript).foldl (fun s d => ((declScript ctx d).run s).2) s := by
  rw [forM_run, List.foldl_filter]
  congr
  funext s d
  cases d <;> rfl

/-- A check of rearranged declarations comes to the same, when the script keeps its order. -/
theorem unit_same (h : ctx.table.Hosts (nestings u.decls))
    (hscript : u.decls.filter Decl.isScript = u'.decls.filter Decl.isScript)
    (hrearranged : Rearranged (fun d d' => d ∈ u.decls ∧ d' ∈ u.decls ∧ d.Apart d') u.decls u'.decls)
    (hs : s.Framed ctx) :
    Session.Same ctx ((unit ctx u).run s).2 ((unit ctx u').run s).2 := by
  have hfirst : Session.Same ctx ((u.decls.forM (declScript ctx)).run s).2
      ((u'.decls.forM (declScript ctx)).run s).2 := by
    have hsame := Link.same (Link.declScripts_mirrors u.decls (fun _ _ => trivial)
      (Link.covers_refl _) trivial) (.refl hs)
    rwa [forM_declScript_run ctx u'.decls, ← hscript, ← forM_declScript_run]
  change Session.Same ctx ((u.decls.forM (declBodies ctx)).run _).2
    ((u'.decls.forM (declBodies ctx)).run _).2
  rw [forM_run, forM_run]
  refine Rearranged.foldl .symm .trans (fun d => ?_) ?_ hrearranged hfirst
  · exact Link.same (Link.declBodies_mirrors d (fun _ _ => trivial) (Link.covers_refl _))
  · rintro d d' ⟨hd, hd', hapart⟩ s hs
    have hown := Link.declBodies_mirrors (L := (h.single hd).own) d (fun _ _ => trivial)
      (h.single hd).covers_own
    have hown' := Link.declBodies_mirrors (L := (h.single hd').own) d' (fun _ _ => trivial)
      (h.single hd').covers_own
    exact Link.swap hown hown' (h.single hd).inner_own (h.single hd').inner_own
      (h.apart_own hd hd' hapart.ids) hs.framed

end Check

end UnitAnalysis

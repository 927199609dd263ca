import UnitAnalysis.Proofs.Order.Rounds

/-!
# Declarations with names of their own

A construction reports every name that it is asked to define again, but for the name of a second
trait, which it leaves to the registry. So when nothing of the kind is reported, no two declarations
have a name in common: `SourceUnit.pairwise_disjoint_ownNames`.
-/

set_option autoImplicit false

namespace UnitAnalysis

open Build

namespace Builder

/-- No name was defined a second time. -/
def Clean (b : Builder) : Prop :=
  ∀ f ∈ b.findings, f.problem.code ≠ .duplicateDefinition

/-- A construction went on from one state to another. -/
structure Grows (b c : Builder) : Prop where
  findings : b.findings <+: c.findings
  traits : b.traits <+: c.traits
  rooted : c.Rooted

theorem Grows.trans {b c d : Builder} (h : Grows b c) (h' : Grows c d) : Grows b d :=
  ⟨h.findings.trans h'.findings, h.traits.trans h'.traits, h'.rooted⟩

theorem Grows.clean {b c : Builder} (h : Grows b c) (hc : c.Clean) : b.Clean :=
  fun f hf => hc f (h.findings.subset hf)

theorem Moves.grows {W : Set Key} {b b' c c' : Builder} (h : Moves W b b' c c')
    (hc : c.Rooted) : Grows b c := by
  obtain ⟨found, traits, impls, hlogs, -⟩ := h.logs
  exact ⟨⟨found, hlogs.findings.symm⟩, ⟨traits, hlogs.traits.symm⟩, hc⟩

end Builder

namespace Build

open Builder

variable {W R : Set Key} {α : Type} {b : Builder}

theorem Fills.grows {x : Build α} (h : FillsGlobal W R x) (hb : b.Rooted) :
    Grows b (x.run b).2 := by
  have hrun := h.run b b hb.receives hb.receives (.refl W b) (.refl R b)
  exact hrun.moves.grows (hb.of_sameScopes hrun.scopes)

theorem Acts.grows {x : Build Unit} (h : Acts W R x) (hb : b.Rooted) : Grows b (x.run b).2 := by
  have hrun := h.run b b hb hb (.refl W b) (.refl R b)
  exact hrun.moves.grows hrun.rooted

theorem grows_forM {W : Decl → Set Key} {step : Decl → Build Unit}
    (hacts : ∀ d, Acts (W d) R (step d)) (decls : List Decl) (hb : b.Rooted) :
    Grows b ((decls.forM step).run b).2 := by
  rw [forM_run]
  induction decls generalizing b with
  | nil => exact ⟨List.prefix_refl _, List.prefix_refl _, hb⟩
  | cons d decls ih =>
    have hstep := (hacts d).grows hb
    exact hstep.trans (ih hstep.rooted)

/-! ## Names that a step finds free -/

/-- A step leaves what is global where it is and, when no name is defined a second time, finds the
given names free. -/
structure Takes (names : List String) (x : Build α) : Prop where
  grows : ∀ {b : Builder}, b.Rooted → Grows b (x.run b).2
  binds : ∀ {b : Builder}, b.Rooted → ∀ {name}, b.table.scopes.Binds .global name →
    (x.run b).2.table.scopes.Binds .global name
  fresh : ∀ {b : Builder}, b.Rooted → (x.run b).2.Clean →
    ∀ name ∈ names, ¬ b.table.scopes.Binds .global name

/-- What a step declares is global after it, and so is what was global before. -/
theorem Declares.binds {x : Build α} {names : List String} (h : x.Declares names) (hb : b.Rooted)
    {name : String} (hname : b.table.scopes.Binds .global name ∨ name ∈ names) :
    (x.run b).2.table.scopes.Binds .global name := by
  rw [(h.run b hb.pos).scopes.binds]
  exact hname.imp_right fun hmem => ⟨rfl, hb.pos, hmem⟩

namespace Takes

variable {β : Type} {names names' : List String}

theorem of_declares {x : Build α} (hdeclares : x.Declares names)
    (h : FillsGlobal Set.univ Set.univ x) : Takes [] x where
  grows := h.grows
  binds hb _ hname := hdeclares.binds hb (.inl hname)
  fresh _ _ _ hname := absurd hname List.not_mem_nil

theorem bind {x : Build α} {f : α → Build β} (hx : Takes names x) (hf : ∀ a, Takes names' (f a)) :
    Takes (names ++ names') (x >>= f) where
  grows hb := (hx.grows hb).trans ((hf _).grows (hx.grows hb).rooted)
  binds hb _ hname := (hf _).binds (hx.grows hb).rooted (hx.binds hb hname)
  fresh := by
    intro b hb hclean name hname hbinds
    have hrest := (hf (x.run b).1).grows (hx.grows hb).rooted
    rcases List.mem_append.1 hname with hfirst | hsecond
    · exact hx.fresh hb (hrest.clean hclean) name hfirst hbinds
    · exact (hf _).fresh (hx.grows hb).rooted hclean name hsecond (hx.binds hb hbinds)

theorem get_bind {f : Builder → Build α} (hf : ∀ b, Takes names (f b)) :
    Takes names (get >>= f) where
  grows hb := (hf _).grows hb
  binds hb _ hname := (hf _).binds hb hname
  fresh hb := (hf _).fresh hb

theorem mono {x : Build α} (names : List String) (h : Takes names x) (hsub : names' ⊆ names) :
    Takes names' x where
  grows := h.grows
  binds := h.binds
  fresh hb hclean name hname := h.fresh hb hclean name (hsub hname)

theorem pure (a : α) : Takes [] (Pure.pure a) :=
  .of_declares (.pure a) (.pure a)

theorem of_resolves {x : Build α} (h : Resolves (fun _ => True) (fun _ => True) x) : Takes [] x :=
  .of_declares (.of_resolves h)
    (.of_resolves (W := Set.univ) (R := Set.univ) (fun _ => trivial) h)

theorem report (found : List Finding) (hplacement : placement found = []) :
    Takes [] (report found) :=
  .of_declares (.of_defines fun _ => defines_report hplacement) (fills_report found)

theorem modifyTable {f : SymbolTable → SymbolTable} (hscopes : ∀ t, (f t).scopes = t.scopes)
    (h : FillsGlobal Set.univ Set.univ (modifyTable f)) :
    Takes [] (modifyTable f) where
  grows := h.grows
  binds _ _ hname := by
    change Arena.Binds (f _).scopes _ _
    rwa [hscopes]
  fresh _ _ _ hname := absurd hname List.not_mem_nil

/-- A definition that reports nothing found its name free. -/
theorem define {symbol : Symbol} {name : String} (hsymbol : symbol.name = name) (site : Span) :
    Takes [name] (define .global symbol site) where
  grows := (fills_define (W := Set.univ) (R := Set.univ) trivial site).grows
  binds hb _ hname := (Declares.of_defines fun _ => defines_define ..).binds hb (.inl hname)
  fresh := by
    intro b hb hclean name hname hbinds
    rw [List.mem_singleton.1 hname, ← hsymbol] at hbinds
    obtain ⟨first, hfirst⟩ := Option.isSome_iff_exists.1 hbinds
    rw [define_run_of_some hfirst] at hclean
    exact hclean _ (List.mem_append_right _ (List.mem_singleton_self _)) rfl

end Takes

theorem takes_declareVariants (d : DataDecl) (g : Generics) (self : Ty) (seen : List String)
    (variants : List VariantDecl) :
    Takes ((variants.map fun v => v.name).filter (· ∉ seen))
      (declareVariants d g self seen variants) := by
  induction variants generalizing seen with
  | nil => exact .pure _
  | cons v vs ih =>
    unfold declareVariants
    split
    · next hseen =>
        refine Takes.mono _ ((Takes.report _ rfl).bind fun _ => ih seen) ?_
        simp [hseen]
    · have hfields : Takes [] (resolveFields v.name true g [] v.fields) :=
        .of_resolves (resolves_resolveFields fun _ _ => trivial)
      have hshadowed : Takes [] (isShadowed d.node.id) :=
        .of_declares (isShadowed_declares _) (fills_isShadowed (W := Set.univ) trivial)
      have hvariant : ∀ entry : Variant, Takes []
          (modifyTable fun table => { table with decls := table.decls.addVariant entry }) :=
        fun entry => .modifyTable (fun _ => rfl) (fills_addVariant (W := Set.univ) trivial trivial)
      refine Takes.mono ([] ++ ([v.name] ++ ([] ++
        (vs.map fun v => v.name).filter (· ∉ v.name :: seen)))) ?_ ?_
      · refine hfields.bind fun fields => .bind (.define (by rfl) _) fun isDefined =>
          hshadowed.bind fun isShadowed => ?_
        split
        · exact (hvariant _).bind fun _ => ih (v.name :: seen)
        · exact ih (v.name :: seen)
      · intro name hname
        simp only [List.map_cons, List.mem_filter, List.mem_cons, List.nil_append,
          List.mem_append, decide_eq_true_eq, List.not_mem_nil, or_false] at hname ⊢
        tauto

/-- The second round finds the names of functions and variants free. -/
theorem takes_declareMembers (d : Decl) : Takes d.memberNames (declareMembers d) := by
  have hquiet : d.memberNames = [] → Takes d.memberNames (declareMembers d) := by
    intro hnone
    rw [hnone]
    exact .of_declares (declareMembers_declares d) (declareMembers_fills (W := Set.univ)
      (R := Set.univ) (fun _ => trivial) (fun _ _ => trivial) fun _ _ => ⟨trivial, trivial⟩)
  cases d with
  | function f =>
    have hsignature : Takes [] (functionSignature {} f) :=
      .of_resolves (resolves_functionSignature trivial)
    exact hsignature.bind fun s => .bind (.define (by rfl) _) fun _ => .pure _
  | data d =>
    refine .get_bind fun b => (takes_declareVariants d _ _ [] d.variants).mono _ ?_
    simp [Decl.memberNames]
  | _ => exact hquiet rfl

end Build

/-! ## All declarations -/

/-- The name of a trait or interface. -/
def Decl.traitNames : Decl → List String
  | trait t => [t.name]
  | interface t => [t.name]
  | _ => []

/-- The names of the traits that are listed so far. -/
def Builder.traitNames (b : Builder) : List String :=
  b.traits.map Trait.name

/-- Steps that find their names free, and leave them taken, have different names. -/
theorem pairwise_disjoint_of_fresh {σ : Type} {step : σ → Decl → σ} {names : Decl → List String}
    (Taken : σ → String → Prop) (Valid Fine : σ → Prop)
    (hvalid : ∀ {s} d, Valid s → Valid (step s d))
    (hfine : ∀ {s d}, Valid s → Fine (step s d) → Fine s)
    (htaken : ∀ {s d name}, Valid s → Taken s name ∨ name ∈ names d → Taken (step s d) name)
    (hfresh : ∀ {s d}, Valid s → Fine (step s d) → ∀ name ∈ names d, ¬ Taken s name)
    {decls : List Decl} {s : σ} (hs : Valid s) (h : Fine (decls.foldl step s)) :
    (∀ d ∈ decls, ∀ name ∈ names d, ¬ Taken s name) ∧
      decls.Pairwise fun d d' => (names d).Disjoint (names d') := by
  have hback : ∀ (decls : List Decl) {s : σ}, Valid s → Fine (decls.foldl step s) → Fine s := by
    intro decls
    induction decls with
    | nil => exact fun _ h => h
    | cons d decls ih => exact fun hs h => hfine hs (ih (hvalid d hs) h)
  induction decls generalizing s with
  | nil => simp
  | cons d decls ih =>
    have hd : Valid (step s d) := hvalid d hs
    obtain ⟨hrest, hpairwise⟩ := ih hd h
    refine ⟨fun d' hd' name hname htaken' => ?_, List.pairwise_cons.2 ⟨?_, hpairwise⟩⟩
    · rcases List.mem_cons.1 hd' with rfl | hmem
      · exact hfresh hs (hback decls hd h) name hname htaken'
      · exact hrest d' hmem name hname (htaken hs (.inl htaken'))
    · intro d' hd' name hname hname'
      exact hrest d' hd' name hname' (htaken hs (.inr hname))

namespace Build

open Builder

variable {b : Builder}

/-- A trait is listed after the traits that were there. -/
theorem traitNames_declareMembers (d : Decl) (hb : b.Rooted) :
    ∃ earlier, b.traitNames <+: earlier ∧
      ((declareMembers d).run b).2.traitNames = earlier ++ d.traitNames := by
  have htrait : ∀ (isInterface : Bool) (t : TraitDecl), ∃ earlier, b.traitNames <+: earlier ∧
      ((declareTrait isInterface t).run b).2.traitNames = earlier ++ [t.name] := by
    intro isInterface t
    have hgrows : Grows b ((methodSignatures ((Generics.extend {} t.typeParams).withAlias "Self"
        (.bounded "Self" [t.name])) t.methods).run b).2 :=
      (Takes.of_resolves (resolves_methodSignatures _)).grows hb
    exact ⟨_, hgrows.traits.map Trait.name, List.map_append⟩
  have hquiet : d.traitNames = [] → ∃ earlier, b.traitNames <+: earlier ∧
      ((declareMembers d).run b).2.traitNames = earlier ++ d.traitNames := by
    intro hnone
    rw [hnone]
    exact ⟨_, ((acts_declareMembers d).grows hb).traits.map Trait.name, (List.append_nil _).symm⟩
  cases d with
  | trait t => exact htrait false t
  | interface t => exact htrait true t
  | _ => exact hquiet rfl

/-- Traits that are listed under different names were declared under different names. -/
theorem pairwise_disjoint_traitNames {decls : List Decl} (hb : b.Rooted)
    (h : ((decls.forM declareMembers).run b).2.traitNames.Nodup) :
    decls.Pairwise fun d d' => d.traitNames.Disjoint d'.traitNames := by
  rw [forM_run] at h
  refine (pairwise_disjoint_of_fresh (fun b name => name ∈ b.traitNames) Builder.Rooted
    (fun b => b.traitNames.Nodup) (fun d hb => ((acts_declareMembers d).grows hb).rooted)
    ?_ ?_ ?_ hb h).2
  · intro b d hb hnodup
    exact hnodup.sublist (((acts_declareMembers d).grows hb).traits.map Trait.name).sublist
  · intro b d name hb hname
    obtain ⟨earlier, hearlier, htraits⟩ := traitNames_declareMembers d hb
    rw [htraits, List.mem_append]
    exact hname.imp_left fun hmem => hearlier.subset hmem
  · intro b d hb hnodup name hname htaken
    obtain ⟨earlier, hearlier, htraits⟩ := traitNames_declareMembers d hb
    rw [htraits] at hnodup
    exact (List.nodup_append.1 hnodup).2.2 name (hearlier.subset htaken) name hname rfl

/-- Members that are declared once have different names, and none that was global before. -/
theorem pairwise_disjoint_memberNames {decls : List Decl} (hb : b.Rooted)
    (h : ((decls.forM declareMembers).run b).2.Clean) :
    (∀ d ∈ decls, ∀ name ∈ d.memberNames, ¬ b.table.scopes.Binds .global name) ∧
      decls.Pairwise fun d d' => d.memberNames.Disjoint d'.memberNames := by
  rw [forM_run] at h
  refine pairwise_disjoint_of_fresh (fun b name => b.table.scopes.Binds .global name)
    Builder.Rooted Builder.Clean (fun d hb => ((acts_declareMembers d).grows hb).rooted)
    (fun hb => ((acts_declareMembers _).grows hb).clean)
    (fun hb hname => (declareMembers_declares _).binds hb hname)
    (fun hb => (takes_declareMembers _).fresh hb) hb h

/-! ## Names of types -/

end Build

/-- Whether a construction has a global trait of a name. -/
def Builder.hasTrait (b : Builder) (name : String) : Bool :=
  (b.table.scopes.lookupLocal .global name).any fun s => s.kind = .trait

namespace Build

open Builder

variable {b : Builder}

theorem isGlobalTrait_run (name : String) (b : Builder) :
    (isGlobalTrait name).run b = (b.hasTrait name, b) := by
  unfold isGlobalTrait Builder.hasTrait
  cases hlookup : b.table.scopes.lookupLocal .global name with
  | none | some symbol =>
    simp only [StateT.run_bind, StateT.run_get, pure_bind, hlookup]
    rfl

/-- A type whose declaration reports nothing, and that is no second trait of its name, finds its
name free and takes it. -/
theorem declareHead_run_of_clean {h : TypeHead}
    (hnew : h.kind.symbolKind = .trait → b.hasTrait h.name = false)
    (hclean : ((declareHead h).run b).2.Clean) :
    b.table.scopes.lookupLocal .global h.name = none ∧ ∃ symbol : Symbol, symbol.name = h.name ∧
      symbol.kind = h.kind.symbolKind ∧ ((declareHead h).run b).2.table.scopes =
        b.table.scopes.modifySymbols .global fun t => t.insert symbol.name symbol := by
  have htrait : ¬ (h.kind.symbolKind = .trait ∧ b.hasTrait h.name = true) := by
    rintro ⟨hkind, hhas⟩
    rw [hnew hkind] at hhas
    cases hhas
  cases hlookup : b.table.scopes.lookupLocal .global h.name with
  | some first =>
    unfold declareHead at hclean
    simp only [run_bind, isGlobalTrait_run, if_neg htrait] at hclean
    rw [define_run_of_some hlookup] at hclean
    exact absurd rfl (hclean _ (List.mem_append_right _ (List.mem_singleton_self _)))
  | none =>
    unfold declareHead
    simp only [run_bind, isGlobalTrait_run, if_neg htrait]
    rw [define_run_of_none hlookup]
    exact ⟨trivial, _, rfl, rfl, rfl⟩

/-- The same for a declaration of any kind. A trait that is global afterwards was so before, or is
the one that is declared. -/
theorem declareType_run_of_clean {d : Decl} (hb : b.Rooted)
    (hnew : ∀ name ∈ d.traitNames, b.hasTrait name = false)
    (hclean : ((declareType d).run b).2.Clean) :
    (∀ name ∈ d.typeNames, ¬ b.table.scopes.Binds .global name) ∧
      ∀ name ∉ d.traitNames, b.hasTrait name = false →
        ((declareType d).run b).2.hasTrait name = false := by
  unfold declareType at hclean ⊢
  unfold Decl.typeNames
  cases hhead : d.typeHead? with
  | none => exact ⟨by simp, fun _ _ h => h⟩
  | some h =>
    have htrait : h.kind.symbolKind = .trait → h.name ∈ d.traitNames := by
      cases d <;> cases hhead <;> simp [DeclKind.symbolKind, Decl.traitNames]
    simp only [hhead] at hclean
    obtain ⟨hfree, symbol, hname, hkind, hscopes⟩ :=
      declareHead_run_of_clean (fun hkind => hnew _ (htrait hkind)) hclean
    refine ⟨by simp [Arena.Binds, hfree], fun name hother hbefore => ?_⟩
    have hinside : ScopeId.global.index < b.table.scopes.size := hb.pos
    unfold Builder.hasTrait
    simp only [hscopes, lookupLocal_insert _ _ _ _ hinside, true_and]
    split
    · next heq =>
        rw [heq, hname] at hother
        simpa [hkind] using fun hsymbol => hother (htrait hsymbol)
    · exact hbefore

/-- Types that are declared once have different names. -/
theorem pairwise_disjoint_typeNames {decls : List Decl} (hb : b.Rooted)
    (h : ((decls.forM declareType).run b).2.Clean)
    (htraits : decls.Pairwise fun d d' => d.traitNames.Disjoint d'.traitNames)
    (hnew : ∀ d ∈ decls, ∀ name ∈ d.traitNames, b.hasTrait name = false) :
    (∀ d ∈ decls, ∀ name ∈ d.typeNames, ¬ b.table.scopes.Binds .global name) ∧
      decls.Pairwise fun d d' => d.typeNames.Disjoint d'.typeNames := by
  induction decls generalizing b with
  | nil => simp
  | cons d decls ih =>
    obtain ⟨hd, hdecls⟩ := List.pairwise_cons.1 htraits
    have hgrows := (acts_declareType d).grows hb
    have hclean : ((declareType d).run b).2.Clean :=
      (grows_forM acts_declareType decls hgrows.rooted).clean h
    obtain ⟨hfree, hothers⟩ := declareType_run_of_clean hb (hnew d List.mem_cons_self) hclean
    obtain ⟨hrest, hpairwise⟩ := ih hgrows.rooted h hdecls fun d' hd' name hname =>
      hothers name (fun hmem => hd d' hd' hmem hname)
        (hnew d' (List.mem_cons_of_mem _ hd') name hname)
    have hbinds : ∀ {name}, b.table.scopes.Binds .global name ∨ name ∈ d.typeNames →
        ((declareType d).run b).2.table.scopes.Binds .global name :=
      fun hname => (declareType_declares d).binds hb hname
    refine ⟨fun d' hd' name hname htaken => ?_, List.pairwise_cons.2 ⟨?_, hpairwise⟩⟩
    · rcases List.mem_cons.1 hd' with rfl | hmem
      · exact hfree name hname htaken
      · exact hrest d' hmem name hname (hbinds (.inl htaken))
    · intro d' hd' name hname hname'
      exact hrest d' hd' name hname' (hbinds (.inr hname))

end Build

/-- Declarations have no name in common when nothing was reported to have two. -/
theorem SourceUnit.pairwise_disjoint_ownNames {intrinsics : List (String × TypeExpr)}
    {u : SourceUnit} (hclean : (Builder.ofUnit intrinsics u).Clean)
    (htraits : (Builder.ofUnit intrinsics u).traitNames.Nodup) :
    u.decls.Pairwise fun d d' => d.ownNames.Disjoint d'.ownNames := by
  have hfirst := grows_forM acts_declareType u.decls Builder.rooted_empty
  have hseeds := (acts_seedIntrinsics intrinsics).grows hfirst.rooted
  have hsecond := grows_forM acts_declareMembers u.decls hseeds.rooted
  have hthird := grows_forM acts_visitDecl u.decls hsecond.rooted
  simp only [Builder.ofUnit, unit_eq, declare, run_bind] at hclean htraits
  have htypes := (pairwise_disjoint_typeNames Builder.rooted_empty
    ((hseeds.trans (hsecond.trans hthird)).clean hclean)
    (pairwise_disjoint_traitNames hseeds.rooted
      (htraits.sublist (hthird.traits.map Trait.name).sublist)) fun _ _ _ _ => rfl).2
  obtain ⟨hfree, hmembers⟩ :=
    pairwise_disjoint_memberNames hseeds.rooted (hthird.clean hclean)
  -- No member has the name of a type, because all types are global by then.
  have hapart : ∀ d ∈ u.decls, ∀ d' ∈ u.decls, d.typeNames.Disjoint d'.memberNames := by
    intro d hd d' hd' name hname hname'
    refine hfree d' hd' name hname' ?_
    refine (seedIntrinsics_declares intrinsics).binds hfirst.rooted (.inl ?_)
    exact (Build.Declares.forM u.decls declareType_declares).binds Builder.rooted_empty
      (.inr (List.mem_flatMap.2 ⟨d, hd, hname⟩))
  refine (htypes.and hmembers).imp_of_mem fun {d d'} hd hd' hboth => ?_
  unfold Decl.ownNames
  rw [List.disjoint_append_left, List.disjoint_append_right, List.disjoint_append_right]
  have hapart' : d.memberNames.Disjoint d'.typeNames := fun _ hname hname' =>
    hapart d' hd' d hd hname' hname
  exact ⟨⟨hboth.1, hapart d hd d' hd'⟩, hapart', hboth.2⟩

end UnitAnalysis

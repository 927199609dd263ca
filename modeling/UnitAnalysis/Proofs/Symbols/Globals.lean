import UnitAnalysis.Proofs.Symbols.Define
import UnitAnalysis.Proofs.Symbols.Resolving
import UnitAnalysis.Proofs.Symbols.Route

/-!
# Global names

The first two rounds of a construction give the names of types, functions and variants to the global
scope, together with the functions that need no declaration. `SourceUnit.declaredNames` lists these
names and `declare_declares` says that the global scope receives them and no others, that no other
scope is opened and that every variant which is known afterwards has its name among them.
-/

set_option autoImplicit false

namespace UnitAnalysis

/-- The names that a declaration has beside that of a type: those of functions and variants. -/
def Decl.memberNames : Decl → List String
  | function f => [f.name]
  | data d => d.variants.map fun v => v.name
  | _ => []

/-- The global names that are declared in a unit or need no declaration. -/
def SourceUnit.declaredNames (intrinsics : List (String × TypeExpr)) (u : SourceUnit) :
    List String :=
  u.decls.flatMap (fun d => (d.typeHead?.map fun h => h.name).toList) ++
    (defaultIntrinsics.map Prod.fst ++ intrinsics.map Prod.fst) ++ u.decls.flatMap Decl.memberNames

/-- The global scope received names, and nothing else changed that a walk relies on, but for the
variants of those names. -/
structure Builder.Declares (names : List String) (b b' : Builder) : Prop where
  scopes : Arena.Defines .global names b.table.scopes b'.table.scopes
  scopeMap : b'.table.scopeMap = b.table.scopeMap
  visits : b'.visits = b.visits
  placement : placement b'.findings = placement b.findings
  variants : ∀ name, (b'.table.decls.variant? name).isSome →
    (b.table.decls.variant? name).isSome ∨ name ∈ names

namespace Builder.Declares

variable {names more : List String} {b b' b'' : Builder}

theorem trans (h : Builder.Declares names b b') (h' : Builder.Declares more b' b'') :
    Builder.Declares (names ++ more) b b'' where
  scopes := h.scopes.trans h'.scopes
  scopeMap := h'.scopeMap.trans h.scopeMap
  visits := h'.visits.trans h.visits
  placement := h'.placement.trans h.placement
  variants name hname := by
    rw [List.mem_append]
    rcases h'.variants name hname with hb' | hmore
    · exact (h.variants name hb').imp_right .inl
    · exact .inr (.inr hmore)

theorem size_pos (h : Builder.Declares names b b') (hb : 0 < b.table.scopes.size) :
    0 < b'.table.scopes.size :=
  h.scopes.size ▸ hb

theorem of_defines (h : Builder.Defines .global names [] b b') : Builder.Declares names b b' where
  scopes := h.scopes
  scopeMap := h.scopeMap
  visits := Array.toList_inj.1 (h.visits.trans (List.append_nil _))
  placement := h.placement
  variants _ hname := .inl (h.decls ▸ hname)

/-- A variant of a received name may be listed. -/
theorem addVariant {v : Variant} (h : Builder.Declares names b b') (hv : v.name ∈ names) :
    Builder.Declares names b
      { b' with table := { b'.table with decls := b'.table.decls.addVariant v } } where
  scopes := h.scopes
  scopeMap := h.scopeMap
  visits := h.visits
  placement := h.placement
  variants name hname := by
    by_cases heq : v.name = name
    · exact .inr (heq ▸ hv)
    · refine h.variants name ?_
      change ((b'.table.decls.variants.insert v.name v).get? name).isSome at hname
      rwa [Table.get?_insert_of_ne _ heq] at hname

/-- A name that is global already counts as received. -/
theorem cons_of_binds {name : String} (h : Builder.Declares names b b')
    (hname : b.table.scopes.Binds .global name) : Builder.Declares (name :: names) b b' :=
  { h with
    scopes := h.scopes.cons_of_binds fun _ => hname
    variants := fun other hother => (h.variants other hother).imp_right (List.mem_cons_of_mem _) }

end Builder.Declares

namespace Build

/-- A step gives names to the global scope, whatever it starts from. -/
structure Declares {α : Type} (x : Build α) (names : List String) : Prop where
  run : ∀ b : Builder, 0 < b.table.scopes.size → Builder.Declares names b (x.run b).2

variable {α β : Type} {names more : List String}

namespace Declares

theorem of_defines {x : Build α} (h : ∀ ix, x.Defines ix .global names []) : x.Declares names :=
  ⟨fun b _ => .of_defines ((h b.table.decls).run b rfl)⟩

theorem pure (a : α) : Declares (Pure.pure a) [] :=
  of_defines fun _ => .pure a

theorem bind {x : Build α} {f : α → Build β} (hx : x.Declares names)
    (hf : ∀ a, (f a).Declares more) : (x >>= f).Declares (names ++ more) :=
  ⟨fun b hb => (hx.run b hb).trans ((hf _).run _ ((hx.run b hb).size_pos hb))⟩

/-- A step after which nothing more is declared. -/
theorem then_quiet {x : Build α} {f : α → Build β} (hx : x.Declares names)
    (hf : ∀ a, (f a).Declares []) : (x >>= f).Declares names := by
  have h := hx.bind hf
  rwa [List.append_nil] at h

theorem get_bind {f : Builder → Build α} (hf : ∀ b, (f b).Declares names) :
    (get >>= f).Declares names :=
  ⟨fun b hb => (hf b).run b hb⟩

theorem forM {ι : Type} {f : ι → Build Unit} {names : ι → List String} (xs : List ι)
    (h : ∀ x, (f x).Declares (names x)) : (xs.forM f).Declares (xs.flatMap names) := by
  induction xs with
  | nil => exact pure ()
  | cons x xs ih => exact (h x).bind fun _ => ih

/-- A change to the table that is not about scopes and brings no variant. -/
theorem modifyTable {f : SymbolTable → SymbolTable} (hscopes : ∀ t, (f t).scopes = t.scopes)
    (hmap : ∀ t, (f t).scopeMap = t.scopeMap)
    (hvariants : ∀ t name, ((f t).decls.variant? name).isSome → (t.decls.variant? name).isSome) :
    (Build.modifyTable f).Declares [] := by
  refine ⟨fun b _ => ⟨?_, hmap _, rfl, rfl, fun name hname => .inl (hvariants _ name hname)⟩⟩
  change Arena.Defines .global [] b.table.scopes (f b.table).scopes
  rw [hscopes]
  exact .refl _ _

/-- Where nothing but written types is resolved, no name is given. -/
theorem of_resolves {x : Build α} (h : Resolves (fun _ => True) (fun _ => True) x) :
    x.Declares [] := by
  induction h with
  | pure a => exact pure a
  | bind _ _ ih ih' => exact ih.bind ih'
  | resolve g e => exact of_defines fun _ => defines_resolve g e
  | duplicate => exact of_defines fun _ => defines_report rfl
  | annotate => exact of_defines fun _ => defines_annotate ..
  | sign => exact modifyTable (fun _ => rfl) (fun _ => rfl) fun _ _ h => h

end Declares

/-- Where no function is signed, the same holds for every scope and for the declarations. -/
theorem Defines.of_resolves {ix : DeclIndex} {scope : ScopeId} {x : Build α}
    (h : Resolves (fun _ => True) (fun _ => False) x) : x.Defines ix scope [] [] := by
  induction h with
  | pure a => exact .pure a
  | bind _ _ ih ih' => exact .bind ih ih'
  | resolve g e => exact defines_resolve g e
  | duplicate => exact defines_report rfl
  | annotate => exact defines_annotate ..
  | sign hs => exact hs.elim

/-! ## Names of types -/

theorem isGlobalTrait_declares (name : String) : (isGlobalTrait name).Declares [] := by
  unfold isGlobalTrait
  refine .get_bind fun b => ?_
  cases b.table.scopes.lookupLocal .global name with
  | none => exact .pure _
  | some symbol => exact .pure _

theorem shadow_declares (id : NodeId) : (shadow id).Declares [] :=
  ⟨fun _ _ => ⟨.refl _ _, rfl, rfl, rfl, fun _ h => .inl h⟩⟩

/-- The trait whose name is found again is global already. -/
theorem binds_of_isGlobalTrait {name : String} {b : Builder}
    (h : ((isGlobalTrait name).run b).1 = true) : b.table.scopes.Binds .global name := by
  unfold Arena.Binds
  cases hlookup : b.table.scopes.lookupLocal .global name with
  | some symbol => rfl
  | none =>
    have hfalse : (isGlobalTrait name).run b = (false, b) := by
      simp only [isGlobalTrait, StateT.run_bind, StateT.run_get, pure_bind, hlookup]
      rfl
    rw [hfalse] at h
    cases h

theorem declareHead_declares (h : TypeHead) : (declareHead h).Declares [h.name] := by
  unfold declareHead
  refine ⟨fun b hb => ?_⟩
  have htrait := (isGlobalTrait_declares h.name).run b hb
  change Builder.Declares [h.name] b
    ((ite _ _ _ : Build Unit).run ((isGlobalTrait h.name).run b).2).2
  split
  · next hcond =>
      have hbinds := binds_of_isGlobalTrait hcond.2
      have hshadow := (shadow_declares h.node.id).run _ (htrait.size_pos hb)
      exact (htrait.trans hshadow).cons_of_binds hbinds
  · refine htrait.trans (Declares.run ?_ _ (htrait.size_pos hb))
    refine .then_quiet (.of_defines fun _ => defines_define ..) fun isDefined => ?_
    cases isDefined with
    | false => exact shadow_declares h.node.id
    | true =>
      rw [if_pos rfl]
      refine .modifyTable (fun _ => rfl) (fun _ => rfl) fun t name hname => ?_
      unfold DeclIndex.declare at hname
      split at hname <;> exact hname

/-- The first round gives the name of a type to the global scope. -/
theorem declareType_declares (d : Decl) :
    (declareType d).Declares (d.typeHead?.map fun h => h.name).toList := by
  unfold declareType
  cases d.typeHead? with
  | none => exact .pure _
  | some h => exact declareHead_declares h

/-! ## Functions that need no declaration -/

theorem resolveIntrinsics_names (extra : List (String × TypeExpr)) (b : Builder) :
    ((resolveIntrinsics extra).run b).1.map Prod.fst = extra.map Prod.fst := by
  induction extra generalizing b with
  | nil => rfl
  | cons p rest ih => exact congrArg (p.1 :: ·) (ih _)

theorem defineIntrinsic_declares (name : String) (ret : Ty) :
    (defineIntrinsic name ret).Declares [name] := by
  unfold defineIntrinsic
  refine .then_quiet (.of_defines fun _ => defines_tryDefine ..) fun result => ?_
  cases result with
  | ok _ => exact .modifyTable (fun _ => rfl) (fun _ => rfl) fun _ _ h => h
  | error _ => exact .pure _

theorem seedIntrinsics_declares (extra : List (String × TypeExpr)) :
    (seedIntrinsics extra).Declares (defaultIntrinsics.map Prod.fst ++ extra.map Prod.fst) := by
  refine ⟨fun b hb => ?_⟩
  have hfirst := (Declares.of_resolves (resolves_resolveIntrinsics extra)).run b hb
  have hall := (Declares.forM (defaultIntrinsics ++ ((resolveIntrinsics extra).run b).1)
    fun p => defineIntrinsic_declares p.1 p.2).run ((resolveIntrinsics extra).run b).2
      (hfirst.size_pos hb)
  have hnames : (defaultIntrinsics ++ ((resolveIntrinsics extra).run b).1).flatMap
      (fun p => [p.1]) = defaultIntrinsics.map Prod.fst ++ extra.map Prod.fst := by
    rw [← resolveIntrinsics_names extra b, ← List.map_append, List.map_eq_flatMap]
  rw [hnames] at hall
  exact hfirst.trans hall

/-! ## Signatures and members -/

theorem isShadowed_declares (id : NodeId) : (isShadowed id).Declares [] :=
  .get_bind fun _ => .pure _

theorem fillType_declares (id : NodeId) (name : String) (f : DeclaredType → DeclaredType) :
    (fillType id name f).Declares [] := by
  unfold fillType
  refine .bind (isShadowed_declares id) fun isShadowed => ?_
  split
  · exact .pure _
  · exact .modifyTable (fun _ => rfl) (fun _ => rfl) fun _ _ h => h

theorem declareClass_declares (c : ClassDecl) : (declareClass c).Declares [] := by
  unfold declareClass
  refine .get_bind fun b => ?_
  refine .bind (.of_resolves (resolves_resolveFields fun _ _ => trivial)) fun fields => ?_
  refine .bind (.of_resolves (resolves_collectMethods fun _ _ => trivial)) fun methods => ?_
  exact fillType_declares ..

theorem declareStruct_declares (isSpark : Bool) (s : StructDecl) :
    (declareStruct isSpark s).Declares [] := by
  unfold declareStruct
  refine .get_bind fun b => ?_
  refine .bind (.of_resolves (resolves_resolveFields fun _ _ => trivial)) fun fields => ?_
  exact fillType_declares ..

/-- The second round gives the names of variants to the global scope. The names `seen` are there
already. -/
theorem declareVariants_declares (d : DataDecl) (g : Generics) (self : Ty) (seen : List String)
    (variants : List VariantDecl) (b : Builder)
    (hseen : ∀ name ∈ seen, b.table.scopes.Binds .global name) (hb : 0 < b.table.scopes.size) :
    Builder.Declares (variants.map fun v => v.name) b
      ((declareVariants d g self seen variants).run b).2 := by
  induction variants generalizing seen b with
  | nil => exact (Declares.pure ()).run b hb
  | cons v vs ih =>
    -- Whatever the first variant does, the others go on with its name among those that are there.
    have goOn : ∀ b' seen', Builder.Declares [v.name] b b' →
        (∀ name ∈ seen', name = v.name ∨ name ∈ seen) →
        Builder.Declares (v.name :: vs.map fun v => v.name) b
          ((declareVariants d g self seen' vs).run b').2 := by
      intro b' seen' h hseen'
      refine h.trans (ih seen' b' (fun name hname => ?_) (h.size_pos hb))
      rw [h.scopes.binds]
      rcases hseen' name hname with rfl | hmem
      · exact .inr ⟨rfl, hb, List.mem_singleton_self _⟩
      · exact .inl (hseen name hmem)
    unfold declareVariants
    split
    · next hname =>
        have hreport : (report [⟨.duplicateMember d.name v.name, v.node.span⟩]).Declares [] :=
          .of_defines fun _ => defines_report rfl
        exact goOn _ seen ((hreport.run b hb).cons_of_binds (hseen v.name hname))
          fun _ hmem => .inr hmem
    · simp only [run_bind]
      have hfields : Builder.Declares [] b ((resolveFields v.name true g [] v.fields).run b).2 :=
        (Declares.of_resolves (resolves_resolveFields fun _ _ => trivial)).run b hb
      have hdefine := hfields.trans ((Declares.of_defines fun _ => defines_define .global
        { name := v.name, kind := .function,
          declaredType := some (.function (((resolveFields v.name true g [] v.fields).run b).1.map
            fun f => f.ty) self),
          origin := some v.node.id, span := v.node.span } v.node.span).run _ (hfields.size_pos hb))
      have hshadowed := hdefine.trans ((isShadowed_declares d.node.id).run _ (hdefine.size_pos hb))
      have hcons : ∀ name ∈ v.name :: seen, name = v.name ∨ name ∈ seen :=
        fun _ hmem => List.mem_cons.1 hmem
      split
      · exact goOn _ (v.name :: seen) (hshadowed.addVariant (List.mem_singleton_self _)) hcons
      · exact goOn _ (v.name :: seen) hshadowed hcons

theorem declareData_declares (d : DataDecl) :
    (declareData d).Declares (d.variants.map fun v => v.name) := by
  unfold declareData
  refine .get_bind fun b => ⟨fun b' hb' => ?_⟩
  exact declareVariants_declares d _ _ [] d.variants b' (by simp) hb'

theorem declareTrait_declares (isInterface : Bool) (t : TraitDecl) :
    (declareTrait isInterface t).Declares [] := by
  unfold declareTrait
  refine .bind (.of_resolves (resolves_methodSignatures _)) fun methods => ?_
  exact ⟨fun _ _ => ⟨.refl _ _, rfl, rfl, rfl, fun _ h => .inl h⟩⟩

theorem declareImpl_declares (i : ImplDecl) : (declareImpl i).Declares [] := by
  unfold declareImpl
  refine .bind (.of_resolves (.resolve ..)) fun target => ?_
  refine .bind (.of_resolves (resolves_resolveAll _)) fun traitArgs => ?_
  refine .bind (.of_resolves (resolves_functionSignatures fun _ _ => trivial)) fun methods => ?_
  exact ⟨fun _ _ => ⟨.refl _ _, rfl, rfl, rfl, fun _ h => .inl h⟩⟩

theorem declareFunction_declares (f : FunctionDecl) : (declareFunction f).Declares [f.name] := by
  unfold declareFunction
  refine .bind (.of_resolves (resolves_functionSignature trivial)) fun s => ?_
  exact .then_quiet (.of_defines fun _ => defines_define ..) fun _ => .pure _

/-- The second round gives the names of functions and variants to the global scope. -/
theorem declareMembers_declares (d : Decl) : (declareMembers d).Declares d.memberNames := by
  cases d with
  | function f => exact declareFunction_declares f
  | classLike c => exact declareClass_declares c
  | struct s => exact declareStruct_declares false s
  | spark s => exact declareStruct_declares true s
  | data d => exact declareData_declares d
  | trait t => exact declareTrait_declares false t
  | interface t => exact declareTrait_declares true t
  | impl i => exact declareImpl_declares i
  | script s => exact .pure _

/-- The third round of a construction starts from what the first two leave behind. -/
theorem ofUnit_eq (intrinsics : List (String × TypeExpr)) (u : SourceUnit) :
    Builder.ofUnit intrinsics u =
      ((u.decls.forM visitDecl).run ((declare intrinsics u).run {}).2).2 := by
  rw [Builder.ofUnit, unit_eq, run_bind]

/-- The first two rounds give the declared names to the global scope, and nothing else. -/
theorem declare_declares (intrinsics : List (String × TypeExpr)) (u : SourceUnit) :
    (declare intrinsics u).Declares (u.declaredNames intrinsics) := by
  unfold declare SourceUnit.declaredNames
  rw [List.append_assoc]
  exact (Declares.forM u.decls declareType_declares).bind fun _ =>
    (seedIntrinsics_declares intrinsics).bind fun _ =>
      .forM u.decls declareMembers_declares

end Build

end UnitAnalysis

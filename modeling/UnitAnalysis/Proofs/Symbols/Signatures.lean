import Mathlib.Data.List.Flatten
import UnitAnalysis.Proofs.Declared.Alike
import UnitAnalysis.Proofs.Symbols.Table

/-!
# The results of functions

The second round of a construction writes down the signature of every function and method. While it
does so the index of declared types fills up, but no name comes or goes and every name keeps its
type, so it does not matter when a type is resolved: the result in a signature is what the written
type stands for in the finished table.
-/

set_option autoImplicit false

namespace UnitAnalysis

/-! ## What resolution depends on -/

/-- The type of the values of a declared name. -/
def DeclIndex.selfType? (ix : DeclIndex) (name : String) : Option Ty :=
  (ix.get? name).map DeclaredType.selfType

section Heads

variable {ix ix' : DeclIndex}

theorem DeclIndex.selfType?_modify {f : DeclaredType → DeclaredType}
    (hf : ∀ d, (f d).selfType = d.selfType) (ix : DeclIndex) (name : String) :
    (ix.modify name f).selfType? = ix.selfType? := by
  funext other
  have hget : (ix.modify name f).get? other =
      if name = other then (ix.get? other).map f else ix.get? other :=
    Table.get?_modify ix.types name other f
  rw [selfType?, selfType?, hget]
  split
  · rw [Option.map_map]
    exact congrArg (fun g => (ix.get? other).map g) (funext hf)
  · rfl

theorem TypeExpr.resolve_of_heads (h : ix.selfType? = ix'.selfType?) (g : Generics)
    (e : TypeExpr) : e.resolve ix g = e.resolve ix' g := by
  refine TypeExpr.resolve_congr (fun name => ?_) g e
  rw [ix.contains_eq_isSome, ix'.contains_eq_isSome]
  simpa [DeclIndex.selfType?] using congrArg Option.isSome (congrFun h name)

theorem Build.typeGenerics_of_heads (h : ix.selfType? = ix'.selfType?) (name : String)
    (params : List TypeParam) : typeGenerics ix name params = typeGenerics ix' name params := by
  have hname := congrFun h name
  unfold DeclIndex.selfType? at hname
  unfold typeGenerics
  cases hix : ix.get? name with
  | none =>
    rw [hix, Option.map_none, eq_comm, Option.map_eq_none_iff] at hname
    rw [hname]
  | some d =>
    rw [hix, Option.map_some, eq_comm, Option.map_eq_some_iff] at hname
    obtain ⟨d', hd', hself⟩ := hname
    rw [hd']
    dsimp only
    rw [hself]

end Heads

/-! ## Declared results -/

/-- The type parameters and `Self` around the functions of a declaration. -/
def Decl.generics (ix : DeclIndex) : Decl → Generics
  | classLike c => Build.typeGenerics ix c.name c.typeParams
  | impl i =>
    let g := Generics.extend {} i.typeParams
    g.withAlias "Self" (i.target.resolve ix g).1
  | _ => {}

/-- The declared result of a function, given the type parameters around it. -/
def FunctionDecl.resultIn (ix : DeclIndex) (g : Generics) (f : FunctionDecl) : Option Ty :=
  f.returnType.map fun e => (e.resolve ix (g.extend f.typeParams)).1

/-- The functions of a declaration with their declared results. -/
def Decl.declaredResults (ix : DeclIndex) (d : Decl) : List (NodeId × Option Ty) :=
  d.functions.map fun f => (f.node.id, f.resultIn ix (d.generics ix))

/-- What the second round does to the index and to the signatures. The declared names keep their
types, and the listed functions get signatures with the listed results. -/
structure Builder.Signs (results : List (NodeId × Option Ty)) (b b' : Builder) : Prop where
  heads : b'.table.decls.selfType? = b.table.decls.selfType?
  others : ∀ id, id ∉ results.map Prod.fst →
    b'.table.functions.get? id = b.table.functions.get? id
  signed : (results.map Prod.fst).Nodup → ∀ r ∈ results,
    (b'.table.functions.get? r.1).map (fun s => s.ret) = some r.2

theorem Builder.Signs.trans {results more : List (NodeId × Option Ty)} {b b' b'' : Builder}
    (h : Signs results b b') (h' : Signs more b' b'') : Signs (results ++ more) b b'' where
  heads := h'.heads.trans h.heads
  others id hid := by
    rw [List.map_append, List.mem_append, not_or] at hid
    rw [h'.others id hid.2, h.others id hid.1]
  signed hnodup r hr := by
    rw [List.map_append] at hnodup
    obtain ⟨hresults, hmore, hapart⟩ := List.nodup_append.1 hnodup
    rcases List.mem_append.1 hr with hr | hr
    · rw [h'.others r.1 fun hmem => hapart r.1 (List.mem_map_of_mem hr) r.1 hmem rfl]
      exact h.signed hresults r hr
    · exact h'.signed hmore r hr

namespace Build

/-- A step of the second round signs functions, whenever the declared names have the types that they
have in `ix`. -/
structure Signs {α : Type} (x : Build α) (ix : DeclIndex) (results : List (NodeId × Option Ty)) :
    Prop where
  run : ∀ b : Builder, b.table.decls.selfType? = ix.selfType? →
    Builder.Signs results b (x.run b).2

variable {α β : Type} {ix : DeclIndex} {results more : List (NodeId × Option Ty)}

namespace Signs

/-- A step that defines names at most signs nothing. -/
theorem of_defines {x : Build α} {names : List String} {visits : List Visit}
    (h : ∀ ix, x.Defines ix .global names visits) : x.Signs ix [] := by
  refine ⟨fun b _ => ?_⟩
  have hrun := (h b.table.decls).run b rfl
  exact ⟨congrArg DeclIndex.selfType? hrun.decls, fun id _ =>
    congrArg (fun d : Declarations => d.functions.get? id) hrun.declarations, by simp⟩

theorem pure (a : α) : Signs (Pure.pure a) ix [] :=
  of_defines fun _ => .pure a

theorem bind {x : Build α} {f : α → Build β} (hx : x.Signs ix results)
    (hf : ∀ a, (f a).Signs ix more) : (x >>= f).Signs ix (results ++ more) :=
  ⟨fun b hb => (hx.run b hb).trans ((hf _).run _ ((hx.run b hb).heads.trans hb))⟩

theorem then_quiet {x : Build α} {f : α → Build β} (hx : x.Signs ix results)
    (hf : ∀ a, (f a).Signs ix []) : (x >>= f).Signs ix results := by
  have h := hx.bind hf
  rwa [List.append_nil] at h

theorem get_bind {f : Builder → Build α}
    (hf : ∀ b : Builder, b.table.decls.selfType? = ix.selfType? → (f b).Signs ix results) :
    (get >>= f).Signs ix results :=
  ⟨fun b hb => (hf b hb).run b hb⟩

/-- A written type is resolved, and it stands for what it stands for in `ix`. -/
theorem resolve_bind {g : Generics} {e : TypeExpr} {f : Ty → Build β}
    (hf : (f (e.resolve ix g).1).Signs ix results) : (resolve g e >>= f).Signs ix results := by
  refine ⟨fun b hb => ?_⟩
  have hresolve : (resolve g e).Signs ix [] := of_defines fun _ => defines_resolve g e
  refine (hresolve.run b hb).trans ?_
  change Builder.Signs results _ ((f (e.resolve b.table.decls g).1).run ((resolve g e).run b).2).2
  rw [e.resolve_of_heads hb]
  exact hf.run _ ((hresolve.run b hb).heads.trans hb)

theorem forM {ι : Type} {f : ι → Build Unit} {results : ι → List (NodeId × Option Ty)}
    (xs : List ι) (h : ∀ x, (f x).Signs ix (results x)) :
    (xs.forM f).Signs ix (xs.flatMap results) := by
  induction xs with
  | nil => exact pure ()
  | cons x xs ih => exact (h x).bind fun _ => ih

end Signs

/-! ## Signatures -/

theorem ret_methodSignature (g : Generics) (m : MethodSig) (b : Builder) :
    ((methodSignature g m).run b).1.ret =
      m.returnType.map fun e => (e.resolve b.table.decls (g.extend m.typeParams)).1 := by
  have hparams : Builder.Defines .global [] [] b
      ((resolveParams (g.extend m.typeParams) m.params).run b).2 :=
    (Defines.of_resolves (resolves_resolveParams _)).run b rfl
  change ((resolveOption (g.extend m.typeParams) m.returnType).run
    ((resolveParams (g.extend m.typeParams) m.params).run b).2).1 = _
  rw [← hparams.decls]
  cases m.returnType <;> rfl

theorem functionSignature_signs (g : Generics) (f : FunctionDecl) :
    (functionSignature g f).Signs ix [(f.node.id, f.resultIn ix g)] := by
  refine ⟨fun b hb => ?_⟩
  let m : MethodSig :=
    { node := f.node, name := f.name, typeParams := f.typeParams, params := f.params,
      returnType := f.returnType, isAsync := f.isAsync }
  have hquiet : (methodSignature g m).Signs ix [] :=
    .of_defines fun _ => .of_resolves (resolves_methodSignature m)
  have hmethod := hquiet.run b hb
  have hret : ((methodSignature g m).run b).1.ret = f.resultIn ix g := by
    rw [ret_methodSignature]
    simp only [TypeExpr.resolve_of_heads hb]
    rfl
  refine ⟨hmethod.heads, fun id hid => ?_, fun _ r hr => ?_⟩
  · refine (Table.get?_insert_of_ne _ (Ne.symm ?_) _).trans (hmethod.others id List.not_mem_nil)
    simpa using hid
  · obtain rfl := List.mem_singleton.1 hr
    have hself := Table.get?_insert_self ((methodSignature g m).run b).2.table.functions f.node.id
      ((methodSignature g m).run b).1
    exact (congrArg (Option.map fun s => s.ret) hself).trans (congrArg some hret)

theorem functionSignatures_signs (g : Generics) (fs : List FunctionDecl) :
    (functionSignatures g fs).Signs ix (fs.map fun f => (f.node.id, f.resultIn ix g)) := by
  induction fs with
  | nil => exact .pure _
  | cons f fs ih =>
    exact (functionSignature_signs g f).bind fun _ => ih.then_quiet fun _ => .pure _

theorem collectMethods_signs (owner : String) (fields : List Field) (g : Generics)
    (before : Table String Signature) (methods : List FunctionDecl) :
    (collectMethods owner fields g before methods).Signs ix
      (methods.map fun f => (f.node.id, f.resultIn ix g)) := by
  induction methods generalizing before with
  | nil => exact .pure _
  | cons m ms ih =>
    unfold collectMethods
    refine (functionSignature_signs g m).bind fun s => ?_
    split
    · exact .bind (.of_defines fun _ => defines_report rfl) fun _ => ih before
    · exact ih _

/-! ## Members -/

theorem signs_modifyTable {f : SymbolTable → SymbolTable}
    (hheads : ∀ t, (f t).decls.selfType? = t.decls.selfType?)
    (hfunctions : ∀ t, (f t).functions = t.functions) : (modifyTable f).Signs ix [] :=
  ⟨fun b _ => ⟨hheads _, fun id _ => congrArg (Table.get? · id) (hfunctions b.table), by simp⟩⟩

theorem isShadowed_signs (id : NodeId) : (isShadowed id).Signs ix [] :=
  .get_bind fun _ _ => .pure _

theorem fillType_signs (id : NodeId) (name : String) {f : DeclaredType → DeclaredType}
    (hf : ∀ d, (f d).selfType = d.selfType) : (fillType id name f).Signs ix [] := by
  unfold fillType
  refine (isShadowed_signs id).bind fun isShadowed => ?_
  split
  · exact .pure _
  · exact signs_modifyTable (fun t => t.decls.selfType?_modify hf name) fun _ => rfl

theorem addVariant_signs (v : Variant) :
    (modifyTable fun t => { t with decls := t.decls.addVariant v }).Signs ix [] := by
  refine signs_modifyTable (fun t => ?_) fun _ => rfl
  exact DeclIndex.selfType?_modify (f := fun d => { d with variants := d.variants ++ [v.name] })
    (fun _ => rfl) t.decls v.parent

theorem declareVariants_signs (d : DataDecl) (g : Generics) (self : Ty) (seen : List String)
    (variants : List VariantDecl) : (declareVariants d g self seen variants).Signs ix [] := by
  induction variants generalizing seen with
  | nil => exact .pure _
  | cons v vs ih =>
    unfold declareVariants
    split
    · exact .bind (.of_defines fun _ => defines_report rfl) fun _ => ih seen
    · refine .bind (.of_defines fun _ => .of_resolves
        (resolves_resolveFields fun _ _ => trivial)) fun fields => ?_
      refine .bind (.of_defines fun _ => defines_define ..) fun isDefined => ?_
      refine (isShadowed_signs d.node.id).bind fun isShadowed => ?_
      split
      · exact (addVariant_signs _).bind fun _ => ih _
      · exact ih _

/-- The second round signs the functions of a declaration. -/
theorem declareMembers_signs (d : Decl) : (declareMembers d).Signs ix (d.declaredResults ix) := by
  cases d with
  | function f =>
    exact (functionSignature_signs {} f).then_quiet fun _ =>
      .bind (.of_defines fun _ => defines_define ..) fun _ => .pure _
  | classLike c =>
    refine .get_bind fun b hb => ?_
    rw [typeGenerics_of_heads hb]
    refine .bind (.of_defines fun _ => .of_resolves
      (resolves_resolveFields fun _ _ => trivial)) fun fields => ?_
    exact (collectMethods_signs ..).then_quiet fun _ => fillType_signs _ _ fun _ => rfl
  | struct s | spark s =>
    refine .get_bind fun b _ => .bind (.of_defines fun _ => .of_resolves
      (resolves_resolveFields fun _ _ => trivial)) fun fields => ?_
    exact fillType_signs _ _ fun _ => rfl
  | data d => exact .get_bind fun b _ => declareVariants_signs ..
  | trait t | interface t =>
    exact .bind (.of_defines fun _ => .of_resolves (resolves_methodSignatures _)) fun _ =>
      ⟨fun _ _ => ⟨rfl, fun _ _ => rfl, by simp⟩⟩
  | impl i =>
    refine .resolve_bind (.bind (.of_defines fun _ => .of_resolves (resolves_resolveAll _))
      fun _ => ?_)
    exact (functionSignatures_signs ..).then_quiet fun _ =>
      ⟨fun _ _ => ⟨rfl, fun _ _ => rfl, by simp⟩⟩
  | script s => exact .pure _

end Build

/-! ## The finished table -/

/-- The declared result of a function, as the table has it. -/
def SymbolTable.resultOf (t : SymbolTable) (f : FunctionDecl) : Option Ty :=
  (t.functions.get? f.node.id).bind fun s => s.ret

theorem Decl.functionIds_sublist (d : Decl) :
    (d.functions.map fun f => f.node.id).Sublist d.ids := by
  have hmethods (fs : List FunctionDecl) :
      (fs.map fun f => f.node.id).Sublist (fs.flatMap FunctionDecl.ids) := by
    induction fs with
    | nil => exact .slnil
    | cons f fs ih => exact (ih.trans (List.sublist_append_right _ _)).cons_cons f.node.id
  cases d with
  | function f => exact (List.nil_sublist _).cons_cons f.node.id
  | classLike c => exact ((hmethods c.methods).trans (List.sublist_append_right _ _)).cons _
  | impl i => exact (hmethods i.methods).cons _
  | _ => exact List.nil_sublist _

/-- In the table of a unit whose nodes have identities of their own, a function has the result that
is written, resolved among the declared types and the type parameters around the function. -/
theorem Builder.resultOf_ofUnit (intrinsics : List (String × TypeExpr)) {u : SourceUnit}
    (hids : u.ids.Nodup) {d : Decl} (hd : d ∈ u.decls) {f : FunctionDecl} (hf : f ∈ d.functions) :
    let table := (Builder.ofUnit intrinsics u).table
    table.resultOf f = f.resultIn table.decls (d.generics table.decls) := by
  obtain ⟨-, hthird⟩ := Builder.follows_ofUnit intrinsics u
  -- The states before the second round and before the third.
  generalize hb' : ((Build.declare intrinsics u).run {}).2 = b' at hthird
  rw [Build.declare, Build.run_bind, Build.run_bind] at hb'
  generalize ((Build.seedIntrinsics intrinsics).run
    ((u.decls.forM Build.declareType).run {}).2).2 = b at hb'
  generalize Builder.ofUnit intrinsics u = last at hthird ⊢
  have hheads := ((Build.Signs.forM u.decls Build.declareMembers_signs).run b rfl).heads
  rw [hb', ← congrArg DeclIndex.selfType? hthird.decls] at hheads
  have hsigns := (Build.Signs.forM u.decls Build.declareMembers_signs).run b hheads.symm
  have hnodup : ((u.decls.flatMap (Decl.declaredResults last.table.decls)).map Prod.fst).Nodup := by
    refine (List.nodup_cons.1 hids).2.sublist ?_
    rw [List.map_flatMap]
    refine List.Sublist.flatMap_right u.decls fun d _ => ?_
    rw [Decl.declaredResults, List.map_map]
    exact d.functionIds_sublist
  have hsigned := hsigns.signed hnodup (f.node.id, f.resultIn last.table.decls
    (d.generics last.table.decls)) (List.mem_flatMap.2 ⟨d, hd, List.mem_map_of_mem hf⟩)
  rw [hb'] at hsigned
  have hfunctions : last.table.functions = b'.table.functions :=
    congrArg Declarations.functions hthird.declarations
  obtain ⟨s, hs, hret⟩ := Option.map_eq_some_iff.1 hsigned
  change last.table.resultOf f = _
  rw [SymbolTable.resultOf, hfunctions]
  rw [hs]
  exact hret

end UnitAnalysis

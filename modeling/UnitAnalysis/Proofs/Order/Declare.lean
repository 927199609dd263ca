import UnitAnalysis.Proofs.Order.Fill
import UnitAnalysis.Proofs.Symbols.Globals

/-!
# Declarations, one by one

What the first two rounds of a construction do for a declaration depends on the declaration, on what
is shown for its own nodes and names and, when written types are resolved, on which names are
declared. `declareType_fills` and `declareMembers_fills` say so for the two rounds, and
`seedIntrinsics_fills` for the functions that need no declaration.
-/

set_option autoImplicit false

namespace UnitAnalysis

/-- The name of a type, when a declaration has one. -/
def Decl.typeNames (d : Decl) : List String :=
  (d.typeHead?.map fun h => h.name).toList

/-- The names that a declaration gives to the global scope before bodies are looked at. -/
def Decl.ownNames (d : Decl) : List String :=
  d.typeNames ++ d.memberNames

theorem DeclIndex.get?_declare (ix : DeclIndex) (d : DeclaredType) (name : String) :
    (ix.declare d).get? name =
      if d.name = name then some ((ix.get? name).getD d) else ix.get? name := by
  unfold DeclIndex.declare
  by_cases hname : d.name = name
  · subst hname
    rw [if_pos rfl, contains_eq_isSome]
    cases hd : ix.get? d.name with
    | none =>
      rw [if_neg (by simp)]
      exact Table.get?_insert_self _ _ _
    | some first =>
      rw [if_pos (by simp), hd]
      rfl
  · rw [if_neg hname]
    split
    · rfl
    · exact Table.get?_insert_of_ne _ hname _

theorem DeclIndex.variant?_declare (ix : DeclIndex) (d : DeclaredType) (name : String) :
    (ix.declare d).variant? name = ix.variant? name := by
  unfold DeclIndex.declare
  split <;> rfl

/-- Declaring a type is shown under its name only. -/
theorem Builder.view_declare_of_ne (b : Builder) (d : DeclaredType) {k : Key}
    (htype : k ≠ .type d.name) (hdeclared : k ≠ .declared d.name) :
    Builder.view { b with table := { b.table with decls := b.table.decls.declare d } } k =
      b.view k := by
  cases k with
  | type name =>
    have hne : d.name ≠ name := fun heq => htype (heq ▸ rfl)
    change ((b.table.decls.declare d).get? name, (b.table.decls.declare d).variant? name) =
      (b.table.decls.get? name, b.table.decls.variant? name)
    rw [DeclIndex.get?_declare, if_neg hne, DeclIndex.variant?_declare]
  | declared name =>
    have hne : d.name ≠ name := fun heq => hdeclared (heq ▸ rfl)
    change ((b.table.decls.declare d).get? name).isSome = (b.table.decls.get? name).isSome
    rw [DeclIndex.get?_declare, if_neg hne]
  | _ => rfl

namespace Build

open Builder

variable {W R : Set Key}

/-! ## Names of types -/

theorem fills_shadow {id : NodeId} (hid : .node id ∈ W) :
    FillsGlobal W R (shadow id) := by
  have hset : ∀ b : Builder, Sets (.node id) (fun r => { r with isShadowed := true }) b
      { b with shadowed := id :: b.shadowed } := by
    intro b
    refine ⟨?_, fun j hj => ?_⟩
    · change Builder.nodeRecord _ id = _
      simp only [nodeRecord, List.mem_cons_self, decide_true]
      rfl
    · cases j with
      | node other =>
        have hne : other ≠ id := fun heq => hj (heq ▸ rfl)
        change Builder.nodeRecord _ other = b.nodeRecord other
        simp only [nodeRecord, List.mem_cons, hne, false_or]
      | _ => rfl
  exact ⟨fun b b' _ _ hW _ =>
    ⟨rfl, (hset b).moves (hset b') hid hW (logs_nothing b b'), ⟨rfl, rfl⟩, rfl, rfl⟩⟩

theorem fills_isShadowed {id : NodeId} (hid : .node id ∈ W) :
    FillsGlobal W R (isShadowed id) := by
  refine .get_bind fun b b' hW _ => ?_
  have hshadowed : decide (id ∈ b.shadowed) = decide (id ∈ b'.shadowed) :=
    congrArg NodeRecord.isShadowed (hW _ hid)
  rw [hshadowed]
  exact .pure _

theorem fills_isGlobalTrait {name : String} (hname : .global name ∈ W) :
    FillsGlobal W R (isGlobalTrait name) := by
  unfold isGlobalTrait
  refine .get_bind fun b b' hW _ => ?_
  have hfound : b.table.scopes.lookupLocal .global name = b'.table.scopes.lookupLocal .global name :=
    congrArg Prod.fst (hW _ hname)
  rw [hfound]
  cases b'.table.scopes.lookupLocal .global name with
  | none => exact .pure _
  | some symbol => exact .pure _

/-- Declaring a type is shown under its name and says that the name is declared. -/
theorem fills_declare {d : DeclaredType} (htype : .type d.name ∈ W)
    (hdeclared : .declared d.name ∈ W) :
    FillsGlobal W R
      (modifyTable fun table => { table with decls := table.decls.declare d }) := by
  refine ⟨fun b b' _ _ hW _ => ⟨rfl, ⟨?_, ?_, ?_, logs_nothing b b'⟩, ⟨rfl, rfl⟩, rfl, rfl⟩⟩
  · intro k hk
    by_cases hkt : k = .type d.name
    · subst hkt
      have hget : b.table.decls.get? d.name = b'.table.decls.get? d.name :=
        congrArg Prod.fst (hW _ htype)
      have hvariant : b.table.decls.variant? d.name = b'.table.decls.variant? d.name :=
        congrArg Prod.snd (hW _ htype)
      change ((b.table.decls.declare d).get? d.name, (b.table.decls.declare d).variant? d.name) =
        ((b'.table.decls.declare d).get? d.name, (b'.table.decls.declare d).variant? d.name)
      simp only [DeclIndex.get?_declare, DeclIndex.variant?_declare, hget, hvariant]
    · by_cases hkd : k = .declared d.name
      · subst hkd
        change ((b.table.decls.declare d).get? d.name).isSome =
          ((b'.table.decls.declare d).get? d.name).isSome
        simp only [DeclIndex.get?_declare, if_true, Option.isSome_some]
      · exact (b.view_declare_of_ne d hkt hkd).trans
          ((hW k hk).trans (b'.view_declare_of_ne d hkt hkd).symm)
  · exact fun k hk => (b.view_declare_of_ne d (ne_of_mem_of_not_mem htype hk).symm
      (ne_of_mem_of_not_mem hdeclared hk).symm).symm
  · exact fun k hk => (b'.view_declare_of_ne d (ne_of_mem_of_not_mem htype hk).symm
      (ne_of_mem_of_not_mem hdeclared hk).symm).symm

theorem fills_declareHead {h : TypeHead} (hid : .node h.node.id ∈ W) (htype : .type h.name ∈ W)
    (hdeclared : .declared h.name ∈ W) (hglobal : .global h.name ∈ W) :
    FillsGlobal W R (declareHead h) := by
  unfold declareHead
  refine (fills_isGlobalTrait hglobal).bind fun isTrait => ?_
  split
  · exact fills_shadow hid
  · refine (fills_define hglobal h.node.span).bind fun isDefined => ?_
    split
    · exact fills_declare htype hdeclared
    · exact fills_shadow hid

theorem declareType_fills {d : Decl} (hids : ∀ id ∈ d.ids, .node id ∈ W)
    (hnames : ∀ name ∈ d.ownNames, .type name ∈ W ∧ .declared name ∈ W ∧ .global name ∈ W) :
    FillsGlobal W R (declareType d) := by
  unfold declareType
  cases hhead : d.typeHead? with
  | none => exact .pure _
  | some h =>
    have hmem : h.name ∈ d.ownNames := by simp [Decl.ownNames, Decl.typeNames, hhead]
    obtain ⟨htype, hdeclared, hglobal⟩ := hnames h.name hmem
    refine fills_declareHead (hids h.node.id ?_) htype hdeclared hglobal
    cases d <;> cases hhead <;> exact List.mem_cons_self

section Reading

variable (hR : ∀ name, .declared name ∈ R)

include hR

/-- Notes are shown for their nodes. -/
theorem Fills.of_resolves {α : Type} {x : Build α}
    (h : Resolves (fun id => .node id ∈ W) (fun id => .node id ∈ W) x) : FillsGlobal W R x := by
  induction h with
  | pure a => exact .pure a
  | bind _ _ ih ih' => exact ih.bind ih'
  | resolve g e => exact fills_resolve hR g e
  | duplicate => exact fills_report _
  | annotate hid t => exact fills_annotate hid t
  | sign hs => exact fills_recordSignature hs

/-! ## Functions that need no declaration -/

theorem seedIntrinsics_fills (hglobal : ∀ name, .global name ∈ W)
    (extra : List (String × TypeExpr)) :
    FillsGlobal W R (seedIntrinsics extra) := by
  have hset : ∀ (name : String) (ret : Ty) (b : Builder),
      Sets (.global name) (fun v => (v.1, some ret)) b
        { b with table := { b.table with intrinsics := b.table.intrinsics.insert name ret } } := by
    intro name ret b
    refine ⟨congrArg (Prod.mk _) (Table.get?_insert_self ..), fun j hj => ?_⟩
    cases j with
    | global other =>
      have hne : name ≠ other := fun heq => hj (heq ▸ rfl)
      exact congrArg (Prod.mk _) (Table.get?_insert_of_ne _ hne _)
    | _ => rfl
  have hintrinsic : ∀ name ret,
      FillsGlobal W R (defineIntrinsic name ret) := by
    intro name ret
    unfold defineIntrinsic
    refine (fills_tryDefine (hglobal _)).bind fun result => ?_
    cases result with
    | ok _ => exact .modifyTable (hset name ret) (hglobal name) (fun _ => rfl) fun _ => rfl
    | error _ => exact .pure _
  unfold seedIntrinsics
  refine (Fills.of_resolves hR (resolves_resolveIntrinsics extra)).bind fun resolved => ?_
  generalize defaultIntrinsics ++ resolved = all
  induction all with
  | nil => exact .pure _
  | cons p rest ih => exact (hintrinsic p.1 p.2).bind fun _ => ih

/-! ## Members -/

omit hR in
theorem fills_fillType {id : NodeId} {name : String} (hid : .node id ∈ W) (hname : .type name ∈ W)
    (f : DeclaredType → DeclaredType) :
    FillsGlobal W R (fillType id name f) := by
  unfold fillType
  refine (fills_isShadowed hid).bind fun isShadowed => ?_
  split
  · exact .pure _
  · exact .modifyTable (fun b => sets_modifyType b name f) hname (fun _ => rfl) fun _ => rfl

omit hR in
/-- Listing a variant is shown for its data type and under its own name. -/
theorem fills_addVariant {v : Variant} (hparent : .type v.parent ∈ W) (hname : .type v.name ∈ W) :
    FillsGlobal W R
      (modifyTable fun table => { table with decls := table.decls.addVariant v }) := by
  have hlist : FillsGlobal W R
      (modifyTable fun table => { table with decls := table.decls.modify v.parent fun d =>
        { d with variants := d.variants ++ [v.name] } }) :=
    .modifyTable (fun b => sets_modifyType b v.parent _) hparent (fun _ => rfl) fun _ => rfl
  have hinsert : FillsGlobal W R
      (modifyTable fun table => { table with decls :=
        { table.decls with variants := table.decls.variants.insert v.name v } }) :=
    .modifyTable (fun b => sets_insertVariant b v) hname (fun _ => rfl) fun _ => rfl
  exact hlist.bind fun _ => hinsert

theorem fills_declareVariants {d : DataDecl} (g : Generics) (self : Ty)
    {variants : List VariantDecl} (hid : .node d.node.id ∈ W) (hparent : .type d.name ∈ W)
    (hids : ∀ v ∈ variants, ∀ f ∈ v.fields, .node f.node.id ∈ W)
    (hnames : ∀ v ∈ variants, .type v.name ∈ W ∧ .global v.name ∈ W) (seen : List String) :
    FillsGlobal W R (declareVariants d g self seen variants) := by
  induction variants generalizing seen with
  | nil => exact .pure _
  | cons v vs ih =>
    have hrest := ih (fun v hv => hids v (List.mem_cons_of_mem _ hv)) fun v hv =>
      hnames v (List.mem_cons_of_mem _ hv)
    obtain ⟨htype, hglobal⟩ := hnames v List.mem_cons_self
    unfold declareVariants
    split
    · exact (fills_report _).bind fun _ => hrest seen
    · refine .bind (.of_resolves hR (resolves_resolveFields (hids v List.mem_cons_self)))
        fun fields => ?_
      refine (fills_define hglobal v.node.span).bind fun isDefined => ?_
      refine (fills_isShadowed hid).bind fun isShadowed => ?_
      split
      · exact (fills_addVariant hparent htype).bind fun _ => hrest (v.name :: seen)
      · exact hrest (v.name :: seen)

theorem fills_declareData {d : DataDecl} (hids : ∀ id ∈ Decl.ids (.data d), .node id ∈ W)
    (hnames : ∀ name ∈ Decl.ownNames (.data d), .type name ∈ W ∧ .global name ∈ W) :
    FillsGlobal W R (declareData d) := by
  have hself : .type d.name ∈ W := (hnames d.name List.mem_cons_self).1
  refine .get_bind fun b b' hW _ => ?_
  have hget : b.table.decls.get? d.name = b'.table.decls.get? d.name :=
    congrArg Prod.fst (hW _ hself)
  dsimp only
  rw [typeGenerics_congr hget, selfType_congr hget]
  refine fills_declareVariants hR _ _ (hids _ List.mem_cons_self) hself (fun v hv f hf => ?_)
    (fun v hv => hnames v.name (List.mem_cons_of_mem _ (List.mem_map_of_mem hv))) []
  have hfield : f.node.id ∈ f.ids := List.mem_cons_self
  exact hids _ (List.mem_cons_of_mem _ (List.mem_flatMap.2
    ⟨v, hv, List.mem_cons_of_mem _ (List.mem_flatMap.2 ⟨f, hf, hfield⟩)⟩))

omit hR in
theorem sets_appendImpl (b : Builder) (impl : Implementation) :
    Sets (.node impl.origin) (fun r => { r with impl? := r.impl?.or (some impl) }) b
      { b with impls := b.impls ++ [impl] } := by
  refine ⟨?_, fun j hj => ?_⟩
  · change Builder.nodeRecord _ impl.origin = _
    simp only [nodeRecord, List.find?_append, List.find?_singleton, decide_true, if_true]
    rfl
  · cases j with
    | node other =>
      have hne : impl.origin ≠ other := fun heq => hj (heq ▸ rfl)
      change Builder.nodeRecord _ other = b.nodeRecord other
      simp [nodeRecord, List.find?_append, hne]
    | _ => rfl

omit hR in
theorem fills_appendImpl {impl : Implementation} (hid : .node impl.origin ∈ W) :
    FillsGlobal W R (modify fun b => { b with impls := b.impls ++ [impl] }) := by
  refine ⟨fun b b' _ _ hW _ => ⟨rfl, ?_, ⟨rfl, rfl⟩, rfl, rfl⟩⟩
  refine (sets_appendImpl b impl).moves (sets_appendImpl b' impl) hid hW ⟨[], [], [impl], ?_, ?_⟩
  · exact ⟨(List.append_nil _).symm, (List.append_nil _).symm, rfl⟩
  · exact ⟨(List.append_nil _).symm, (List.append_nil _).symm, rfl⟩

omit hR in
theorem fills_appendTrait (trait : Trait) :
    FillsGlobal W R (modify fun b => { b with traits := b.traits ++ [trait] }) := by
  refine ⟨fun b b' _ _ hW _ => ⟨rfl, ?_, ⟨rfl, rfl⟩, rfl, rfl⟩⟩
  refine .of_view (view_congr rfl rfl rfl) (view_congr rfl rfl rfl) hW ⟨[], [trait], [], ?_, ?_⟩
  · exact ⟨(List.append_nil _).symm, rfl, (List.append_nil _).symm⟩
  · exact ⟨(List.append_nil _).symm, rfl, (List.append_nil _).symm⟩

theorem fills_declareImpl {i : ImplDecl} (hids : ∀ id ∈ Decl.ids (.impl i), .node id ∈ W) :
    FillsGlobal W R (declareImpl i) := by
  unfold declareImpl
  refine (fills_resolve hR _ _).bind fun target => ?_
  refine .bind (.of_resolves hR (resolves_resolveAll _)) fun traitArgs => ?_
  refine .bind (.of_resolves hR (resolves_functionSignatures fun f hf => ?_)) fun methods => ?_
  · exact hids _ (List.mem_cons_of_mem _ (List.mem_flatMap.2 ⟨f, hf, List.mem_cons_self⟩))
  · exact fills_appendImpl (hids _ List.mem_cons_self)

theorem fills_declareTrait (isInterface : Bool) (t : TraitDecl) :
    FillsGlobal W R (declareTrait isInterface t) := by
  unfold declareTrait
  exact .bind (.of_resolves hR (resolves_methodSignatures _)) fun methods => fills_appendTrait _

/-- The second round for a type with fields and methods, the latter perhaps none. -/
theorem fills_declareClass {c : ClassDecl} (hids : ∀ id ∈ Decl.ids (.classLike c), .node id ∈ W)
    (hname : .type c.name ∈ W) :
    FillsGlobal W R (declareClass c) := by
  refine .get_bind fun b b' hW _ => ?_
  have hget : b.table.decls.get? c.name = b'.table.decls.get? c.name :=
    congrArg Prod.fst (hW _ hname)
  rw [typeGenerics_congr hget]
  refine .bind (.of_resolves hR (resolves_resolveFields fun f hf => ?_)) fun fields =>
    .bind (.of_resolves hR (resolves_collectMethods fun f hf => ?_)) fun methods =>
      fills_fillType (hids _ List.mem_cons_self) hname _
  · exact hids _ (List.mem_cons_of_mem _ (List.mem_append_left _
      (List.mem_flatMap.2 ⟨f, hf, List.mem_cons_self⟩)))
  · exact hids _ (List.mem_cons_of_mem _ (List.mem_append_right _
      (List.mem_flatMap.2 ⟨f, hf, List.mem_cons_self⟩)))

theorem fills_declareStruct (isSpark : Bool) {s : StructDecl}
    (hids : ∀ id ∈ Decl.ids (.struct s), .node id ∈ W) (hname : .type s.name ∈ W) :
    FillsGlobal W R (declareStruct isSpark s) := by
  refine .get_bind fun b b' hW _ => ?_
  have hget : b.table.decls.get? s.name = b'.table.decls.get? s.name :=
    congrArg Prod.fst (hW _ hname)
  rw [typeGenerics_congr hget]
  refine .bind (.of_resolves hR (resolves_resolveFields fun f hf => ?_)) fun fields =>
    fills_fillType (hids _ List.mem_cons_self) hname _
  exact hids _ (List.mem_cons_of_mem _ (List.mem_flatMap.2 ⟨f, hf, List.mem_cons_self⟩))

theorem declareMembers_fills {d : Decl} (hids : ∀ id ∈ d.ids, .node id ∈ W)
    (hnames : ∀ name ∈ d.ownNames, .type name ∈ W ∧ .global name ∈ W) :
    FillsGlobal W R (declareMembers d) := by
  cases d with
  | function f =>
    refine .bind (.of_resolves hR (resolves_functionSignature (hids _ List.mem_cons_self)))
      fun s => ?_
    exact (fills_define (hnames f.name List.mem_cons_self).2 _).bind fun _ => .pure _
  | classLike c => exact fills_declareClass hR hids (hnames c.name List.mem_cons_self).1
  | struct s => exact fills_declareStruct hR false hids (hnames s.name List.mem_cons_self).1
  | spark s => exact fills_declareStruct hR true hids (hnames s.name List.mem_cons_self).1
  | data d => exact fills_declareData hR hids hnames
  | trait t => exact fills_declareTrait hR false t
  | interface t => exact fills_declareTrait hR true t
  | impl i => exact fills_declareImpl hR hids
  | script s => exact .pure _

end Reading

end Build

end UnitAnalysis

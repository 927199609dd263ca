import UnitAnalysis.Proofs.Order.Rounds
import UnitAnalysis.Proofs.Symbols.Index

/-!
# The index through the rounds of a construction

Most steps of a construction are quiet: they define no name, declare no type and set nothing aside.
The others define one name each and may list it in the index. Between these two parts of a step the
index lags behind by that one symbol (`Builder.Defined`).

In the second round a data type lists its variants unless it is set aside. Declarations are set
aside by their identities, which may repeat, so one can be set aside for the sake of another. One
that is not set aside has its name since the first round; `NameHolder.Holds` carries this along. In
the third round only the names of the script become global.
-/

set_option autoImplicit false

namespace UnitAnalysis

/-- The declaration of a type, and what its name stands for unless it is set aside. -/
structure NameHolder where
  id : NodeId
  name : String
  kind : DeclKind
  self : Ty

namespace NameHolder

/-- What the head of a type declares. -/
def ofHead (h : TypeHead) : NameHolder where
  id := h.node.id
  name := h.name
  kind := h.kind
  self := DeclaredType.selfType
    { name := h.name, kind := h.kind, typeParams := Generics.toTypes h.typeParams,
      span := h.node.span }

/-- A declaration is set aside, or its name stands for its type. -/
def Holds (x : NameHolder) (b : Builder) : Prop :=
  x.id ∈ b.shadowed ∨
    ∃ d, b.table.decls.get? x.name = some d ∧ d.kind = x.kind ∧ d.selfType = x.self

theorem Holds.mono {x : NameHolder} {b c : Builder} (h : x.Holds b)
    (hshadowed : b.shadowed ⊆ c.shadowed)
    (hdecls : ∀ {name d}, b.table.decls.get? name = some d →
      ∃ d', c.table.decls.get? name = some d' ∧ d'.SameHead d) : x.Holds c := by
  rcases h with haside | ⟨d, hd, hkind, hself⟩
  · exact .inl (hshadowed haside)
  · obtain ⟨d', hd', hhead⟩ := hdecls hd
    exact .inr ⟨d', hd', hhead.kind.trans hkind, hhead.selfType.trans hself⟩

end NameHolder

namespace Builder

/-- The index fits the global scope, and declarations that are not set aside have their names. -/
structure Indexed (holders : List NameHolder) (b : Builder) : Prop where
  pos : 0 < b.table.scopes.size
  agrees : b.table.decls.Agrees (b.table.scopes.lookupLocal .global)
  holds : ∀ x ∈ holders, x.Holds b

/-- A symbol was just defined, and the index fits what was there before. -/
structure Defined (holders : List NameHolder) (s : Symbol) (b : Builder) : Prop where
  pos : 0 < b.table.scopes.size
  before : ∃ globals, b.table.decls.Agrees globals ∧
    s.Adds globals (b.table.scopes.lookupLocal .global)
  holds : ∀ x ∈ holders, x.Holds b

/-- Two states have the same scopes and types, and the same declarations are set aside. -/
structure SameNames (b c : Builder) : Prop where
  scopes : c.table.scopes = b.table.scopes
  decls : c.table.decls = b.table.decls
  shadowed : c.shadowed = b.shadowed

/-- The index fits when bodies are walked through, and scopes are found by their nodes. -/
structure Walkable (b : Builder) : Prop where
  rooted : b.Rooted
  indexed : b.Indexed []

theorem indexed_empty : Indexed [] {} where
  pos := Nat.one_pos
  agrees := DeclIndex.Agrees.empty.congr ⟨fun _ => rfl, fun _ => rfl⟩ fun _ => rfl
  holds := nofun

variable {holders : List NameHolder} {b c : Builder} {s : Symbol}

theorem SameNames.trans {b' : Builder} (h : SameNames b c) (h' : SameNames c b') :
    SameNames b b' :=
  ⟨h'.scopes.trans h.scopes, h'.decls.trans h.decls, h'.shadowed.trans h.shadowed⟩

theorem SameNames.indexed (h : SameNames b c) (hb : b.Indexed holders) : c.Indexed holders where
  pos := h.scopes ▸ hb.pos
  agrees := by
    rw [h.scopes, h.decls]
    exact hb.agrees
  holds x hx := by
    refine (hb.holds x hx).mono (fun _ hid => h.shadowed ▸ hid) fun {name d} hd => ⟨d, ?_, .refl d⟩
    rw [h.decls]
    exact hd

theorem Indexed.mono {more : List NameHolder} (h : b.Indexed holders) (hsub : more ⊆ holders) :
    b.Indexed more :=
  ⟨h.pos, h.agrees, fun x hx => h.holds x (hsub hx)⟩

theorem Indexed.cons {x : NameHolder} (h : b.Indexed holders) (hx : x.Holds b) :
    b.Indexed (x :: holders) :=
  ⟨h.pos, h.agrees, List.forall_mem_cons.2 ⟨hx, h.holds⟩⟩

theorem Indexed.shadow (h : b.Indexed holders) (id : NodeId) :
    Indexed holders { b with shadowed := id :: b.shadowed } where
  pos := h.pos
  agrees := h.agrees
  holds x hx := (h.holds x hx).mono (List.subset_cons_self _ _) fun {_ d} hd => ⟨d, hd, .refl d⟩

theorem Indexed.modify {f : DeclaredType → DeclaredType}
    (hf : ∀ d, (f d).SameHead d ∧ (f d).variants = d.variants) (h : b.Indexed holders)
    (name : String) :
    Indexed holders { b with table := { b.table with decls := b.table.decls.modify name f } } where
  pos := h.pos
  agrees := h.agrees.modify hf name
  holds x hx := (h.holds x hx).mono (fun _ hid => hid) fun hd =>
    DeclIndex.exists_get?_modify (fun d => (hf d).1) hd

namespace Defined

/-- A symbol that stands for no type needs no entry. -/
theorem indexed (h : b.Defined holders s) (hkind : s.kind ∉ SymbolKind.ofTypes) :
    b.Indexed holders := by
  obtain ⟨globals, hagrees, hadds⟩ := h.before
  exact ⟨h.pos, hagrees.define hadds hkind, h.holds⟩

theorem declare {d : DeclaredType} (h : b.Defined holders s) (hname : s.name = d.name)
    (hdeclares : s.Declares d) (hvariants : d.variants = []) (id : NodeId) :
    Indexed (⟨id, d.name, d.kind, d.selfType⟩ :: holders)
      { b with table := { b.table with decls := b.table.decls.declare d } } := by
  obtain ⟨globals, hagrees, hadds⟩ := h.before
  have hfree : b.table.decls.get? d.name = none := hagrees.get?_eq_none (hname ▸ hadds.free)
  have hself : (b.table.decls.declare d).get? d.name = some d := by
    rw [DeclIndex.get?_declare, if_pos rfl, hfree, Option.getD_none]
  refine ⟨h.pos, hagrees.declare hadds hname hdeclares hvariants, ?_⟩
  refine List.forall_mem_cons.2 ⟨.inr ⟨d, hself, rfl, rfl⟩, fun x hx => ?_⟩
  refine (h.holds x hx).mono (fun _ hid => hid) fun {name other} hother => ⟨other, ?_, .refl other⟩
  exact DeclIndex.get?_declare_of_eq_some hother

theorem addVariant {v : Variant} {d : DeclaredType} (h : b.Defined holders s)
    (hname : s.name = v.name) (hd : b.table.decls.get? v.parent = some d) (hdata : d.kind = .data)
    (hconstructs : s.Constructs v d) :
    Indexed holders { b with table := { b.table with decls := b.table.decls.addVariant v } } := by
  obtain ⟨globals, hagrees, hadds⟩ := h.before
  have hkind : s.kind ∉ SymbolKind.ofTypes :=
    hconstructs.kind ▸ SymbolKind.function_not_mem_ofTypes
  refine ⟨h.pos, (hagrees.define hadds hkind).addVariant hd hdata (hname ▸ hadds.self) hconstructs
    (hagrees.variant?_eq_none (hname ▸ hadds.free)), fun x hx => ?_⟩
  exact (h.holds x hx).mono (fun _ hid => hid) DeclIndex.exists_get?_addVariant

end Defined

end Builder

namespace Build

open Builder

/-! ## Quiet steps -/

/-- A step defines no name, declares no type and sets nothing aside. -/
structure Quiet {α : Type} (x : Build α) : Prop where
  run : ∀ b, SameNames b (x.run b).2

variable {α β : Type} {holders : List NameHolder}

/-- A step keeps the index fitting. -/
abbrev KeepsIndex (holders : List NameHolder) (x : Build α) : Prop :=
  UnitAnalysis.Keeps (Indexed holders) x

namespace Quiet

theorem pure (a : α) : Quiet (Pure.pure a) :=
  ⟨fun _ => ⟨rfl, rfl, rfl⟩⟩

theorem bind {x : Build α} {f : α → Build β} (hx : x.Quiet) (hf : ∀ a, (f a).Quiet) :
    (x >>= f).Quiet :=
  ⟨fun b => (hx.run b).trans ((hf (x.run b).1).run (x.run b).2)⟩

theorem get_bind {f : Builder → Build α} (hf : ∀ b, (f b).Quiet) : (get >>= f).Quiet :=
  ⟨fun b => (hf b).run b⟩

theorem modifyTable {f : SymbolTable → SymbolTable} (hscopes : ∀ t, (f t).scopes = t.scopes)
    (hdecls : ∀ t, (f t).decls = t.decls) : (Build.modifyTable f).Quiet :=
  ⟨fun _ => ⟨hscopes _, hdecls _, rfl⟩⟩

theorem keeps {x : Build α} (hx : x.Quiet) : KeepsIndex holders x :=
  ⟨fun b hb => (hx.run b).indexed hb⟩

end Quiet

theorem quiet_report (found : List Finding) : (report found).Quiet :=
  ⟨fun _ => ⟨rfl, rfl, rfl⟩⟩

theorem quiet_visitAll (vs : List Visit) : (visitAll vs).Quiet :=
  ⟨fun _ => ⟨rfl, rfl, rfl⟩⟩

theorem quiet_annotate (id : NodeId) (t : Ty) : (annotate id t).Quiet :=
  .modifyTable (fun _ => rfl) fun _ => rfl

theorem Quiet.of_resolves {x : Build α} (h : Resolves (fun _ => True) (fun _ => True) x) :
    x.Quiet := by
  induction h with
  | pure a => exact .pure a
  | bind _ _ ih ih' => exact .bind ih ih'
  | resolve g e => exact .get_bind fun _ => .bind (quiet_report _) fun _ => .pure _
  | duplicate => exact quiet_report _
  | annotate _ t => exact quiet_annotate _ t
  | sign => exact .modifyTable (fun _ => rfl) fun _ => rfl

theorem quiet_isShadowed (id : NodeId) : (isShadowed id).Quiet :=
  .get_bind fun _ => .pure _

theorem quiet_isGlobalTrait (name : String) : (isGlobalTrait name).Quiet := by
  unfold isGlobalTrait
  refine .get_bind fun b => ?_
  split
  · exact .pure _
  · exact .pure _

theorem quiet_declareTrait (isInterface : Bool) (t : TraitDecl) :
    (declareTrait isInterface t).Quiet :=
  .bind (.of_resolves (resolves_methodSignatures _)) fun _ => ⟨fun _ => ⟨rfl, rfl, rfl⟩⟩

theorem quiet_declareImpl (i : ImplDecl) : (declareImpl i).Quiet :=
  .bind (.of_resolves (.resolve ..)) fun _ => .bind (.of_resolves (resolves_resolveAll _)) fun _ =>
    .bind (.of_resolves (resolves_functionSignatures fun _ _ => trivial)) fun _ =>
      ⟨fun _ => ⟨rfl, rfl, rfl⟩⟩

/-! ## Definitions -/

theorem indexed_tryDefine (s : Symbol) :
    Meets (Indexed holders) (tryDefine .global s) fun result b =>
      (result = .ok () ∧ b.Defined holders s) ∨ ((∃ e, result = .error e) ∧ b.Indexed holders) := by
  refine ⟨fun b hb => ?_⟩
  cases hfirst : b.table.scopes.lookupLocal .global s.name with
  | some first =>
    rw [tryDefine_run_of_some hfirst]
    exact .inr ⟨⟨_, rfl⟩, hb⟩
  | none =>
    rw [tryDefine_run_of_none hfirst]
    refine .inl ⟨rfl, Nat.lt_of_lt_of_eq hb.pos Array.size_modify.symm, ⟨_, hb.agrees, ?_⟩,
      hb.holds⟩
    exact b.table.scopes.adds_insert hb.pos hfirst

theorem indexed_define (s : Symbol) (site : Span) :
    Meets (Indexed holders) (define .global s site) fun isDefined b =>
      if isDefined then b.Defined holders s else b.Indexed holders := by
  refine (indexed_tryDefine s).bind fun result => ?_
  refine ⟨fun b hb => ?_⟩
  rcases hb with ⟨rfl, hdefined⟩ | ⟨⟨e, rfl⟩, hindexed⟩
  · exact hdefined
  · cases e with
    | redefinition name first => exact (quiet_report _).keeps.run b hindexed
    | leftGlobal => exact hindexed

/-- A name that stands for no type is defined, or was taken. -/
theorem keepsIndex_define {s : Symbol} (hkind : s.kind ∉ SymbolKind.ofTypes) (site : Span) :
    KeepsIndex holders (define .global s site) := by
  refine (indexed_define s site).mono (fun _ h => h) fun isDefined b hb => ?_
  cases isDefined with
  | true => exact hb.indexed hkind
  | false => exact hb

/-! ## The first two rounds -/

theorem indexed_shadow (h : TypeHead) :
    Meets (Indexed holders) (shadow h.node.id) fun _ => Indexed (.ofHead h :: holders) :=
  .modify fun _ hb => (hb.shadow h.node.id).cons (.inl List.mem_cons_self)

theorem indexed_declareHead (h : TypeHead) :
    Meets (Indexed holders) (declareHead h) fun _ => Indexed (.ofHead h :: holders) := by
  unfold declareHead
  refine (quiet_isGlobalTrait h.name).keeps.bind fun isTrait => ?_
  split
  · exact indexed_shadow h
  · refine (indexed_define _ _).bind fun isDefined => ?_
    cases isDefined with
    | false => exact indexed_shadow h
    | true => exact .modify fun _ hb => hb.declare rfl ⟨rfl, rfl⟩ rfl h.node.id

theorem indexed_declareType (d : Decl) :
    Meets (Indexed holders) (declareType d) fun _ =>
      Indexed ((d.typeHead?.map .ofHead).toList ++ holders) := by
  unfold declareType
  cases d.typeHead? with
  | none => exact .pure fun _ hb => hb
  | some h => exact indexed_declareHead h

/-- The first round: every declaration of a type has its name or is set aside. -/
theorem indexed_declareTypes (decls : List Decl) :
    Meets (Indexed holders) (decls.forM declareType) fun _ b =>
      ∃ more, b.Indexed more ∧ holders ⊆ more ∧
        ∀ d ∈ decls, ∀ h, d.typeHead? = some h → .ofHead h ∈ more := by
  induction decls generalizing holders with
  | nil => exact .pure fun _ hb => ⟨holders, hb, List.Subset.refl _, nofun⟩
  | cons d decls ih =>
    refine (indexed_declareType d).bind fun _ => ih.mono (fun _ hb => hb) fun _ b hb => ?_
    obtain ⟨more, hb, hsub, hmore⟩ := hb
    refine ⟨more, hb, fun x hx => hsub (List.mem_append_right _ hx), ?_⟩
    refine List.forall_mem_cons.2 ⟨fun h hhead => hsub ?_, hmore⟩
    rw [hhead]
    exact List.mem_cons_self

theorem keepsIndex_defineIntrinsic (name : String) (ret : Ty) :
    KeepsIndex holders (defineIntrinsic name ret) := by
  refine (indexed_tryDefine _).bind fun result => ⟨fun b hb => ?_⟩
  rcases hb with ⟨rfl, hdefined⟩ | ⟨⟨e, rfl⟩, hindexed⟩
  · have hrecord : (modifyTable fun table =>
        { table with intrinsics := table.intrinsics.insert name ret }).Quiet :=
      .modifyTable (fun _ => rfl) fun _ => rfl
    exact hrecord.keeps.run b (hdefined.indexed SymbolKind.function_not_mem_ofTypes)
  · exact hindexed

theorem keepsIndex_seedIntrinsics (extra : List (String × TypeExpr)) :
    KeepsIndex holders (seedIntrinsics extra) :=
  (Quiet.of_resolves (resolves_resolveIntrinsics extra)).keeps.bind fun _ =>
    .forM fun p _ => keepsIndex_defineIntrinsic p.1 p.2

theorem keepsIndex_fillType {f : DeclaredType → DeclaredType}
    (hf : ∀ d, (f d).SameHead d ∧ (f d).variants = d.variants) (id : NodeId) (name : String) :
    KeepsIndex holders (fillType id name f) := by
  unfold fillType
  refine (quiet_isShadowed id).keeps.bind fun isAside => ?_
  split
  · exact .pure fun _ hb => hb
  · exact .modify fun _ hb => hb.modify hf name

theorem meets_isShadowed {P : Builder → Prop} (id : NodeId) :
    Meets P (isShadowed id) fun isAside b => P b ∧ isAside = decide (id ∈ b.shadowed) :=
  ⟨fun _ hb => ⟨hb, rfl⟩⟩

/-- A data type that is not set aside is in the index, so it can list a variant whose name was
free. -/
theorem keepsIndex_declareVariants (d : DataDecl) (g : Generics) {self : Ty}
    (hd : ⟨d.node.id, d.name, .data, self⟩ ∈ holders) (seen : List String)
    (variants : List VariantDecl) :
    KeepsIndex holders (declareVariants d g self seen variants) := by
  induction variants generalizing seen with
  | nil => exact .pure _
  | cons v variants ih =>
    unfold declareVariants
    split
    · exact (quiet_report _).keeps.bind fun _ => ih seen
    · have hfields : (resolveFields v.name true g [] v.fields).Quiet :=
        .of_resolves (resolves_resolveFields fun _ _ => trivial)
      refine hfields.keeps.bind fun fields => ?_
      refine (indexed_define _ v.node.span).bind fun isDefined => ?_
      refine (meets_isShadowed d.node.id).bind fun isAside => ?_
      have hrest : KeepsIndex holders (declareVariants d g self (v.name :: seen) variants) :=
        ih _
      cases isDefined with
      | false => exact hrest.mono (fun _ hb => hb.1) fun _ _ hb => hb
      | true =>
        cases isAside with
        | true =>
          exact hrest.mono (fun _ hb => hb.1.indexed SymbolKind.function_not_mem_ofTypes)
            fun _ _ hb => hb
        | false =>
          refine Meets.bind (.modify fun b hb => ?_) fun _ => hrest
          obtain ⟨hdefined, haside⟩ := hb
          rcases hdefined.holds _ hd with hid | ⟨dt, hdt, hkind, hself⟩
          · exact absurd hid (of_decide_eq_false haside.symm)
          · exact hdefined.addVariant rfl hdt hkind ⟨rfl, by rw [hself]⟩

theorem keepsIndex_declareData {d : DataDecl} {self : Ty}
    (hd : ⟨d.node.id, d.name, .data, self⟩ ∈ holders) :
    KeepsIndex holders (declareData d) := by
  refine Meets.look fun b hb => ?_
  let x : NameHolder := ⟨d.node.id, d.name, .data, selfType b.table.decls d.name⟩
  have hholds : x.Holds b := by
    rcases hb.holds _ hd with haside | ⟨dt, hdt, hkind, -⟩
    · exact .inl haside
    · refine .inr ⟨dt, hdt, hkind, ?_⟩
      simp only [x, selfType, hdt]
  have hmem : x ∈ x :: holders := List.mem_cons_self
  have hvariants := keepsIndex_declareVariants d
    (typeGenerics b.table.decls d.name d.typeParams) hmem [] d.variants
  exact (Meets.from_state hvariants (hb.cons hholds)).mono (fun _ h => h) fun _ _ hc =>
    hc.mono (List.subset_cons_self _ _)

theorem keepsIndex_declareMembers {d : Decl}
    (hd : ∀ h, d.typeHead? = some h → NameHolder.ofHead h ∈ holders) :
    KeepsIndex holders (declareMembers d) := by
  have hfields (owner : String) (isFrozen : Bool) (g : Generics) (fields : List FieldDecl) :
      (resolveFields owner isFrozen g [] fields).Quiet :=
    .of_resolves (resolves_resolveFields fun _ _ => trivial)
  cases d with
  | function f =>
    refine (Quiet.of_resolves (resolves_functionSignature trivial)).keeps.bind fun s => ?_
    exact (keepsIndex_define SymbolKind.function_not_mem_ofTypes f.node.span).bind fun _ =>
      .pure fun _ hb => hb
  | classLike c =>
    refine Keeps.look fun b _ => (hfields ..).keeps.bind fun fields => ?_
    refine (Quiet.of_resolves (resolves_collectMethods fun _ _ => trivial)).keeps.bind fun _ => ?_
    refine keepsIndex_fillType (fun _ => ?_) c.node.id c.name
    exact ⟨⟨rfl, rfl, rfl⟩, rfl⟩
  | struct s | spark s =>
    refine Keeps.look fun b _ => (hfields ..).keeps.bind fun fields => ?_
    refine keepsIndex_fillType (fun _ => ?_) s.node.id s.name
    exact ⟨⟨rfl, rfl, rfl⟩, rfl⟩
  | data d => exact keepsIndex_declareData (hd _ rfl)
  | trait t => exact (quiet_declareTrait false t).keeps
  | interface t => exact (quiet_declareTrait true t).keeps
  | impl i => exact (quiet_declareImpl i).keeps
  | script s => exact .pure _

theorem indexed_declare (intrinsics : List (String × TypeExpr)) (u : SourceUnit) :
    Meets (Indexed []) (declare intrinsics u) fun _ => Indexed [] := by
  refine (indexed_declareTypes u.decls).bind fun _ => ⟨fun b hb => ?_⟩
  obtain ⟨more, hb, -, hmore⟩ := hb
  have hmembers : KeepsIndex more (u.decls.forM declareMembers) :=
    .forM fun d hd => keepsIndex_declareMembers (hmore d hd)
  have hrest := (keepsIndex_seedIntrinsics intrinsics).bind fun _ => hmembers
  exact (hrest.run b hb).mono (List.nil_subset _)

/-! ## The third round -/

theorem keepsIndex_runSteps (isMutable : Bool) (site : Span) (seen : List String)
    (steps : List BindStep) :
    KeepsIndex holders (runSteps .global isMutable site seen steps) := by
  induction steps generalizing seen with
  | nil => exact .pure _
  | cons step steps ih =>
    cases step with
    | report finding => exact (quiet_report _).keeps.bind fun _ => ih seen
    | annotate id t => exact (quiet_annotate id t).keeps.bind fun _ => ih seen
    | bind name node declared =>
      unfold runSteps
      split
      · exact (quiet_report _).keeps.bind fun _ => ih seen
      · refine Keeps.bind (keepsIndex_define ?_ site) fun _ => ih _
        exact SymbolKind.variableName_not_mem_ofTypes

theorem keepsIndex_defineLet (g : Generics) (node : Node) (p : Pattern) (ty : Option TypeExpr)
    (isMutable : Bool) : KeepsIndex holders (defineLet g .global node p ty isMutable) := by
  refine (Quiet.of_resolves (resolves_resolveOption ty)).keeps.bind fun declared => ?_
  have hpattern : KeepsIndex holders
      (definePattern g .global isMutable declared node.span p) :=
    (quiet_visitAll _).keeps.bind fun _ => Keeps.look fun _ _ => keepsIndex_runSteps ..
  cases declared with
  | none => exact hpattern
  | some t => exact (quiet_annotate node.id t).keeps.bind fun _ => hpattern

/-- A walk that works on nodes only leaves the index and the global names alone. -/
theorem Acts.keepsIndex {W R : Set Key} {x : Build Unit} (h : Acts W R x)
    (hindex : Key.index ⊆ Wᶜ) (hglobal : Key.isGlobal ⊆ Wᶜ) :
    UnitAnalysis.Keeps Walkable x := by
  refine ⟨fun b hb => ?_⟩
  obtain ⟨hrooted, hindexed⟩ := hb
  have hwalked := h.run b b hrooted hrooted (.refl W b) (.refl R b)
  have hkept := hwalked.moves.kept.symm
  have htypes : ∀ name, (x.run b).2.view (.type name) = b.view (.type name) :=
    fun name => hkept (.type name) (hindex trivial)
  have hglobals : ∀ name, (x.run b).2.view (.global name) = b.view (.global name) :=
    fun name => hkept (.global name) (hglobal trivial)
  refine ⟨hwalked.rooted, hwalked.rooted.pos, hindexed.agrees.congr ?_ fun name => ?_, nofun⟩
  · exact ⟨fun name => congrArg Prod.fst (htypes name), fun name => congrArg Prod.snd (htypes name)⟩
  · exact congrArg Prod.fst (hglobals name)

theorem keepsIndex_visitExpr (g : Generics) (scope : ScopeId) (e : Expr) :
    UnitAnalysis.Keeps Walkable (visitExpr g scope e) := by
  let nodes : Set Key := fun k => ∃ id, k = .node id
  have hacts : Acts nodes Key.index (visitExpr g scope e) :=
    .of_walks (visitExpr_walks g scope scope e) fun id _ => ⟨id, rfl⟩
  refine hacts.keepsIndex ?_ ?_
  · rintro k hk ⟨id, rfl⟩
    exact hk
  · rintro k hk ⟨id, rfl⟩
    exact hk

theorem indexed_visitScript (s : Stmt) :
    Meets Walkable (visitScript s) fun _ => Indexed [] := by
  cases s with
  | letBind node pattern ty isMutable value =>
    have hremember : (modifyTable fun table =>
        { table with scopeMap := table.scopeMap.insert node.id .global }).Quiet :=
      .modifyTable (fun _ => rfl) fun _ => rfl
    have hlet : KeepsIndex [] (modifyTable (fun table =>
        { table with scopeMap := table.scopeMap.insert node.id .global }) >>= fun _ =>
          defineLet {} .global node pattern ty isMutable) :=
      hremember.keeps.bind fun _ => keepsIndex_defineLet ..
    exact (keepsIndex_visitExpr {} .global value).bind fun _ =>
      hlet.mono (fun _ hb => hb.indexed) fun _ _ hb => hb
  | expr node value =>
    exact (keepsIndex_visitExpr {} .global value).mono (fun _ hb => hb) fun _ _ hb => hb.indexed

theorem keepsIndex_visitDecl (d : Decl) :
    UnitAnalysis.Keeps Walkable (visitDecl d) := by
  have hacts := acts_visitDecl d
  cases hscript : d.isScript with
  | false =>
    refine hacts.keepsIndex (fun _ hk hkeys => d.visitKeys_subset hkeys hk) ?_
    intro k hk hkeys
    cases k with
    | global name =>
      rw [show d.isScript = true from hkeys] at hscript
      cases hscript
    | _ => exact hk
  | true =>
    cases d with
    | script s =>
      refine ⟨fun b hb => ⟨?_, (indexed_visitScript s).run b hb⟩⟩
      exact (hacts.run b b hb.rooted hb.rooted (.refl _ b) (.refl _ b)).rooted
    | _ => cases hscript

theorem Acts.keepsRooted {W R : Set Key} {x : Build Unit} (h : Acts W R x) :
    UnitAnalysis.Keeps Rooted x :=
  ⟨fun b hb => (h.run b b hb hb (.refl W b) (.refl R b)).rooted⟩

theorem keepsRooted_declare (intrinsics : List (String × TypeExpr)) (u : SourceUnit) :
    UnitAnalysis.Keeps Rooted (declare intrinsics u) :=
  Meets.bind (.forM fun d _ => (acts_declareType d).keepsRooted) fun _ =>
    (acts_seedIntrinsics intrinsics).keepsRooted.bind fun _ =>
      .forM fun d _ => (acts_declareMembers d).keepsRooted

end Build

theorem Builder.indexed_ofUnit (intrinsics : List (String × TypeExpr)) (u : SourceUnit) :
    (Builder.ofUnit intrinsics u).Indexed [] := by
  have hrooted := (Build.keepsRooted_declare intrinsics u).run {} rooted_empty
  have hindexed := (Build.indexed_declare intrinsics u).run {} indexed_empty
  have hround : Keeps Walkable (u.decls.forM Build.visitDecl) :=
    .forM fun d _ => Build.keepsIndex_visitDecl d
  rw [Build.ofUnit_eq]
  exact (hround.run _ ⟨hrooted, hindexed⟩).indexed

/-- **The index of declared types agrees with the global scope.** Whatever a unit declares, and
however often: a name is declared exactly if the global scope has it as the name of a type, which is
then of the declared kind and has the type of its values. An indexed variant belongs to a declared
data type that lists it once, and its name is a global function from its fields to that type; what a
type lists is indexed as its own. -/
theorem index_agrees_with_globals (intrinsics : List (String × TypeExpr)) (u : SourceUnit) :
    let table := (Builder.ofUnit intrinsics u).table
    let globals := table.scopes.lookupLocal .global
    (∀ name, table.decls.contains name = true ↔ ∃ s, globals name = some s ∧ s.name = name ∧
      s.kind ∈ [SymbolKind.struct, .spark, .data, .trait]) ∧
    (∀ name d, table.decls.get? name = some d → d.name = name ∧ ∃ s, globals name = some s ∧
      s.kind = d.kind.symbolKind ∧ s.declaredType = some d.selfType) ∧
    (∀ name v, table.decls.variant? name = some v → v.name = name ∧
      ∃ d, table.decls.get? v.parent = some d ∧ d.kind = .data ∧ d.variants.count name = 1 ∧
      ∃ s, globals name = some s ∧ s.kind = .function ∧
        s.declaredType = some (.function (v.fields.map fun f => f.ty) d.selfType)) ∧
    (∀ name d, table.decls.get? name = some d → ∀ v ∈ d.variants,
      ∃ w, table.decls.variant? v = some w ∧ w.parent = name) := by
  intro table globals
  have hagrees : table.decls.Agrees globals := (Builder.indexed_ofUnit intrinsics u).agrees
  clear_value globals table
  refine ⟨fun name => ⟨fun hname => ?_, ?_⟩, fun name d hd => ?_, fun name v hv => ?_,
    fun name d hd => hagrees.listed hd⟩
  · obtain ⟨d, hd⟩ := Option.isSome_iff_exists.1 hname
    obtain ⟨-, s, hs, hdeclares⟩ := hagrees.type hd
    exact ⟨s, hs, hagrees.named hs, hdeclares.kind ▸ d.kind.symbolKind_mem_ofTypes⟩
  · rintro ⟨s, hs, -, hkind⟩
    exact hagrees.declared hs hkind
  · obtain ⟨hname, s, hs, hdeclares⟩ := hagrees.type hd
    exact ⟨hname, s, hs, hdeclares.kind, hdeclares.declaredType⟩
  · obtain ⟨hname, d, s, hd, hs, hkind, hcount, hconstructs⟩ := hagrees.variant hv
    exact ⟨hname, d, hd, hkind, hcount, s, hs, hconstructs.kind, hconstructs.declaredType⟩

end UnitAnalysis

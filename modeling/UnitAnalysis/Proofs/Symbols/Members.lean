import Mathlib.Data.List.Zip
import UnitAnalysis.Proofs.Symbols.Indexed
import UnitAnalysis.Proofs.Symbols.Table
import UnitAnalysis.Proofs.Trait.Departures

/-!
# Members of instances

The types of the members of a declaration have the type parameters of the declaration only, `Self`
being the type of its values. So what a member is for an instance of the declaration is that
instance of what it is for the declaration itself.

For the declaration itself a member is what is written, but for one thing. The arguments of a
receiver are found by the names of the type parameters, so where two of these share a name, the last
one counts for both, and with it its bounds.
-/

set_option autoImplicit false

namespace UnitAnalysis

/-- A type has the given type parameters only. -/
def Ty.Over (typeParams : List Ty) (t : Ty) : Prop :=
  ∀ p ∈ t.params, .param p.1 p.2 ∈ typeParams

namespace DeclaredType

variable {d : DeclaredType} {t : Ty}

/-- The last type parameter of a name. -/
def lastParam? (d : DeclaredType) (name : String) : Option Ty :=
  d.typeParams.reverse.find? fun p => p.paramName? = some name

/-- The types of the members of a declaration have its type parameters only. -/
structure Closed (d : DeclaredType) : Prop where
  nodup : (d.fields.map fun f => f.name).Nodup
  fields : ∀ f ∈ d.fields, f.ty.Over d.typeParams
  methods : ∀ name s, d.methods.get? name = some s → s.typeParams = [] →
    ∀ t ∈ s.paramTypes ++ s.ret.toList, t.Over d.typeParams

/-- What a member is for an instance of a declaration. -/
structure Instantiates (d : DeclaredType) (s : Subst) (t : Ty) : Prop where
  /-- It is the instance of what the member is for the declaration. -/
  through : d.instantiate (s.apply d.selfType) t = s.apply (d.instantiate d.selfType t)
  /-- It is the instance of what is written just when each type parameter that stays is the last of
  its name. -/
  exact_iff : d.instantiate (s.apply d.selfType) t = s.apply t ↔
    ∀ p ∈ t.params, s.get? p.1 = none → d.lastParam? p.1 = some (.param p.1 p.2)
  /-- It is, whenever type parameters of one name are the same. -/
  of_unique : (∀ p ∈ d.typeParams, ∀ q ∈ d.typeParams, p.paramName? = q.paramName? → p = q) →
    d.instantiate (s.apply d.selfType) t = s.apply t

/-! ## Pairing type parameters with arguments -/

theorem get?_pairParams (f : Ty → Ty) (d : DeclaredType) (name : String) :
    (Subst.ofList (pairParams d.typeParams (d.typeParams.map f))).get? name =
      (d.lastParam? name).map f := by
  have hfind : ∀ params : List Ty, ((params.map fun p => (p, f p)).findSome? fun p =>
      if p.1.paramName? = some name then some p.2 else none) =
        (params.find? fun p => p.paramName? = some name).map f := by
    intro params
    induction params with
    | nil => rfl
    | cons p params ih =>
      by_cases hname : p.paramName? = some name
      · simp [hname]
      · simpa [hname] using ih
  unfold Subst.get? Subst.ofList lastParam?
  rw [Table.get?_ofList, Implementation.pairParams_eq_filterMap, ← List.filterMap_reverse,
    Implementation.map_find?_filterMap_paramName?, ← List.map_prod_left_eq_zip,
    ← List.map_reverse, hfind]

theorem apply_empty (t : Ty) : ({} : Subst).apply t = t :=
  if_pos rfl

theorem instantiate_apply_selfType (d : DeclaredType) (s : Subst) (t : Ty) :
    d.instantiate (s.apply d.selfType) t =
      (Subst.ofList (pairParams d.typeParams (d.typeParams.map s.apply))).apply t := by
  unfold selfType
  split
  · next hempty =>
      rw [List.isEmpty_iff.1 hempty, s.action_apply.named]
      exact (apply_empty t).symm
  · rw [s.action_apply.generic, instantiate]

/-- A type parameter is read as the last of its name. -/
theorem instantiate_param (s : Subst) {name : String} {bounds : NameSet}
    (h : .param name bounds ∈ d.typeParams) :
    ∃ last, d.lastParam? name = some (.param name last) ∧
      d.instantiate (s.apply d.selfType) (.param name bounds) = s.apply (.param name last) := by
  have hsome : (d.lastParam? name).isSome := by
    rw [lastParam?, List.find?_isSome]
    exact ⟨_, List.mem_reverse.2 h, by simp [Ty.paramName?]⟩
  obtain ⟨p, hp⟩ := Option.isSome_iff_exists.1 hsome
  have hname : p.paramName? = some name := by simpa using List.find?_some hp
  cases p with
  | param other last =>
    obtain rfl := Option.some.inj hname
    refine ⟨last, hp, ?_⟩
    rw [instantiate_apply_selfType, Subst.apply_param, get?_pairParams, hp]
    rfl
  | _ => cases hname

theorem instantiates_of_over (h : t.Over d.typeParams) (s : Subst) : d.Instantiates s t := by
  have haction : Ty.Action (d.instantiate (s.apply d.selfType)) := by
    rw [funext (d.instantiate_apply_selfType s)]
    exact Subst.action_apply _
  have hself : d.instantiate d.selfType = d.instantiate (({} : Subst).apply d.selfType) := by
    rw [apply_empty]
  have hiff : d.instantiate (s.apply d.selfType) t = s.apply t ↔
      ∀ p ∈ t.params, s.get? p.1 = none → d.lastParam? p.1 = some (.param p.1 p.2) := by
    refine (haction.eq_iff s.action_apply).trans (forall₂_congr fun p hp => ?_)
    obtain ⟨last, hlast, heq⟩ := instantiate_param s (h p hp)
    rw [heq, hlast, Subst.apply_param, Subst.apply_param]
    cases s.get? p.1 with
    | none => simp
    | some u => simp
  refine ⟨?_, hiff, fun hunique => hiff.2 fun p hp _ => ?_⟩
  · have hcomp : Ty.Action fun u => s.apply (d.instantiate d.selfType u) := by
      refine s.action_apply.comp ?_
      rw [hself, funext (d.instantiate_apply_selfType {})]
      exact Subst.action_apply _
    refine (haction.eq_iff hcomp).2 fun p hp => ?_
    obtain ⟨last, hlast, heq⟩ := instantiate_param s (h p hp)
    obtain ⟨last', hlast', heq'⟩ := instantiate_param {} (h p hp)
    cases hlast.symm.trans hlast'
    rw [heq, hself, heq', apply_empty]
  · obtain ⟨last, hlast, -⟩ := instantiate_param s (h p hp)
    have hmem : .param p.1 last ∈ d.typeParams := List.mem_reverse.1 (List.mem_of_find?_eq_some hlast)
    rw [hlast, hunique _ hmem _ (h p hp) rfl]

end DeclaredType

/-! ## What is written inside a declaration -/

open Generics (paramType toTypes)

variable {params : List TypeParam}

theorem Generics.over_toTypes {t : Ty} (h : t ∈ toTypes params) : t.Over (toTypes params) := by
  intro q hq
  obtain ⟨p, -, rfl⟩ := List.mem_map.1 h
  obtain rfl := List.mem_singleton.1 hq
  exact h

theorem Generics.mem_layers_extend {g : Generics} {layer : String × Ty}
    (h : layer ∈ (g.extend params).layers) : layer ∈ g.layers ∨ layer.2 ∈ toTypes params := by
  unfold extend at h
  induction params generalizing g with
  | nil => exact .inl h
  | cons p params ih =>
    rcases ih h with hmem | hmem
    · rcases List.mem_cons.1 hmem with rfl | hmem
      · exact .inr List.mem_cons_self
      · exact .inl hmem
    · exact .inr (List.mem_cons_of_mem _ hmem)

theorem DeclaredType.over_selfType {d : DeclaredType}
    (h : d.typeParams = toTypes params) : d.selfType.Over (toTypes params) := by
  unfold selfType
  split
  · exact nofun
  · intro p hp
    rw [Ty.params, Ty.paramsAll_eq_flatMap, h] at hp
    obtain ⟨t, ht, hp⟩ := List.mem_flatMap.1 hp
    exact Generics.over_toTypes ht p hp

theorem DeclaredType.typeParams_eq_of_selfType_eq {d d' : DeclaredType}
    (h : d.selfType = d'.selfType) : d.typeParams = d'.typeParams := by
  unfold selfType at h
  split at h
  · next hempty =>
      split at h
      · next hempty' => rw [List.isEmpty_iff.1 hempty, List.isEmpty_iff.1 hempty']
      · cases h
  · split at h
    · cases h
    · exact (Ty.generic.inj h).2

/-- A declaration that has its name resolves types to those with its type parameters only. -/
theorem NameHolder.Holds.over_resolve {h : TypeHead} {b : Builder} (hholds : (ofHead h).Holds b)
    (haside : h.node.id ∉ b.shadowed) (ix : DeclIndex) (e : TypeExpr) :
    (e.resolve ix (Build.typeGenerics b.table.decls h.name h.typeParams)).1.Over
      (toTypes h.typeParams) := by
  refine e.params_resolve (fun layer hlayer => ?_) ix
  obtain ⟨d, hd, -, hself⟩ := hholds.resolve_left haside
  unfold Build.typeGenerics at hlayer
  rw [show b.table.decls.get? h.name = some d from hd] at hlayer
  rcases List.mem_cons.1 hlayer with rfl | hmem
  · exact DeclaredType.over_selfType (DeclaredType.typeParams_eq_of_selfType_eq hself)
  · rcases Generics.mem_layers_extend hmem with hmem | hmem
    · cases hmem
    · exact Generics.over_toTypes hmem

/-! ## Members through the rounds of a construction -/

/-- The members of all declared types have the type parameters of their declaration only. -/
def Builder.ClosedMembers (b : Builder) : Prop :=
  ∀ name d, b.table.decls.get? name = some d → d.Closed

namespace Build

open Builder

variable {α : Type}

theorem keepsClosed {x : Build α} (h : ∀ b, (x.run b).2.table.decls = b.table.decls) :
    UnitAnalysis.Keeps ClosedMembers x :=
  ⟨fun b hb name d hd => hb name d (by rwa [h] at hd)⟩

theorem Quiet.keepsClosed {x : Build α} (hx : x.Quiet) : UnitAnalysis.Keeps ClosedMembers x :=
  Build.keepsClosed fun b => (hx.run b).decls

theorem keepsClosed_define (s : Symbol) (site : Span) :
    UnitAnalysis.Keeps ClosedMembers (define .global s site) :=
  keepsClosed fun b => ((defines_define .global s site).run b rfl).decls

theorem keepsClosed_declareHead (h : TypeHead) :
    UnitAnalysis.Keeps ClosedMembers (declareHead h) := by
  have hshadow : UnitAnalysis.Keeps ClosedMembers (shadow h.node.id) := keepsClosed fun _ => rfl
  refine (quiet_isGlobalTrait h.name).keepsClosed.bind fun isTrait => ?_
  split
  · exact hshadow
  · refine (keepsClosed_define _ _).bind fun isDefined => ?_
    split
    · refine Meets.modify fun b hb name d hd => ?_
      change (b.table.decls.declare _).get? name = some d at hd
      rw [DeclIndex.get?_declare] at hd
      split at hd
      · cases hfirst : b.table.decls.get? name with
        | some first =>
          rw [hfirst] at hd
          cases hd
          exact hb name first hfirst
        | none =>
          rw [hfirst] at hd
          cases hd
          exact ⟨List.nodup_nil, nofun, nofun⟩
      · exact hb name d hd
    · exact hshadow

theorem keepsClosed_seedIntrinsics (extra : List (String × TypeExpr)) :
    UnitAnalysis.Keeps ClosedMembers (seedIntrinsics extra) := by
  have hresolve : (resolveIntrinsics extra).Quiet := .of_resolves (resolves_resolveIntrinsics extra)
  refine hresolve.keepsClosed.bind fun _ => .forM fun p _ => ?_
  refine (keepsClosed fun b => ((defines_tryDefine .global _).run b rfl).decls).bind fun result => ?_
  cases result with
  | ok _ => exact keepsClosed fun _ => rfl
  | error _ => exact .pure fun _ hb => hb

theorem Quiet.keepsSame {x : Build α} (hx : x.Quiet) (b : Builder) :
    UnitAnalysis.Keeps (SameNames b) x :=
  ⟨fun c hc => hc.trans (hx.run c)⟩

/-- A method without type parameters of its own has the types that are resolved around it. -/
theorem gives_plainSignature {b : Builder} {V : Ty → Prop} {g : Generics}
    (hg : ∀ ix (e : TypeExpr), V (e.resolve ix g).1) (f : FunctionDecl) :
    UnitAnalysis.Gives (SameNames b)
      (fun s => s.typeParams = [] → ∀ t ∈ s.paramTypes ++ s.ret.toList, V t)
      (functionSignature g f) := by
  -- Inside a method with type parameters of its own nothing is said about types.
  let W (t : Ty) : Prop := f.typeParams = [] → V t
  have hinner : ∀ ix (e : TypeExpr), W (e.resolve ix (g.extend f.typeParams)).1 := by
    intro ix e hnil
    rw [hnil]
    exact hg ix e
  let m : MethodSig :=
    { node := f.node, name := f.name, typeParams := f.typeParams, params := f.params,
      returnType := f.returnType, isAsync := f.isAsync }
  have hmethod : UnitAnalysis.Gives (SameNames b)
      (fun s => s.typeParams = [] → ∀ t ∈ s.paramTypes ++ s.ret.toList, V t)
      (methodSignature g m) := by
    have hreport : ∀ found, UnitAnalysis.Keeps (SameNames b) (report found) := fun found =>
      (quiet_report found).keepsSame b
    refine (gives_resolveParams (V := W) hreport hinner f.params).bind fun params hparams =>
      (gives_resolveOption (V := W) hreport hinner f.returnType).bind fun ret hret =>
        UnitAnalysis.Gives.pure ?_
    intro hnil t ht
    have hnone : f.typeParams = [] := List.map_eq_nil_iff.1 hnil
    rcases List.mem_append.1 ht with hmem | hmem
    · obtain ⟨p, hp, rfl⟩ := List.mem_map.1 hmem
      exact hparams p hp hnone
    · exact hret t (Option.mem_toList.1 hmem) hnone
  refine hmethod.bind fun s hs => Meets.bind (Q := fun _ => SameNames b) (.modify ?_) fun _ =>
    UnitAnalysis.Gives.pure hs
  exact fun c hc => ⟨hc.scopes, hc.decls, hc.shadowed⟩

section Fill

variable {b : Builder} {h : TypeHead} (hholds : (NameHolder.ofHead h).Holds b)

include hholds

/-- Filling in members that have the type parameters of the declaration only. -/
theorem closed_fillType (hb : b.ClosedMembers) {f : DeclaredType → DeclaredType}
    (hf : h.node.id ∉ b.shadowed → ∀ d, d.typeParams = toTypes h.typeParams → d.Closed →
      (f d).Closed) :
    Meets (SameNames b) (fillType h.node.id h.name f) fun _ => ClosedMembers := by
  refine (meets_isShadowed h.node.id).bind fun isAside => ?_
  split
  · exact .pure fun c hc name d hd => hb name d (hc.1.decls ▸ hd)
  · next hfalse =>
      refine .modify fun c hc name d hd => ?_
      obtain ⟨before, hbefore, rfl⟩ := DeclIndex.get?_modify_eq_some_iff.1 hd
      rw [hc.1.decls] at hbefore
      split
      · next hname =>
          have haside : h.node.id ∉ b.shadowed := by
            rw [← hc.1.shadowed]
            intro hmem
            exact hfalse (hc.2.trans (decide_eq_true hmem))
          obtain ⟨d, hd, -, hself⟩ := hholds.resolve_left haside
          cases hd.symm.trans (hname ▸ hbefore)
          exact hf haside before (DeclaredType.typeParams_eq_of_selfType_eq hself)
            (hb name before hbefore)
      · exact hb name before hbefore

/-- The fields of a declaration, with what is done with them. -/
theorem closed_resolveFields (isFrozen : Bool) (fields : List FieldDecl) {f : List Field → Build Unit}
    (hf : ∀ fields : List Field,
      (∀ f ∈ fields, h.node.id ∉ b.shadowed → f.ty.Over (toTypes h.typeParams)) ∧
        (fields.map fun f => f.name).Nodup →
      Meets (SameNames b) (f fields) fun _ => ClosedMembers) :
    Meets (SameNames b)
      (resolveFields h.name isFrozen (typeGenerics b.table.decls h.name h.typeParams) [] fields >>= f)
      fun _ => ClosedMembers := by
  have hg : ∀ ix (e : TypeExpr), h.node.id ∉ b.shadowed →
      (e.resolve ix (typeGenerics b.table.decls h.name h.typeParams)).1.Over
        (toTypes h.typeParams) := fun ix e haside => hholds.over_resolve haside ix e
  have hempty : (∀ f ∈ ([] : List Field),
      h.node.id ∉ b.shadowed → f.ty.Over (toTypes h.typeParams)) ∧
      (([] : List Field).map fun f => f.name).Nodup := by simp
  have hfields := gives_resolveFields
    (V := fun t => h.node.id ∉ b.shadowed → t.Over (toTypes h.typeParams))
    (fun found => (quiet_report found).keepsSame b) hg
    (fun id t _ => (quiet_annotate id t).keepsSame b) h.name isFrozen fields hempty
  exact hfields.bind hf

end Fill

variable {holders : List NameHolder}

theorem closed_declareClass {c : ClassDecl}
    (hc : NameHolder.ofHead ⟨c.name, .classLike c.kind, c.typeParams, c.node⟩ ∈ holders) :
    Meets (fun b => b.Indexed holders ∧ b.ClosedMembers) (declareClass c)
      fun _ => ClosedMembers := by
  refine Meets.look fun b hb => Meets.from_state (P := SameNames b) ?_ ⟨rfl, rfl, rfl⟩
  have hholds := hb.1.holds _ hc
  refine closed_resolveFields hholds false c.fields fun fields hfields => ?_
  have hmethods : ∀ m ∈ c.methods, UnitAnalysis.Gives (SameNames b) _ (functionSignature _ m) :=
    fun m _ => gives_plainSignature
      (V := fun t => c.node.id ∉ b.shadowed → t.Over (toTypes c.typeParams))
      (fun ix e haside => hholds.over_resolve haside ix e) m
  refine (gives_collectMethods (fun found => (quiet_report found).keepsSame b) c.name fields
    hmethods (by simp [Table.get?, Table.find])).bind fun methods hmethods => ?_
  refine closed_fillType hholds hb.2 fun haside d hparams _ => ⟨hfields.2, ?_, ?_⟩
  · exact fun f hf => hparams ▸ hfields.1 f hf haside
  · exact fun name s hs hnil t ht => hparams ▸ hmethods name s hs hnil t ht haside

theorem closed_declareStruct (isSpark : Bool) {s : StructDecl} {kind : DeclKind}
    (hs : NameHolder.ofHead ⟨s.name, kind, s.typeParams, s.node⟩ ∈ holders) :
    Meets (fun b => b.Indexed holders ∧ b.ClosedMembers) (declareStruct isSpark s)
      fun _ => ClosedMembers := by
  refine Meets.look fun b hb => Meets.from_state (P := SameNames b) ?_ ⟨rfl, rfl, rfl⟩
  have hholds := hb.1.holds _ hs
  refine closed_resolveFields hholds isSpark s.fields fun fields hfields => ?_
  refine closed_fillType hholds hb.2 fun haside d hparams hd => ⟨hfields.2, ?_, hd.methods⟩
  exact fun f hf => hparams ▸ hfields.1 f hf haside

theorem keepsClosed_declareVariants (d : DataDecl) (g : Generics) (self : Ty) (seen : List String)
    (variants : List VariantDecl) :
    UnitAnalysis.Keeps ClosedMembers (declareVariants d g self seen variants) := by
  induction variants generalizing seen with
  | nil => exact .pure _
  | cons v variants ih =>
    unfold declareVariants
    split
    · exact (quiet_report _).keepsClosed.bind fun _ => ih seen
    · have hfields : (resolveFields v.name true g [] v.fields).Quiet :=
        .of_resolves (resolves_resolveFields fun _ _ => trivial)
      refine hfields.keepsClosed.bind fun fields => ?_
      refine (keepsClosed_define _ _).bind fun isDefined => ?_
      refine (quiet_isShadowed _).keepsClosed.bind fun isAside => ?_
      split
      · refine Meets.bind (Q := fun _ => ClosedMembers) (.modify fun b hb name e he => ?_) fun _ =>
          ih _
        obtain ⟨before, hbefore, rfl⟩ := DeclIndex.get?_addVariant_eq_some_iff.1 he
        have hclosed := hb name before hbefore
        split
        · exact ⟨hclosed.nodup, hclosed.fields, hclosed.methods⟩
        · exact hclosed
      · exact ih _

theorem closed_declareMembers {d : Decl}
    (hd : ∀ h, d.typeHead? = some h → NameHolder.ofHead h ∈ holders) :
    Meets (fun b => b.Indexed holders ∧ b.ClosedMembers) (declareMembers d)
      fun _ => ClosedMembers := by
  have hquiet : ∀ {x : Build Unit}, UnitAnalysis.Keeps ClosedMembers x →
      Meets (fun b => b.Indexed holders ∧ b.ClosedMembers) x fun _ => ClosedMembers :=
    fun hx => hx.mono (fun _ hb => hb.2) fun _ _ hb => hb
  cases d with
  | function f =>
    have hsignature : (functionSignature {} f).Quiet :=
      .of_resolves (resolves_functionSignature trivial)
    refine hquiet (hsignature.keepsClosed.bind fun s => ?_)
    exact (keepsClosed_define _ f.node.span).bind fun _ => .pure fun _ hc => hc
  | classLike c => exact closed_declareClass (hd _ rfl)
  | struct s => exact closed_declareStruct false (hd _ rfl)
  | spark s => exact closed_declareStruct true (hd _ rfl)
  | data d => exact hquiet (.look fun b _ => keepsClosed_declareVariants d _ _ [] d.variants)
  | trait t => exact hquiet (quiet_declareTrait false t).keepsClosed
  | interface t => exact hquiet (quiet_declareTrait true t).keepsClosed
  | impl i => exact hquiet (quiet_declareImpl i).keepsClosed
  | script s => exact .pure fun _ hb => hb.2

/-- After the first two rounds the members of all declared types have the type parameters of their
declaration only. -/
theorem closed_declare (intrinsics : List (String × TypeExpr)) (u : SourceUnit) :
    Meets (fun b => b.Indexed [] ∧ b.ClosedMembers) (declare intrinsics u)
      fun _ => ClosedMembers := by
  have hfirst : UnitAnalysis.Keeps ClosedMembers (u.decls.forM declareType) := by
    refine .forM fun d _ => ?_
    unfold declareType
    cases d.typeHead? with
    | none => exact .pure fun _ hb => hb
    | some h => exact keepsClosed_declareHead h
  refine ((indexed_declareTypes u.decls).and hfirst).bind fun _ => ⟨fun b hb => ?_⟩
  obtain ⟨⟨more, hindexed, -, hmore⟩, hclosed⟩ := hb
  have hmembers : UnitAnalysis.Keeps (fun b => b.Indexed more ∧ b.ClosedMembers)
      (u.decls.forM declareMembers) := by
    refine .forM fun d hd => ⟨fun c hc => ⟨?_, (closed_declareMembers (hmore d hd)).run c hc⟩⟩
    exact (keepsIndex_declareMembers (hmore d hd)).run c hc.1
  have hrest := ((keepsIndex_seedIntrinsics intrinsics).and
    (keepsClosed_seedIntrinsics intrinsics)).bind fun _ => hmembers
  exact (hrest.run b ⟨hindexed, hclosed⟩).2

end Build

theorem Builder.closedMembers_ofUnit (intrinsics : List (String × TypeExpr)) (u : SourceUnit) :
    (Builder.ofUnit intrinsics u).ClosedMembers := by
  obtain ⟨-, hthird⟩ := Builder.follows_ofUnit intrinsics u
  have hclosed := (Build.closed_declare intrinsics u).run {} ⟨indexed_empty, nofun⟩
  intro name d hd
  rw [hthird.decls] at hd
  exact hclosed name d hd

theorem DeclaredType.nominalName?_apply_selfType (d : DeclaredType) (s : Subst) :
    (s.apply d.selfType).nominalName? = some d.name := by
  unfold selfType
  split
  · rw [s.action_apply.named, Ty.nominalName?]
  · rw [s.action_apply.generic, Ty.nominalName?]

theorem DeclaredType.Closed.field?_eq {d : DeclaredType} (h : d.Closed) {f : Field}
    (hf : f ∈ d.fields) : d.field? f.name = some f := by
  have hsome : (d.field? f.name).isSome := by
    rw [field?, List.find?_isSome]
    exact ⟨f, hf, by simp⟩
  obtain ⟨found, hfound⟩ := Option.isSome_iff_exists.1 hsome
  have hname : found.name = f.name := by simpa using List.find?_some hfound
  rw [hfound, List.inj_on_of_nodup_map h.nodup (List.mem_of_find?_eq_some hfound) hf hname]

/-- **Members follow instances.** Whatever a unit declares, and whatever is put in for the type
parameters of a declaration: a field of the instance, and a type in a method without type parameters
of its own, is the instance of what it is for the declaration. It is the instance of what is written
just when each type parameter in it that stays is the last of its name. -/
theorem members_of_instances (intrinsics : List (String × TypeExpr)) (u : SourceUnit)
    {name : String} {d : DeclaredType}
    (hd : (Builder.ofUnit intrinsics u).table.decls.get? name = some d) (s : Subst) :
    (∀ f ∈ d.fields,
      (Builder.ofUnit intrinsics u).table.decls.fieldOf (s.apply d.selfType) f.name =
        some (d.instantiate (s.apply d.selfType) f.ty) ∧ d.Instantiates s f.ty) ∧
    ∀ method sig, d.methods.get? method = some sig → sig.typeParams = [] →
      ∀ t ∈ sig.paramTypes ++ sig.ret.toList, d.Instantiates s t := by
  have hclosed := Builder.closedMembers_ofUnit intrinsics u name d hd
  obtain ⟨rfl, -⟩ := (Builder.indexed_ofUnit intrinsics u).agrees.type hd
  refine ⟨fun f hf => ⟨?_, DeclaredType.instantiates_of_over (hclosed.fields f hf) s⟩,
    fun method sig hsig hnil t ht =>
      DeclaredType.instantiates_of_over (hclosed.methods method sig hsig hnil t ht) s⟩
  simp only [DeclIndex.fieldOf, d.nominalName?_apply_selfType, hd, hclosed.field?_eq hf,
    Option.bind_eq_bind, Option.bind_some]
  rfl

/-- A class with a field of its own type. -/
def boxes (typeParams : List TypeParam) : SourceUnit where
  node := ⟨⟨0⟩, {}⟩
  decls := [.classLike {
    node := ⟨⟨1⟩, {}⟩, name := "Box", typeParams,
    fields := [{ node := ⟨⟨2⟩, {}⟩, name := "next", ty := .named {} "Self" [] }] }]

theorem members_of_instances_boxes :
    let ix := (Builder.ofUnit [] (boxes [⟨"T", ["A"]⟩, ⟨"U", []⟩])).table.decls
    ∃ d, ix.get? "Box" = some d ∧
      ix.fieldOf (.generic "Box" [.int, .bounded "U" []]) "next" =
        some (.generic "Box" [.int, .bounded "U" []]) := by
  intro ix
  let self : Ty := .generic "Box" [.bounded "T" ["A"], .bounded "U" []]
  let d : DeclaredType :=
    { name := "Box", kind := .classLike .plain, typeParams := [.bounded "T" ["A"], .bounded "U" []],
      fields := [{ name := "next", ty := self }] }
  have hd : ix.get? "Box" = some d := rfl
  obtain ⟨hfield, hinstance⟩ :=
    (members_of_instances [] _ hd (.ofList [("T", .int)])).1 _ List.mem_cons_self
  exact ⟨d, hd, hfield.trans (congrArg some (hinstance.of_unique (by decide)))⟩

/-- Of two type parameters of one name a field has the bounds of the second one in both places. -/
theorem boxes_not_instance :
    let ix := (Builder.ofUnit [] (boxes [⟨"T", ["A"]⟩, ⟨"T", ["B"]⟩])).table.decls
    ∃ d f, ix.get? "Box" = some d ∧ f ∈ d.fields ∧
      ix.fieldOf (({} : Subst).apply d.selfType) f.name =
        some (.generic "Box" [.bounded "T" ["B"], .bounded "T" ["B"]]) ∧
      ix.fieldOf (({} : Subst).apply d.selfType) f.name ≠ some (({} : Subst).apply f.ty) :=
  ⟨_, _, rfl, List.mem_cons_self, by decide +kernel, by decide +kernel⟩

end UnitAnalysis

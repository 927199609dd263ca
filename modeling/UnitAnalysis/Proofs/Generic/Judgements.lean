import UnitAnalysis.Check.Infer
import UnitAnalysis.Proofs.Check.Calls
import UnitAnalysis.Proofs.Symbols.Resolving
import UnitAnalysis.Proofs.Table
import UnitAnalysis.Proofs.Ty.Params
import UnitAnalysis.Trait.Conformance

/-!
# Where the type parameters of a type come from

Every judgement of a check makes types out of other types. Here is for each of them that it brings
in no type parameters of its own: when the types that it starts from stay within some bounds, and
the declarations do, then so does its result. For a signature the bounds leave out its own type
parameters, because a call closes them. The first section says for a call what its result is made
of.
-/

set_option autoImplicit false

namespace UnitAnalysis

/-! ## Calls -/

namespace Signature

/-- The names of the type parameters that a signature declares. -/
def own (s : Signature) : List String :=
  s.typeParams.filterMap Ty.paramName?

/-- Beside its own type parameters a signature has allowed ones only. -/
def Within (allowed : List String) (s : Signature) : Prop :=
  s.functionType.Within (s.own ++ allowed)

variable {allowed more : List String} {s : Signature}

/-- More parameters may be allowed. -/
theorem Within.mono (h : s.Within allowed) (hsub : allowed ⊆ more) : s.Within more :=
  Ty.Within.mono h (List.append_subset.2 ⟨List.subset_append_left _ _,
    fun _ hname => List.mem_append_right _ (hsub hname)⟩)

/-- A return type adds only the signature's own parameters. -/
theorem Within.returnType (h : s.Within allowed) : s.returnType.Within (s.own ++ allowed) :=
  (Ty.within_function.1 h).2

/-- A change that keeps types within other bounds does so for a signature. -/
theorem Within.mapTypes {f : Ty → Ty} (h : s.Within allowed)
    (hf : ∀ t, t.Within (s.own ++ allowed) → (f t).Within (s.own ++ more)) :
    (s.mapTypes f).Within more := by
  obtain ⟨hparams, hret⟩ := Ty.within_function.1 h
  refine Ty.within_function.2 ⟨fun t ht => ?_, ?_⟩
  · simp only [Signature.mapTypes, paramTypes, List.map_map, List.mem_map] at ht
    obtain ⟨p, hp, rfl⟩ := ht
    exact hf p.2 (hparams p.2 (List.mem_map_of_mem hp))
  · unfold Signature.mapTypes Signature.returnType at *
    cases hs : s.ret with
    | none => exact Ty.within_prim _
    | some t =>
      rw [hs] at hret
      exact hf t hret

end Signature

namespace Check

variable {allowed : List String}

variable {args : List Argument}

/-- What the arguments say about type parameters is made of the arguments. -/
theorem within_bindArguments {s : Subst} (params : List Ty)
    (hs : s.Within allowed) (hargs : ∀ a ∈ args, a.ty.Within allowed) :
    (bindArguments s params args).Within allowed := by
  fun_induction bindArguments s params args with
  | case1 s p params a args ih =>
    obtain ⟨ha, hrest⟩ := List.forall_mem_cons.1 hargs
    exact ih (hs.bind p ha) hrest
  | case2 => exact hs

/-- Closing the unsolved parameters adds none. -/
theorem within_closeParams (r : Registry) (callee : String) (span : Span) {s : Subst}
    (typeParams : List Ty) (hs : s.Within allowed) :
    (closeParams r callee span s typeParams).1.Within allowed := by
  fun_induction closeParams r callee span s typeParams with
  | case1 s => exact hs
  | case2 s name bounds rest found hget s' more hrest ih =>
    rw [hrest] at ih
    exact ih hs
  | case3 s name bounds rest hget ih => exact ih (hs.insert (Ty.within_prim _))
  | case4 s t rest _ ih => exact ih hs

/-- After the closing step no type parameter of the callee is open. -/
theorem closeParams_isSome (r : Registry) (callee : String) (span : Span) (s : Subst)
    {typeParams : List Ty} {name : String} (hname : name ∈ typeParams.filterMap Ty.paramName?) :
    ((closeParams r callee span s typeParams).1.get? name).isSome := by
  have hkept {s : Subst} (rest : List Ty) {t : Ty} (h : s.get? name = some t) :
      ((closeParams r callee span s rest).1.get? name).isSome := by
    rw [extends_closeParams r callee span s rest name t h]
    rfl
  fun_induction closeParams r callee span s typeParams with
  | case1 s => cases hname
  | case2 s other bounds rest found hget s' more hrest ih =>
    rw [hrest] at ih
    rcases List.mem_cons.1 hname with rfl | hmem
    · have hclosed := hkept rest hget
      rwa [hrest] at hclosed
    · exact ih hmem
  | case3 s other bounds rest hget ih =>
    rcases List.mem_cons.1 hname with rfl | hmem
    · exact hkept rest (s.get?_insert_self name .any)
    · exact ih hmem
  | case4 s t rest hplain ih =>
    refine ih ?_
    cases t with
    | param other bounds => exact absurd rfl (hplain other bounds)
    | _ => exact hname

/-- A type parameter in the type of a call comes from an argument, or the result of the callee has
it and the callee does not declare it. -/
theorem mem_paramNames_applyTarget {r : Registry} {target : CallTarget}
    {span : Span} {name : String}
    (h : name ∈ (applyTarget r target args span).1.paramNames) :
    (∃ a ∈ args, name ∈ a.ty.paramNames) ∨
      (name ∈ target.ret.paramNames ∧ name ∉ target.typeParams.filterMap Ty.paramName?) := by
  have hargs : ∀ a ∈ args, a.ty.Within (args.flatMap fun a => a.ty.paramNames) :=
    fun a ha other hother => List.mem_flatMap.2 ⟨a, ha, hother⟩
  have hclosed := within_closeParams r target.name span target.typeParams
    (within_bindArguments target.params Subst.within_empty hargs)
  rcases Subst.mem_paramNames_apply h with ⟨other, u, hother, hu⟩ | ⟨hret, hnone⟩
  · exact .inl (List.mem_flatMap.1 (hclosed other u hother hu))
  · refine .inr ⟨hret, fun hown => ?_⟩
    have hsome := closeParams_isSome r target.name span (bindArguments {} target.params args)
      hown
    rw [hnone] at hsome
    cases hsome

/-- A call closes the callee's own parameters. -/
theorem within_applyTarget {r : Registry} {target : CallTarget} {span : Span}
    (hret : target.ret.Within (target.typeParams.filterMap Ty.paramName? ++ allowed))
    (hargs : ∀ a ∈ args, a.ty.Within allowed) :
    (applyTarget r target args span).1.Within allowed := by
  intro name hname
  rcases mem_paramNames_applyTarget hname with ⟨a, ha, hmem⟩ | ⟨hmem, hown⟩
  · exact hargs a ha hmem
  · exact (List.mem_append.1 (hret hmem)).resolve_left hown

/-- A call of a signature in bounds. -/
theorem within_callSignature {r : Registry} {s : Signature} {span : Span}
    (hs : s.Within allowed) (hargs : ∀ a ∈ args, a.ty.Within allowed) :
    (applyTarget r s.callTarget args span).1.Within allowed :=
  within_applyTarget hs.returnType hargs

/-- A call of a value. -/
theorem within_callValue {callee : Ty} {span : Span} (h : callee.Within allowed) :
    (callValue callee span).1.Within allowed := by
  unfold callValue
  split
  · exact (Ty.within_function.1 h).2
  · exact Ty.within_prim _
  · exact Ty.within_prim _

end Check

/-! ## Declared types -/

/-- The members of a declared type have allowed type parameters only. -/
structure DeclaredType.Within (allowed : List String) (d : DeclaredType) : Prop where
  typeParams : ∀ t ∈ d.typeParams, t.Within allowed
  fields : ∀ f ∈ d.fields, f.ty.Within allowed
  methods : ∀ name s, d.methods.get? name = some s → s.Within allowed

/-- The declared types have allowed type parameters only. -/
structure DeclIndex.Within (allowed : List String) (ix : DeclIndex) : Prop where
  types : ∀ name d, ix.get? name = some d → d.Within allowed
  variants : ∀ name v, ix.variant? name = some v → ∀ f ∈ v.fields, f.ty.Within allowed

section Declared

variable {allowed : List String}

/-- More parameters may be allowed. -/
theorem DeclIndex.Within.mono {ix : DeclIndex} (h : ix.Within allowed) {more : List String}
    (hsub : allowed ⊆ more) : ix.Within more where
  types name d hd :=
    let ⟨htypeParams, hfields, hmethods⟩ := h.types name d hd
    ⟨fun t ht => (htypeParams t ht).mono hsub, fun f hf => (hfields f hf).mono hsub,
      fun method s hs => (hmethods method s hs).mono hsub⟩
  variants name v hv f hf := (h.variants name v hv f hf).mono hsub

/-- The type of `self` takes the declared parameters. -/
theorem DeclaredType.Within.selfType {d : DeclaredType} (h : d.Within allowed) :
    d.selfType.Within allowed := by
  unfold DeclaredType.selfType
  split
  · exact Ty.within_named _
  · exact (Ty.within_generic _).2 h.typeParams

/-- A parameter is paired with an argument. -/
theorem DeclaredType.mem_of_mem_pairParams {typeParams args : List Ty} {p : String × Ty}
    (hp : p ∈ pairParams typeParams args) : p.2 ∈ args := by
  obtain ⟨⟨t, arg⟩, hmem, heq⟩ := List.mem_filterMap.1 hp
  split at heq
  · next h =>
      cases h
      cases heq
      exact (List.of_mem_zip hmem).2
  · cases heq

/-- Instantiating a member adds only what the receiver mentions. -/
theorem DeclaredType.within_instantiate (d : DeclaredType) {receiver member : Ty}
    (hreceiver : receiver.Within allowed) (hmember : member.Within allowed) :
    (d.instantiate receiver member).Within allowed := by
  unfold instantiate
  split
  · rw [Ty.within_generic] at hreceiver
    exact (Subst.within_ofList fun p hp => hreceiver p.2 (mem_of_mem_pairParams hp)).apply hmember
  · exact hmember

namespace DeclIndex.Within

variable {ix : DeclIndex}

variable (h : ix.Within allowed)

include h

/-- Types of fields. -/
theorem fieldOf {t : Ty} (ht : t.Within allowed) (field : String) :
    ∀ u ∈ ix.fieldOf t field, u.Within allowed := by
  intro u hu
  obtain ⟨name, -, hu⟩ := Option.bind_eq_some_iff.1 hu
  obtain ⟨d, hd, hu⟩ := Option.bind_eq_some_iff.1 hu
  obtain ⟨f, hf, hu⟩ := Option.bind_eq_some_iff.1 hu
  cases hu
  exact d.within_instantiate ht ((h.types name d hd).fields f (List.mem_of_find?_eq_some hf))

/-- Signatures of methods. -/
theorem methodOf {t : Ty} (ht : t.Within allowed) (method : String) :
    ∀ s ∈ ix.methodOf t method, s.Within allowed := by
  intro s hs
  obtain ⟨name, -, hs⟩ := Option.bind_eq_some_iff.1 hs
  obtain ⟨d, hd, hs⟩ := Option.bind_eq_some_iff.1 hs
  obtain ⟨m, hm, hs⟩ := Option.bind_eq_some_iff.1 hs
  cases hs
  exact ((h.types name d hd).methods method m hm).mapTypes fun _ hmember =>
    d.within_instantiate (ht.mono (List.subset_append_right _ _)) hmember

/-- Fields a literal initializes. -/
theorem literalFields? (name : String) :
    ∀ p ∈ Check.literalFields? ix name, p.2.Within allowed := by
  intro p hp
  unfold Check.literalFields? at hp
  split at hp
  · next d hd =>
      cases hp
      exact (h.types name d hd).selfType
  · obtain ⟨v, -, rfl⟩ := Option.map_eq_some_iff.1 hp
    dsimp only
    split
    · next d hd => exact (h.types _ d hd).selfType
    · exact Ty.within_named _

/-- Fields a pattern matches. -/
theorem patternFields {t : Ty} (ht : t.Within allowed) (name : String) :
    ∀ p ∈ ix.patternFields name t, p.2.Within allowed := by
  intro p hp
  unfold DeclIndex.patternFields at hp
  split at hp
  · next v hv =>
      obtain ⟨f, hf, rfl⟩ := List.mem_map.1 hp
      have hfield := h.variants name v hv f hf
      dsimp only
      split
      · next d hd => exact d.within_instantiate ht hfield
      · exact hfield
  · split at hp
    · next d hd =>
        obtain ⟨f, hf, rfl⟩ := List.mem_map.1 hp
        exact d.within_instantiate ht ((h.types name d hd).fields f hf)
    · cases hp

end DeclIndex.Within

end Declared

/-! ## Traits and implementations -/

/-- The methods of traits and implementations have allowed type parameters only, and `Self`. -/
structure Registry.Within (allowed : List String) (r : Registry) : Prop where
  traits : ∀ t ∈ r.traits.values, ∀ m ∈ t.methods, m.Within ("Self" :: allowed)
  impls : ∀ trait, ∀ i ∈ r.implementations trait, ∀ m ∈ i.methods, m.Within ("Self" :: allowed)
  inherent : ∀ i ∈ r.inherent, ∀ m ∈ i.methods, m.Within ("Self" :: allowed)

/-- More parameters may be allowed. -/
theorem Registry.Within.mono {allowed more : List String} {r : Registry} (h : r.Within allowed)
    (hsub : allowed ⊆ more) : r.Within more where
  traits t ht m hm := (h.traits t ht m hm).mono (List.cons_subset_cons _ hsub)
  impls trait i hi m hm := (h.impls trait i hi m hm).mono (List.cons_subset_cons _ hsub)
  inherent i hi m hm := (h.inherent i hi m hm).mono (List.cons_subset_cons _ hsub)

/-- What a table finds is one of its values. -/
theorem Table.mem_values_of_get? {κ α : Type} [DecidableEq κ] {t : Table κ α} {k : κ} {v : α}
    (h : t.get? k = some v) : v ∈ t.values := by
  obtain ⟨entries⟩ := t
  change Table.find k entries = some v at h
  change v ∈ entries.map Prod.snd
  induction entries with
  | nil => cases h
  | cons e rest ih =>
    rw [List.map_cons, List.mem_cons]
    simp only [Table.find] at h
    split at h
    · cases h
      exact .inl rfl
    · exact .inr (ih h)

section Traits

variable {allowed : List String}

/-- With the receiver in place of `Self` a signature has allowed type parameters only. -/
theorem Signature.Within.forReceiver {s : Signature} {receiver : Ty}
    (hs : s.Within ("Self" :: allowed)) (hreceiver : receiver.Within allowed) :
    (s.forReceiver receiver).Within allowed := by
  refine hs.mapTypes fun t ht => Subst.Within.apply_of_bound ["Self"] ?_ ?_ ?_
  · refine Subst.within_ofList fun p hp => ?_
    obtain rfl := List.mem_singleton.1 hp
    exact hreceiver.mono (List.subset_append_right _ _)
  · exact ht.mono List.perm_middle.subset
  · intro name hname
    obtain rfl := List.mem_singleton.1 hname
    rfl

namespace Registry.Within

variable {r : Registry} {receiver : Ty}

variable (h : r.Within allowed)

include h

/-- Inherent methods. -/
theorem inherentMethod? (method : String) :
    ∀ s ∈ r.inherentMethod? receiver method, s.Within ("Self" :: allowed) := by
  intro s hs
  obtain ⟨i, hi, hmethod⟩ := List.exists_of_findSome?_eq_some hs
  exact h.inherent i (List.mem_of_mem_filter hi) s (List.mem_of_find?_eq_some hmethod)

/-- What a trait offers. -/
theorem offer? {t : Trait} (ht : t ∈ r.traits.values) (method : String) :
    ∀ s ∈ r.offer? receiver method t, s.Within ("Self" :: allowed) := by
  intro s hs
  obtain ⟨declared, hdeclared, hs⟩ := Option.bind_eq_some_iff.1 hs
  obtain ⟨i, hi, hs⟩ := Option.bind_eq_some_iff.1 hs
  cases hs
  cases hmethod : i.method? method with
  | none => exact h.traits t ht declared (List.mem_of_find?_eq_some hdeclared)
  | some m =>
    exact h.impls t.name i (List.mem_of_find?_eq_some hi) m (List.mem_of_find?_eq_some hmethod)

/-- All that traits offer. -/
theorem candidates (method : String) :
    ∀ c ∈ r.candidates receiver method, c.2.Within ("Self" :: allowed) := by
  intro c hc
  unfold Registry.candidates at hc
  split at hc
  · obtain ⟨bound, -, hc⟩ := List.mem_filterMap.1 hc
    obtain ⟨t, ht, hc⟩ := Option.bind_eq_some_iff.1 hc
    obtain ⟨s, hs, hc⟩ := Option.bind_eq_some_iff.1 hc
    cases hc
    exact h.traits t (Table.mem_values_of_get? ht) s (List.mem_of_find?_eq_some hs)
  · obtain ⟨t, ht, hc⟩ := List.mem_filterMap.1 hc
    obtain ⟨s, hs, rfl⟩ := Option.map_eq_some_iff.1 hc
    exact h.offer? ht method s hs

/-- A qualified method is in bounds once `Self` is the receiver. -/
theorem resolveQualified (hreceiver : receiver.Within allowed)
    {trait method : String} {s : Signature}
    (hs : r.resolveQualified receiver trait method = .ok s) : s.Within allowed := by
  unfold Registry.resolveQualified at hs
  split at hs
  · cases hs
  · next t ht =>
      split at hs
      · cases hs
      · next declared hdeclared =>
          split at hs
          · cases hs
            exact (h.traits t (Table.mem_values_of_get? ht) declared
              (List.mem_of_find?_eq_some hdeclared)).forReceiver hreceiver
          · split at hs
            · cases hs
            · next i hi =>
                split at hs
                · next m hm =>
                    cases hs
                    exact (h.impls trait i (List.mem_of_find?_eq_some hi) m
                      (List.mem_of_find?_eq_some hm)).forReceiver hreceiver
                · cases hs

/-- The same, read off the outcome of the lookup. -/
theorem qualifiedOutcome (hreceiver : receiver.Within allowed)
    {trait method : String} {span : Span} {s : Signature} {found : List Finding}
    (hs : r.qualifiedOutcome receiver trait method span = (some s, found)) : s.Within allowed := by
  unfold Registry.qualifiedOutcome at hs
  split at hs
  · next hfound =>
      cases hs
      exact h.resolveQualified hreceiver hfound
  · cases hs

end Registry.Within

/-- Registering a trait. -/
theorem Registry.Within.addTrait {r : Registry} (h : r.Within allowed) {t : Trait}
    (ht : ∀ m ∈ t.methods, m.Within ("Self" :: allowed)) :
    (r.addTrait t).registry.Within allowed := by
  unfold Registry.addTrait
  split
  · exact h
  · refine ⟨fun other hother => ?_, h.impls, h.inherent⟩
    obtain ⟨e, he, rfl⟩ := List.mem_map.1 hother
    rcases Table.mem_of_mem_put he with hold | rfl
    · exact h.traits e.2 (List.mem_map_of_mem hold)
    · exact ht

/-- Registering an implementation. -/
theorem Registry.Within.addImpl {r : Registry} (h : r.Within allowed) {i : Implementation}
    (hi : ∀ m ∈ i.methods, m.Within ("Self" :: allowed)) :
    (r.addImpl i).registry.Within allowed := by
  have hnew (p : Implementation → Bool) : ∀ j ∈ [i].filter p, ∀ m ∈ j.methods,
      m.Within ("Self" :: allowed) := by
    intro j hj
    obtain rfl := List.mem_singleton.1 (List.mem_of_mem_filter hj)
    exact hi
  have hmore : (r.push i).Within allowed := by
    refine ⟨r.traits_push i ▸ h.traits, fun trait => ?_, ?_⟩
    · rw [r.implementations_push]
      exact List.forall_mem_append.2 ⟨h.impls trait, hnew _⟩
    · rw [r.inherent_push]
      exact List.forall_mem_append.2 ⟨h.inherent, hnew _⟩
  unfold Registry.addImpl
  split
  · exact hmore
  · split
    · exact h
    · split
      · exact h
      · exact hmore

/-- A registry is in bounds if its traits and implementations are. -/
theorem Registry.within_ofLists {traits : List Trait} {impls : List Implementation}
    (htraits : ∀ t ∈ traits, ∀ m ∈ t.methods, m.Within ("Self" :: allowed))
    (himpls : ∀ i ∈ impls, ∀ m ∈ i.methods, m.Within ("Self" :: allowed)) :
    (Registry.ofLists traits impls).1.Within allowed := by
  unfold Registry.ofLists
  refine List.foldlRecOn impls _ (motive := fun acc : Judged Registry => acc.1.Within allowed)
    (List.foldlRecOn traits _ (motive := fun acc : Judged Registry => acc.1.Within allowed) ?_ ?_)
    ?_
  · exact ⟨by simp [Table.values], fun _ => nofun, nofun⟩
  · exact fun _ h t ht => h.addTrait (htraits t ht)
  · exact fun _ h i hi => h.addImpl (himpls i hi)

end Traits

namespace Check

variable {allowed : List String}

/-- Built-in methods answer in the receiver's parameters. -/
theorem within_builtinMethod? {receiver : Ty} (h : receiver.Within allowed) (method : String) :
    ∀ t ∈ builtinMethod? receiver method, t.Within allowed := by
  intro t ht
  have hscalar {p : Primitive} (heq : some (Ty.prim p) = some t) : t.Within allowed := by
    cases heq
    exact Ty.within_prim p
  unfold builtinMethod? at ht
  split at ht
  · exact hscalar ht
  · split at ht
    · cases ht
    · split at ht
      · exact hscalar ht
      · split at ht
        · exact hscalar ht
        · split at ht
          · exact hscalar ht
          · split at ht
            · obtain ⟨u, hu, rfl⟩ := Option.map_eq_some_iff.1 ht
              exact h.indexType? u hu
            · cases ht

/-- A call through traits. -/
theorem within_callTraitMethod {ctx : Context} {receiver : Ty} {args : List Argument}
    (hregistry : ctx.registry.Within allowed) (hreceiver : receiver.Within allowed)
    (hargs : ∀ a ∈ args, a.ty.Within allowed) (method : String) (span : Span) :
    (callTraitMethod ctx receiver method args span).1.Within allowed := by
  unfold callTraitMethod Registry.resolveMethod
  cases hinherent : ctx.registry.inherentMethod? receiver method with
  | some s =>
    exact within_callSignature
      ((hregistry.inherentMethod? method s hinherent).forReceiver hreceiver) hargs
  | none =>
    have hcandidates : ∀ c ∈ ctx.registry.candidates receiver method,
        c.2.Within ("Self" :: allowed) :=
      hregistry.candidates method
    match hc : ctx.registry.candidates receiver method with
    | [] =>
      dsimp only
      cases hbuiltin : builtinMethod? receiver method with
      | none => exact Ty.within_prim _
      | some t => exact within_builtinMethod? hreceiver method t hbuiltin
    | [(trait, s)] =>
      rw [hc] at hcandidates
      exact within_callSignature
        ((hcandidates _ List.mem_cons_self).forReceiver hreceiver) hargs
    | _ :: _ :: _ => exact Ty.within_prim _

/-- A method call, whichever way it is resolved. -/
theorem within_callMethod {ctx : Context} {receiver : Ty} {args : List Argument}
    (hdecls : ctx.decls.Within allowed) (hregistry : ctx.registry.Within allowed)
    (hreceiver : receiver.Within allowed) (hargs : ∀ a ∈ args, a.ty.Within allowed)
    (qualifier : Option String) (method : String) (span : Span) :
    (callMethod ctx receiver qualifier method args span).1.Within allowed := by
  unfold callMethod
  split
  · split
    · next s _ hs =>
        exact within_callSignature (hregistry.qualifiedOutcome hreceiver hs) hargs
    · exact Ty.within_prim _
  · split
    · exact Ty.within_prim _
    · split
      · next s hs => exact within_callSignature (hdecls.methodOf hreceiver method s hs) hargs
      · exact within_callTraitMethod hregistry hreceiver hargs method span

/-! ## Fields and operators -/

/-- Field accesses. -/
theorem within_fieldType {ix : DeclIndex} (hix : ix.Within allowed) {receiver : Ty}
    (h : receiver.Within allowed) (field : String) (span : Span) :
    (fieldType ix receiver field span).1.Within allowed := by
  unfold fieldType
  split
  · exact Ty.within_prim _
  · split
    · next t ht =>
        rcases Option.or_eq_some_iff.1 ht with htuple | ⟨-, hfield⟩
        · unfold tupleElement? at htuple
          split at htuple
          · obtain ⟨i, -, hi⟩ := Option.bind_eq_some_iff.1 htuple
            exact Ty.within_tuple.1 h t (List.mem_of_getElem? hi)
          · cases htuple
        · exact hix.fieldOf h field t hfield
    · exact Ty.within_prim _

/-- Struct literals. -/
theorem within_structType {ix : DeclIndex} (hix : ix.Within allowed) (name : String)
    (inits : List Initializer) (span : Span) :
    (structType ix name inits span).1.Within allowed := by
  unfold structType
  split
  · next fields result hfields => exact hix.literalFields? name _ hfields
  · exact Ty.within_prim _

/-- Literals are closed. -/
theorem within_literalType (value : Literal) : (literalType value).Within allowed := by
  cases value <;> simp [literalType]

/-- Binary operators are closed. -/
theorem within_binaryType (isStrict : Bool) (op : BinaryOp) (left right : Ty) (span : Span) :
    (binaryType isStrict op left right span).1.Within allowed := by
  unfold binaryType arithmeticType uniformType comparisonType
  repeat' split
  all_goals exact Ty.within_prim _

/-- Unary operators. -/
theorem within_unaryType (op : UnaryOp) {operand : Ty} (h : operand.Within allowed) (span : Span) :
    (unaryType op operand span).1.Within allowed := by
  have hunwrap (problem : Ty → Problem) : (unwrapType problem operand span).1.Within allowed := by
    unfold unwrapType Ty.optionalInner?
    cases operand <;> exact h
  unfold unaryType
  split
  · exact Ty.within_prim _
  · cases op with
    | neg =>
      dsimp only
      split
      · exact h
      · exact Ty.within_prim _
    | not =>
      dsimp only
      split <;> exact Ty.within_prim _
    | unwrap => exact hunwrap _
    | forceUnwrap => exact hunwrap _

/-- Indexing. -/
theorem within_indexType {container : Ty} (h : container.Within allowed) (span : Span) :
    (indexType container span).1.Within allowed := by
  unfold indexType
  split
  · exact Ty.within_prim _
  · split
    · next t ht => exact h.indexType? t ht
    · exact Ty.within_prim _

/-- Elements of an iterable. -/
theorem within_elementType {iterable : Ty} (h : iterable.Within allowed) (span : Span) :
    (elementType iterable span).1.Within allowed := by
  unfold elementType
  split
  · next t ht => exact h.elementType? t ht
  · exact Ty.within_prim _

/-- Awaited types. -/
theorem within_awaitedType {t : Ty} (h : t.Within allowed) : (awaitedType t).Within allowed := by
  unfold awaitedType
  split
  · split
    · exact (Ty.within_generic _).1 h _ List.mem_cons_self
    · exact h
  · exact h

/-- The join of two branches. -/
theorem within_branchType {t u : Ty} (ht : t.Within allowed) (hu : u.Within allowed) :
    (branchType t u).Within allowed := by
  unfold branchType
  split
  · exact hu
  · split
    · exact ht
    · exact Ty.within_prim _

end Check

/-! ## Patterns -/

namespace Pattern

variable {allowed : List String} {ix : DeclIndex}

/-- What the positions of a tuple pattern match. -/
theorem within_elementTypes {t : Ty} (h : t.Within allowed) (count : Nat) :
    ∀ u ∈ elementTypes t count, u.Within allowed := by
  unfold elementTypes
  split
  · split
    · exact Ty.within_tuple.1 h
    · simp
  · simp

/-- A looked-up field, or `any`. -/
theorem within_lookup_getD {declared : List (String × Ty)} (h : ∀ p ∈ declared, p.2.Within allowed)
    (name : String) : ((declared.lookup name).getD .any).Within allowed := by
  refine .getD fun t ht => ?_
  obtain ⟨before, after, rfl, -⟩ := List.lookup_eq_some_iff.1 ht
  exact h (name, t) (List.mem_append_right _ List.mem_cons_self)

mutual

/-- The names of a pattern take their types from the value and from the declarations. -/
theorem within_typings (hix : ix.Within allowed) (p : Pattern) {t : Ty} (ht : t.Within allowed) :
    ∀ b ∈ p.typings ix t, b.2.Within allowed := by
  match p with
  | .bare _ name => simpa [typings] using ht
  | .typed _ _ _ | .literal _ _ | .wildcard _ | .range _ _ _ _ => simp [typings]
  | .tuple _ elements =>
    exact within_typingsEach hix elements (within_elementTypes ht elements.length)
  | .array _ elements rest =>
    have helement : (t.elementType?.getD .any).Within allowed := .getD ht.elementType?
    simp only [typings, List.forall_mem_append]
    refine ⟨within_typingsAll hix elements helement, fun b hb => ?_⟩
    obtain ⟨name, -, rfl⟩ := List.mem_map.1 hb
    exact helement
  | .struct _ name fields => exact within_fieldTypings hix fields (hix.patternFields ht name)
  | .tupleStruct _ name elements =>
    refine within_typingsEach hix elements fun u hu => ?_
    obtain ⟨b, hb, rfl⟩ := List.mem_map.1 hu
    exact hix.patternFields ht name b hb
  | .either _ left right =>
    simp only [typings, List.forall_mem_append]
    exact ⟨within_typings hix left ht, within_typings hix right ht⟩

/-- Patterns against one type. -/
theorem within_typingsAll (hix : ix.Within allowed) (ps : List Pattern) {t : Ty}
    (ht : t.Within allowed) : ∀ b ∈ typingsAll ix t ps, b.2.Within allowed := by
  match ps with
  | [] => simp [typingsAll]
  | p :: ps =>
    simp only [typingsAll, List.forall_mem_append]
    exact ⟨within_typings hix p ht, within_typingsAll hix ps ht⟩

/-- Patterns against a type each. -/
theorem within_typingsEach (hix : ix.Within allowed) (ps : List Pattern) {types : List Ty}
    (htypes : ∀ t ∈ types, t.Within allowed) :
    ∀ b ∈ typingsEach ix types ps, b.2.Within allowed := by
  match ps with
  | [] => simp [typingsEach]
  | p :: ps =>
    simp only [typingsEach, List.forall_mem_append]
    refine ⟨within_typings hix p (.getD fun t ht => htypes t (List.mem_of_mem_head? ht)), ?_⟩
    exact within_typingsEach hix ps fun t ht => htypes t (List.mem_of_mem_tail ht)

/-- Field patterns. -/
theorem within_fieldTypings (hix : ix.Within allowed) (fields : List FieldPattern)
    {declared : List (String × Ty)} (hdeclared : ∀ p ∈ declared, p.2.Within allowed) :
    ∀ b ∈ fieldTypings ix declared fields, b.2.Within allowed := by
  match fields with
  | [] => simp [fieldTypings]
  | .shorthand name :: fields =>
    simp only [fieldTypings, List.forall_mem_cons]
    exact ⟨within_lookup_getD hdeclared name, within_fieldTypings hix fields hdeclared⟩
  | .nested name p :: fields =>
    simp only [fieldTypings, List.forall_mem_append]
    exact ⟨within_typings hix p (within_lookup_getD hdeclared name),
      within_fieldTypings hix fields hdeclared⟩

end

end Pattern

/-! ## Written types -/

/-- The names in force stand for types with allowed type parameters. -/
def Generics.Within (allowed : List String) (g : Generics) : Prop :=
  ∀ layer ∈ g.layers, layer.2.Within allowed

namespace Generics

variable {allowed more : List String} {g : Generics}

/-- No generics are in bounds of anything. -/
theorem within_empty : Within allowed {} := by
  simp [Within]

/-- More parameters may be allowed. -/
theorem Within.mono (h : g.Within allowed) (hsub : allowed ⊆ more) : g.Within more :=
  fun layer hlayer => (h layer hlayer).mono hsub

/-- An alias in bounds may be added. -/
theorem Within.withAlias (h : g.Within allowed) {name : String} {t : Ty} (ht : t.Within allowed) :
    (g.withAlias name t).Within allowed :=
  List.forall_mem_cons.2 ⟨ht, h⟩

/-- Allowed parameters may be added. -/
theorem Within.extend (h : g.Within allowed) {params : List TypeParam}
    (hparams : params.map TypeParam.name ⊆ allowed) : (g.extend params).Within allowed := by
  unfold Generics.extend
  induction params generalizing g with
  | nil => exact h
  | cons p params ih =>
    obtain ⟨hp, hrest⟩ := List.cons_subset.1 hparams
    exact ih (h.withAlias ((Ty.within_param _ _).2 hp)) hrest

/-- Parameters as types keep their names. -/
theorem filterMap_toTypes (params : List TypeParam) :
    (toTypes params).filterMap Ty.paramName? = params.map TypeParam.name := by
  induction params with
  | nil => rfl
  | cons p params ih => exact congrArg (p.name :: ·) ih

/-- Allowed parameters as types are in bounds. -/
theorem within_toTypes {params : List TypeParam} (h : params.map TypeParam.name ⊆ allowed) :
    ∀ t ∈ toTypes params, t.Within allowed := by
  intro t ht
  obtain ⟨p, hp, rfl⟩ := List.mem_map.1 ht
  exact (Ty.within_param _ _).2 (h (List.mem_map_of_mem hp))

end Generics

/-- A written type has the type parameters in force only. -/
theorem Generics.Within.resolve {allowed : List String} {g : Generics} (hg : g.Within allowed)
    (ix : DeclIndex) (e : TypeExpr) : (e.resolve ix g).1.Within allowed := by
  have hlayers : ∀ layer ∈ g.layers, ∀ p ∈ layer.2.params, p.1 ∈ allowed :=
    fun layer hlayer p hp => hg layer hlayer (layer.2.paramNames_eq_map ▸ List.mem_map_of_mem hp)
  intro name hname
  rw [Ty.paramNames_eq_map] at hname
  obtain ⟨p, hp, rfl⟩ := List.mem_map.1 hname
  exact e.params_resolve hlayers ix p hp

end UnitAnalysis

import Mathlib.Data.List.Basic
import UnitAnalysis.Proofs.Ty.Bind

/-!
# The type parameters of a type

Which type parameters occur in a type, and where they come from when parameters are replaced: from
what is put in, or from the type itself when nothing is put in for them. Walking a type along an
actual type puts in parts of the actual type only.
-/

set_option autoImplicit false

namespace UnitAnalysis

namespace Ty

mutual

/-- The type parameters that occur in a type, from left to right. -/
def paramNames : Ty → List String
  | prim _ => []
  | named _ => []
  | generic _ args => paramNamesAll args
  | optional inner => inner.paramNames
  | array element => element.paramNames
  | tuple elements => paramNamesAll elements
  | function params ret => paramNamesAll params ++ ret.paramNames
  | param name _ => [name]

/-- The type parameters that occur in several types. -/
def paramNamesAll : List Ty → List String
  | [] => []
  | t :: ts => t.paramNames ++ paramNamesAll ts

end

mutual

theorem paramNames_eq_map : ∀ t : Ty, t.paramNames = t.params.map Prod.fst
  | prim _ | named _ | param _ _ => by simp [paramNames, params]
  | generic _ args | tuple elements => by rw [paramNames, params, paramNamesAll_eq_map]
  | optional inner => by rw [paramNames, params, inner.paramNames_eq_map]
  | array element => by rw [paramNames, params, element.paramNames_eq_map]
  | function params ret => by
    rw [paramNames, Ty.params, List.map_append, paramNamesAll_eq_map, ret.paramNames_eq_map]

theorem paramNamesAll_eq_map : ∀ ts : List Ty, paramNamesAll ts = (paramsAll ts).map Prod.fst
  | [] => by rw [paramNamesAll, paramsAll, List.map_nil]
  | t :: ts => by
    rw [paramNamesAll, paramsAll, List.map_append, t.paramNames_eq_map, paramNamesAll_eq_map ts]

end

theorem hasParams_eq_false_iff {t : Ty} : t.hasParams = false ↔ t.paramNames = [] := by
  rw [hasParams_eq_false_iff_params, paramNames_eq_map, List.map_eq_nil_iff]

theorem mem_paramNamesAll {name : String} {ts : List Ty} :
    name ∈ paramNamesAll ts ↔ ∃ t ∈ ts, name ∈ t.paramNames := by
  induction ts with
  | nil => simp [paramNamesAll]
  | cons t ts ih => simp [paramNamesAll, ih]

/-- All type parameters of a type are among the allowed ones. -/
def Within (allowed : List String) (t : Ty) : Prop :=
  t.paramNames ⊆ allowed

section Within

variable {allowed more : List String} {t : Ty} {ts : List Ty}

theorem Within.mono (h : t.Within allowed) (hsub : allowed ⊆ more) : t.Within more :=
  fun _ hname => hsub (h hname)

@[simp] theorem within_prim (p : Primitive) : (prim p).Within allowed :=
  List.nil_subset _

@[simp] theorem within_named (name : String) : (named name).Within allowed :=
  List.nil_subset _

@[simp] theorem within_optional : (optional t).Within allowed ↔ t.Within allowed := Iff.rfl

@[simp] theorem within_array : (array t).Within allowed ↔ t.Within allowed := Iff.rfl

theorem paramNamesAll_subset_iff : paramNamesAll ts ⊆ allowed ↔ ∀ t ∈ ts, t.Within allowed := by
  constructor
  · intro h t ht name hname
    exact h (mem_paramNamesAll.2 ⟨t, ht, hname⟩)
  · intro h name hname
    obtain ⟨t, ht, hmem⟩ := mem_paramNamesAll.1 hname
    exact h t ht hmem

@[simp] theorem within_generic (base : String) :
    (generic base ts).Within allowed ↔ ∀ t ∈ ts, t.Within allowed :=
  paramNamesAll_subset_iff

@[simp] theorem within_tuple : (tuple ts).Within allowed ↔ ∀ t ∈ ts, t.Within allowed :=
  paramNamesAll_subset_iff

@[simp] theorem within_function :
    (function ts t).Within allowed ↔ (∀ p ∈ ts, p.Within allowed) ∧ t.Within allowed := by
  rw [← paramNamesAll_subset_iff]
  exact List.append_subset

@[simp] theorem within_param (name : String) (bounds : NameSet) :
    (param name bounds).Within allowed ↔ name ∈ allowed := by
  simp [Within, paramNames]

theorem within_nil : t.Within [] ↔ t.hasParams = false := by
  rw [hasParams_eq_false_iff]
  exact List.subset_nil

theorem Within.getD {o : Option Ty} (h : ∀ t ∈ o, t.Within allowed) :
    (o.getD any).Within allowed := by
  cases o with
  | none => exact within_prim _
  | some t => exact h t rfl

/-- What a loop sees, and what is found at an index, has no type parameters of its own. -/
theorem Within.elementType? (h : t.Within allowed) : ∀ u ∈ t.elementType?, u.Within allowed := by
  intro u hu
  unfold Ty.elementType? at hu
  split at hu
  · cases hu
    exact h
  · next base args =>
      rw [within_generic] at h
      have hhead : ∀ a ∈ args.head?, a.Within allowed := fun a ha =>
        h a (List.mem_of_mem_head? ha)
      split at hu
      · cases hu
        exact .getD hhead
      · split at hu
        · cases hu
          rw [within_tuple]
          exact fun a ha => h a (List.mem_of_mem_take ha)
        · cases hu
  · cases hu
    exact within_prim _
  · cases hu
    exact within_prim _
  · cases hu

theorem Within.indexType? (h : t.Within allowed) : ∀ u ∈ t.indexType?, u.Within allowed := by
  intro u hu
  unfold Ty.indexType? at hu
  split at hu
  · next base args =>
      split at hu
      · cases hu
        rw [within_generic] at h
        exact .getD fun a ha => h a (List.mem_of_getElem? ha)
      · exact h.elementType? u hu
  · exact h.elementType? u hu

end Within

/-- The name of a type parameter. -/
def paramName? : Ty → Option String
  | param name _ => some name
  | _ => none

end Ty

/-! ## Replacing type parameters -/

namespace Subst

/-- Everything that is put in for type parameters has allowed type parameters only. -/
def Within (allowed : List String) (s : Subst) : Prop :=
  ∀ name t, s.get? name = some t → t.Within allowed

variable {allowed : List String} {s : Subst}

/-- The type parameters of an instance are, in the order of the type parameters of the type, those
of what is put in for each, or itself when nothing is put in. -/
theorem paramNames_apply (s : Subst) (t : Ty) :
    (s.apply t).paramNames =
      t.paramNames.flatMap fun name => ((s.get? name).map Ty.paramNames).getD [name] := by
  rw [Ty.paramNames_eq_map, Ty.paramNames_eq_map, s.action_apply.params_eq, List.map_flatMap,
    List.flatMap_map]
  refine List.flatMap_congr fun p _ => ?_
  rw [← Ty.paramNames_eq_map, apply_param]
  cases s.get? p.1 <;> simp [Ty.paramNames]

/-- A type parameter comes from what is put in, or nothing is put in for it. -/
theorem mem_paramNames_apply {name : String} {t : Ty} (h : name ∈ (s.apply t).paramNames) :
    (∃ other u, s.get? other = some u ∧ name ∈ u.paramNames) ∨
      (name ∈ t.paramNames ∧ s.get? name = none) := by
  rw [paramNames_apply] at h
  obtain ⟨other, hother, hmem⟩ := List.mem_flatMap.1 h
  cases hget : s.get? other with
  | some u =>
    rw [hget] at hmem
    exact .inl ⟨other, u, hget, hmem⟩
  | none =>
    rw [hget] at hmem
    obtain rfl := List.mem_singleton.1 hmem
    exact .inr ⟨hother, hget⟩

/-- A type stays within bounds when something is put in for each type parameter beyond them. -/
theorem Within.apply_of_bound (beyond : List String) {t : Ty} (hs : s.Within allowed)
    (ht : t.Within (beyond ++ allowed)) (hbound : ∀ name ∈ beyond, (s.get? name).isSome) :
    (s.apply t).Within allowed := by
  intro name hname
  rcases mem_paramNames_apply hname with ⟨other, u, hother, hu⟩ | ⟨hmem, hnone⟩
  · exact hs other u hother hu
  · rcases List.mem_append.1 (ht hmem) with hbeyond | hallowed
    · have := hbound name hbeyond
      rw [hnone] at this
      cases this
    · exact hallowed

theorem Within.apply {t : Ty} (hs : s.Within allowed) (ht : t.Within allowed) :
    (s.apply t).Within allowed :=
  hs.apply_of_bound [] ht (by simp)

theorem within_empty : Within allowed {} := by
  intro name t h
  simp [get?, Table.get?, Table.find] at h

theorem Within.insert {name : String} {t : Ty} (hs : s.Within allowed) (ht : t.Within allowed) :
    (s.insert name t).Within allowed :=
  Table.forall_get?_insert ht hs

theorem Within.bindParam {actual : Ty} (hs : s.Within allowed) (hactual : actual.Within allowed)
    (name : String) : (s.bindParam name actual).2.Within allowed := by
  unfold Subst.bindParam
  split
  · exact hs
  · split
    · exact hs
    · exact hs.insert hactual

theorem within_bind_and_bindAll (allowed : List String) :
    (∀ (s : Subst) pattern actual, s.Within allowed → actual.Within allowed →
      (s.bind pattern actual).2.Within allowed) ∧
    ∀ (s : Subst) patterns actuals, s.Within allowed → (∀ a ∈ actuals, a.Within allowed) →
      (s.bindAll patterns actuals).2.Within allowed := by
  apply bind.mutual_induct
    (fun s pattern actual => s.Within allowed → actual.Within allowed →
      (s.bind pattern actual).2.Within allowed)
    (fun s patterns actuals => s.Within allowed → (∀ a ∈ actuals, a.Within allowed) →
      (s.bindAll patterns actuals).2.Within allowed)
  case case1 =>
    intro s name bounds actual hs hactual
    rw [bind]
    exact hs.bindParam hactual name
  case case2 | case3 =>
    intro s p a ih hs hactual
    rw [bind]
    exact ih hs hactual
  case case4 =>
    intro s p actual hplain ih hs hactual
    rw [bind]
    · exact ih hs hactual
    · exact hplain
  case case5 =>
    intro s f ps g as hsame ih hs hactual
    rw [bind, if_pos hsame]
    exact ih hs ((Ty.within_generic g).1 hactual)
  case case7 =>
    intro s ps as hsame ih hs hactual
    rw [bind, if_pos hsame]
    exact ih hs (Ty.within_tuple.1 hactual)
  case case9 =>
    intro s ps r as t hsame params ihparams ihret hs hactual
    rw [bind, if_pos hsame]
    obtain ⟨has, ht⟩ := Ty.within_function.1 hactual
    exact ihret (ihparams hs has) ht
  case case6 | case8 | case10 =>
    intros
    rw [bind, if_neg ‹_›]
    assumption
  case case11 =>
    intro t s actual
    intros
    rw [bind]
    · assumption
    all_goals assumption
  case case12 =>
    intro s p ps a as first ihfirst ihrest hs hactuals
    rw [bindAll]
    obtain ⟨ha, has⟩ := List.forall_mem_cons.1 hactuals
    exact ihrest (ihfirst hs ha) has
  case case13 =>
    intro ps s as hends hs hactuals
    rw [bindAll]
    · exact hs
    · exact hends

/-- Walking along an actual type puts in parts of that type only. -/
theorem Within.bind {actual : Ty} (hs : s.Within allowed) (pattern : Ty)
    (hactual : actual.Within allowed) : (s.bind pattern actual).2.Within allowed :=
  (within_bind_and_bindAll allowed).1 s pattern actual hs hactual

theorem within_ofList {pairs : List (String × Ty)} (h : ∀ p ∈ pairs, p.2.Within allowed) :
    (ofList pairs).Within allowed := by
  suffices hfold : ∀ s : Subst, s.Within allowed →
      Within allowed ⟨pairs.foldl (fun t p => t.insert p.1 p.2) s.bindings⟩ from
    hfold {} within_empty
  induction pairs with
  | nil => exact fun s hs => hs
  | cons p pairs ih =>
    intro s hs
    obtain ⟨hp, hpairs⟩ := List.forall_mem_cons.1 h
    exact ih hpairs (s.insert p.1 p.2) (hs.insert hp)

end Subst

end UnitAnalysis

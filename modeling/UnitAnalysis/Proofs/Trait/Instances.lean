import Mathlib.Tactic.Tauto
import UnitAnalysis.Proofs.Ty.Params
import UnitAnalysis.Trait.Registry

/-!
# Implementations and the instances of their targets

The target of an implementation can have type parameters, and then stands for all types that come
about when something is put in for them. Whether an implementation applies to a receiver is told by
the names of the two types where both have one, and by compatibility otherwise, and neither looks at
type parameters. By name, `Box<T>` is the same as each of its instances. By compatibility, a type
parameter fits only what is shown by its own name, `Any`, and `Void` directly inside an optional or
array.

So an implementation for a type with a name applies to all instances of its target, and one for any
other type to all of them only when none of its type parameters occurs in the target
(`Implementation.appliesTo_instances_iff`).
-/

set_option autoImplicit false

namespace UnitAnalysis

namespace Ty

mutual

/-- The places of type parameters in a type, from left to right, each with whether it stands
directly inside an optional or array. `isInside` says so of the type itself. -/
def paramPlaces (isInside : Bool) : Ty → List (Bool × String)
  | prim _ => []
  | named _ => []
  | generic _ args => paramPlacesAll args
  | optional inner => inner.paramPlaces true
  | array element => element.paramPlaces true
  | tuple elements => paramPlacesAll elements
  | function params ret => paramPlacesAll params ++ ret.paramPlaces false
  | param name _ => [(isInside, name)]

/-- The places of type parameters in several types, none of them directly inside an optional or
array. -/
def paramPlacesAll : List Ty → List (Bool × String)
  | [] => []
  | t :: ts => t.paramPlaces false ++ paramPlacesAll ts

end

mutual

/-- Places name the parameters. -/
theorem map_snd_paramPlaces : ∀ (isInside : Bool) (t : Ty),
    (t.paramPlaces isInside).map Prod.snd = t.paramNames
  | _, prim _ | _, named _ | _, param _ _ => by simp [paramPlaces, paramNames]
  | _, generic _ args => by simp only [paramPlaces, paramNames, map_snd_paramPlacesAll args]
  | _, optional inner => by simp only [paramPlaces, paramNames, map_snd_paramPlaces true inner]
  | _, array element => by simp only [paramPlaces, paramNames, map_snd_paramPlaces true element]
  | _, tuple elements => by simp only [paramPlaces, paramNames, map_snd_paramPlacesAll elements]
  | _, function params ret => by
    simp only [paramPlaces, paramNames, List.map_append, map_snd_paramPlacesAll params,
      map_snd_paramPlaces false ret]

/-- Places in several types. -/
theorem map_snd_paramPlacesAll : ∀ ts : List Ty,
    (paramPlacesAll ts).map Prod.snd = paramNamesAll ts
  | [] => by simp [paramPlacesAll, paramNamesAll]
  | t :: ts => by
    simp only [paramPlacesAll, paramNamesAll, List.map_append, map_snd_paramPlaces false t,
      map_snd_paramPlacesAll ts]

end

end Ty

/-! ## A type and its instance -/

namespace Subst

/-- What is put in at the place of a type parameter fits the parameter: it is shown by the same
name, or is `Any`, or is `Void` directly inside an optional or array. -/
def FitsAt (s : Subst) (place : Bool × String) : Prop :=
  ∀ t, s.get? place.2 = some t → t = .any ∨ t.name = place.2 ∨ place.1 = true ∧ t = .void

/-- A parameter by itself. -/
theorem compatible_apply_param (s : Subst) (name : String) (bounds : NameSet) :
    (Ty.param name bounds).compatible (s.apply (.param name bounds)) = true ↔
      s.FitsAt (false, name) := by
  unfold FitsAt
  rw [apply_param]
  cases hget : s.get? name with
  | none => simp [Ty.compatible_refl]
  | some t =>
    simp only [Option.getD_some, Option.some.injEq, forall_eq', Bool.false_eq_true, false_and,
      or_false]
    by_cases hany : t = .any
    · simp [hany]
    · have hnames : (Ty.param name bounds).compatible t = (name == t.name) := by
        rw [Ty.compatible.eq_def]
        split <;> simp_all [Ty.name]
      rw [hnames, beq_iff_eq, eq_comm]
      simp [hany]

/-- Nothing but a type parameter can turn into `Void`. -/
theorem isVoid_apply_iff (s : Subst) {t : Ty} (hparam : ∀ name bounds, t ≠ .param name bounds) :
    (s.apply t).isVoid = true ↔ t.isVoid = true := by
  cases t with
  | param name bounds => exact absurd rfl (hparam name bounds)
  | _ => simp [apply_eq_replace, replace, Ty.isVoid]

/-- What a place directly inside an optional or array adds to compatibility. -/
theorem compatible_apply_inside_iff (s : Subst) {t : Ty}
    (h : t.compatible (s.apply t) = true ↔ ∀ place ∈ t.paramPlaces false, s.FitsAt place) :
    (t.isVoid || (s.apply t).isVoid || t.compatible (s.apply t)) = true ↔
      ∀ place ∈ t.paramPlaces true, s.FitsAt place := by
  rw [Bool.or_eq_true, Bool.or_eq_true]
  by_cases hparam : ∃ name bounds, t = .param name bounds
  · obtain ⟨name, bounds, rfl⟩ := hparam
    have hvoid : (Ty.param name bounds).isVoid = false := rfl
    rw [hvoid, compatible_apply_param, apply_param]
    simp only [Ty.paramPlaces, List.forall_mem_singleton, FitsAt]
    cases hget : s.get? name with
    | none => simp [Ty.isVoid]
    | some u =>
      simp only [Option.getD_some, Option.some.injEq, forall_eq', Ty.isVoid_iff]
      tauto
  · have hne : ∀ name bounds, t ≠ .param name bounds :=
      fun name bounds heq => hparam ⟨name, bounds, heq⟩
    have hplaces : t.paramPlaces true = t.paramPlaces false := by
      cases t with
      | param name bounds => exact absurd rfl (hne name bounds)
      | _ => simp only [Ty.paramPlaces]
    rw [isVoid_apply_iff s hne, or_self, hplaces, ← h]
    constructor
    · rintro (hvoid | hfits)
      · rw [Ty.isVoid_iff.1 hvoid, s.action_apply.prim]
        exact Ty.compatible_refl .void
      · exact hfits
    · exact .inr

mutual

/-- A type fits its instance just when what is put in fits at all places. -/
theorem compatible_apply_iff (s : Subst) : ∀ t : Ty,
    t.compatible (s.apply t) = true ↔ ∀ place ∈ t.paramPlaces false, s.FitsAt place
  | .prim p | .named n => by
    simp [s.action_apply.prim, s.action_apply.named, Ty.paramPlaces, Ty.compatible_refl]
  | .generic base args => by
    simp [s.action_apply.generic, Ty.paramPlaces, Ty.compatible, compatibleAll_map_apply_iff s args]
  | .optional inner => by
    rw [s.action_apply.optional, Ty.paramPlaces, Ty.compatible]
    exact compatible_apply_inside_iff s (compatible_apply_iff s inner)
  | .array element => by
    rw [s.action_apply.array, Ty.paramPlaces, Ty.compatible]
    exact compatible_apply_inside_iff s (compatible_apply_iff s element)
  | .tuple elements => by
    simp [s.action_apply.tuple, Ty.paramPlaces, Ty.compatible,
      compatibleAll_map_apply_iff s elements]
  | .function params ret => by
    simp [s.action_apply.function, Ty.paramPlaces, Ty.compatible,
      compatibleAll_map_apply_iff s params, compatible_apply_iff s ret, or_imp, forall_and]
  | .param name bounds => by
    simpa [Ty.paramPlaces] using compatible_apply_param s name bounds

/-- Several types. -/
theorem compatibleAll_map_apply_iff (s : Subst) : ∀ ts : List Ty,
    Ty.compatibleAll ts (ts.map s.apply) = true ↔ ∀ place ∈ Ty.paramPlacesAll ts, s.FitsAt place
  | [] => by simp [Ty.paramPlacesAll, Ty.compatibleAll]
  | t :: ts => by
    simp [Ty.paramPlacesAll, Ty.compatibleAll, compatible_apply_iff s t,
      compatibleAll_map_apply_iff s ts, or_imp, forall_and]

end

/-- Type parameters that something is put in for are among the given ones. -/
def ReplacesOnly (s : Subst) (params : List Ty) : Prop :=
  ∀ name t, s.get? name = some t → name ∈ params.filterMap Ty.paramName?

/-- A substitution for one name. -/
theorem get?_ofList_singleton (name other : String) (t : Ty) :
    (ofList [(name, t)]).get? other = if name = other then some t else none := by
  simp [ofList, get?, Table.ofList, Table.get?, Table.insert, Table.find_put, Table.find]

/-- It replaces that name only. -/
theorem replacesOnly_ofList_singleton {name : String} {params : List Ty}
    (h : name ∈ params.filterMap Ty.paramName?) (t : Ty) :
    (ofList [(name, t)]).ReplacesOnly params := by
  intro other u hother
  rw [get?_ofList_singleton] at hother
  split at hother
  · next heq => exact heq ▸ h
  · cases hother

/-- Putting in a type that is shown by another name does not fit anywhere. -/
theorem not_fitsAt_renamed (isInside : Bool) (name : String) :
    ¬ (ofList [(name, .named (name ++ "?"))]).FitsAt (isInside, name) := by
  intro hfits
  have hget := (get?_ofList_singleton name name (.named (name ++ "?"))).trans (if_pos rfl)
  rcases hfits _ hget with hany | hname | ⟨-, hvoid⟩
  · cases hany
  · have hlength := congrArg String.length hname
    simp [Ty.name] at hlength
  · cases hvoid

end Subst

/-! ## Implementations -/

namespace Implementation

/-- An instance of a type with a name has that name. -/
theorem nominalName?_apply (s : Subst) {t : Ty} (h : t.nominalName?.isSome) :
    (s.apply t).nominalName? = t.nominalName? := by
  cases t with
  | prim p => rw [s.action_apply.prim]
  | named n => rw [s.action_apply.named]
  | generic base args =>
    rw [s.action_apply.generic]
    rfl
  | _ => cases h

/-- An implementation applies to an instance of its target when the target has a name, and otherwise
just when what is put in fits at all places. -/
theorem appliesTo_apply_iff (i : Implementation) (s : Subst) :
    i.appliesTo (s.apply i.target) = true ↔
      i.target.nominalName?.isSome ∨ ∀ place ∈ i.target.paramPlaces false, s.FitsAt place := by
  rw [← s.compatible_apply_iff]
  unfold appliesTo
  cases hname : i.target.nominalName? with
  | none => simp
  | some name =>
    have hsome : i.target.nominalName?.isSome := by rw [hname]; rfl
    rw [nominalName?_apply s hsome, hname]
    simp

/-- **When a generic implementation applies to the instances of its target.** To the instance for
one substitution it applies just when the target has a name, or what is put in at each place of a
type parameter is shown by the name of that parameter, is `Any`, or is `Void` directly inside an
optional or array. So it applies to all instances for its own type parameters just when the target
has a name or none of these type parameters occurs in it. -/
theorem appliesTo_instances_iff (i : Implementation) :
    (∀ s : Subst, i.appliesTo (s.apply i.target) = true ↔
      i.target.nominalName?.isSome ∨ ∀ place ∈ i.target.paramPlaces false, s.FitsAt place) ∧
    ((∀ s : Subst, s.ReplacesOnly i.typeParams → i.appliesTo (s.apply i.target) = true) ↔
      i.target.nominalName?.isSome ∨
        ∀ name ∈ i.target.paramNames, name ∉ i.typeParams.filterMap Ty.paramName?) := by
  refine ⟨i.appliesTo_apply_iff, fun hall => ?_, fun h s hs => ?_⟩
  · rw [or_iff_not_imp_left]
    intro hnone name hoccurs hdeclared
    -- a type with another name is put in for the type parameter
    have happlies := hall _ (Subst.replacesOnly_ofList_singleton hdeclared (.named (name ++ "?")))
    have hfits := ((i.appliesTo_apply_iff _).1 happlies).resolve_left hnone
    rw [← Ty.map_snd_paramPlaces false] at hoccurs
    obtain ⟨⟨isInside, _⟩, hplace, rfl⟩ := List.mem_map.1 hoccurs
    exact Subst.not_fitsAt_renamed isInside _ (hfits _ hplace)
  · refine (i.appliesTo_apply_iff s).2 (h.imp_right fun hfree place hplace t ht => ?_)
    have hoccurs : place.2 ∈ i.target.paramNames := by
      rw [← Ty.map_snd_paramPlaces false]
      exact List.mem_map_of_mem hplace
    exact absurd (hs place.2 t ht) (hfree place.2 hoccurs)

/-- An implementation for arrays of all element types. -/
def showArrays : Implementation where
  traitName := some "Show"
  target := .array (.bounded "T" [])
  typeParams := [.bounded "T" []]
  methods := [{ name := "show", ret := some .string, origin := ⟨1⟩ }]
  origin := ⟨0⟩

/-- It does not apply to arrays of numbers. -/
theorem showArrays_not_appliesTo_numbers :
    (Subst.ofList [("T", .int)]).ReplacesOnly showArrays.typeParams ∧
      (Subst.ofList [("T", .int)]).apply showArrays.target = .array .int ∧
      showArrays.appliesTo (.array .int) = false := by
  exact ⟨Subst.replacesOnly_ofList_singleton (List.mem_singleton_self _) .int, by rfl, by decide⟩

end Implementation

end UnitAnalysis

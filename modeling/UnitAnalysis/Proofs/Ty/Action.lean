import UnitAnalysis.Ty.Subst

/-!
# Maps that change type parameters only

Replacing type parameters goes through all of a type and changes nothing but the parameters. So do
the identity and one replacement after another. Two maps of this kind agree on a type just when they
agree on the parameters in it, and the parameters of the outcome are those of what is put in. All
laws of replacing are read off these two facts.
-/

set_option autoImplicit false

namespace UnitAnalysis

namespace Ty

mutual

/-- The type parameters that occur in a type, with their bounds, from left to right. -/
def params : Ty → List (String × NameSet)
  | prim _ => []
  | named _ => []
  | generic _ args => paramsAll args
  | optional inner => inner.params
  | array element => element.params
  | tuple elements => paramsAll elements
  | function params ret => paramsAll params ++ ret.params
  | param name bounds => [(name, bounds)]

/-- The type parameters that occur in several types. -/
def paramsAll : List Ty → List (String × NameSet)
  | [] => []
  | t :: ts => t.params ++ paramsAll ts

end

theorem paramsAll_eq_flatMap (ts : List Ty) : paramsAll ts = ts.flatMap params := by
  induction ts with
  | nil => rfl
  | cons t ts ih => rw [paramsAll, ih, List.flatMap_cons]

mutual

theorem hasParams_eq_false_iff_params : ∀ {t : Ty}, t.hasParams = false ↔ t.params = []
  | prim _ | named _ | param _ _ => by simp [hasParams, params]
  | generic _ args | tuple elements => by
    simp only [hasParams, params, anyHasParams_eq_false_iff_params]
  | optional inner => by simp only [hasParams, params, inner.hasParams_eq_false_iff_params]
  | array element => by simp only [hasParams, params, element.hasParams_eq_false_iff_params]
  | function params ret => by
    simp only [hasParams, Ty.params, Bool.or_eq_false_iff, List.append_eq_nil_iff,
      anyHasParams_eq_false_iff_params, ret.hasParams_eq_false_iff_params]

theorem anyHasParams_eq_false_iff_params :
    ∀ {ts : List Ty}, anyHasParams ts = false ↔ paramsAll ts = []
  | [] => by simp [anyHasParams, paramsAll]
  | t :: ts => by
    simp only [anyHasParams, paramsAll, Bool.or_eq_false_iff, List.append_eq_nil_iff,
      t.hasParams_eq_false_iff_params, anyHasParams_eq_false_iff_params]

end

/-- A map of types changes nothing but type parameters. -/
structure Action (f : Ty → Ty) : Prop where
  prim : ∀ p, f (.prim p) = .prim p
  named : ∀ name, f (.named name) = .named name
  generic : ∀ base args, f (.generic base args) = .generic base (args.map f)
  optional : ∀ inner, f (.optional inner) = .optional (f inner)
  array : ∀ element, f (.array element) = .array (f element)
  tuple : ∀ elements, f (.tuple elements) = .tuple (elements.map f)
  function : ∀ params ret, f (.function params ret) = .function (params.map f) (f ret)

namespace Action

variable {f g : Ty → Ty}

protected theorem id : Action id := by
  constructor <;> simp

theorem comp (hf : Action f) (hg : Action g) : Action fun t => f (g t) where
  prim p := by rw [hg.prim, hf.prim]
  named name := by rw [hg.named, hf.named]
  generic base args := by rw [hg.generic, hf.generic, List.map_map]; rfl
  optional inner := by rw [hg.optional, hf.optional]
  array element := by rw [hg.array, hf.array]
  tuple elements := by rw [hg.tuple, hf.tuple, List.map_map]; rfl
  function params ret := by rw [hg.function, hf.function, List.map_map]; rfl

mutual

/-- Two maps agree on a type just when they agree on the parameters in it. -/
theorem eq_iff (hf : Action f) (hg : Action g) : ∀ {t : Ty},
    f t = g t ↔ ∀ p ∈ t.params, f (.param p.1 p.2) = g (.param p.1 p.2)
  | .prim _ => by simp [hf.prim, hg.prim, params]
  | .named _ => by simp [hf.named, hg.named, params]
  | .generic _ args => by simp only [hf.generic, hg.generic, params, generic.injEq, true_and,
      map_eq_iff hf hg]
  | .optional inner => by simp only [hf.optional, hg.optional, params, optional.injEq,
      eq_iff hf hg (t := inner)]
  | .array element => by simp only [hf.array, hg.array, params, array.injEq,
      eq_iff hf hg (t := element)]
  | .tuple elements => by simp only [hf.tuple, hg.tuple, params, tuple.injEq, map_eq_iff hf hg]
  | .function params ret => by simp only [hf.function, hg.function, Ty.params, function.injEq,
      map_eq_iff hf hg, eq_iff hf hg (t := ret), List.forall_mem_append]
  | .param name bounds => by simp [params]

theorem map_eq_iff (hf : Action f) (hg : Action g) : ∀ ts : List Ty,
    ts.map f = ts.map g ↔ ∀ p ∈ paramsAll ts, f (.param p.1 p.2) = g (.param p.1 p.2)
  | [] => by simp [paramsAll]
  | t :: ts => by simp only [List.map_cons, List.cons.injEq, paramsAll, List.forall_mem_append,
      eq_iff hf hg (t := t), map_eq_iff hf hg ts]

end

mutual

/-- The parameters of an outcome are, place by place, those of what is put in. -/
theorem params_eq (hf : Action f) : ∀ t : Ty,
    (f t).params = t.params.flatMap fun p => (f (.param p.1 p.2)).params
  | .prim _ => by simp [hf.prim, params]
  | .named _ => by simp [hf.named, params]
  | .generic _ args => by simp only [hf.generic, params, paramsAll_map hf args]
  | .optional inner => by simp only [hf.optional, params, params_eq hf inner]
  | .array element => by simp only [hf.array, params, params_eq hf element]
  | .tuple elements => by simp only [hf.tuple, params, paramsAll_map hf elements]
  | .function params ret => by
    simp only [hf.function, Ty.params, paramsAll_map hf params, params_eq hf ret,
      List.flatMap_append]
  | .param name bounds => by simp [params]

theorem paramsAll_map (hf : Action f) : ∀ ts : List Ty,
    paramsAll (ts.map f) = (paramsAll ts).flatMap fun p => (f (.param p.1 p.2)).params
  | [] => by simp [paramsAll]
  | t :: ts => by
    simp only [List.map_cons, paramsAll, params_eq hf t, paramsAll_map hf ts,
      List.flatMap_append]

end

end Action

end Ty

namespace Subst

variable (s : Subst)

theorem replaceAll_eq_map (ts : List Ty) : s.replaceAll ts = ts.map s.replace := by
  induction ts with
  | nil => rfl
  | cons t ts ih => rw [replaceAll, ih, List.map_cons]

theorem action_replace : Ty.Action s.replace := by
  constructor <;> simp [replace, replaceAll_eq_map]

theorem get?_eq_none_of_isEmpty {s : Subst} (h : s.isEmpty = true) (name : String) :
    s.get? name = none := by
  have hentries : s.bindings.entries = [] := List.isEmpty_iff.1 h
  rw [get?, Table.get?, hentries, Table.find]

theorem replace_eq_self {s : Subst} {t : Ty} (h : ∀ p ∈ t.params, s.get? p.1 = none) :
    s.replace t = t := by
  refine (s.action_replace.eq_iff .id).2 fun p hp => ?_
  rw [replace, h p hp]
  rfl

/-- Taking a type as it is where there is nothing to put in is the same as going through it. -/
theorem apply_eq_replace (t : Ty) : s.apply t = s.replace t := by
  unfold apply
  split
  · next hempty => exact (replace_eq_self fun p _ => get?_eq_none_of_isEmpty hempty p.1).symm
  · rfl

theorem action_apply : Ty.Action s.apply := by
  have heq : s.apply = s.replace := funext s.apply_eq_replace
  rw [heq]
  exact s.action_replace

theorem apply_param (name : String) (bounds : NameSet) :
    s.apply (.param name bounds) = (s.get? name).getD (.param name bounds) := by
  rw [apply_eq_replace, replace]

theorem apply_eq_self {t : Ty} (h : t.hasParams = false) : s.apply t = t := by
  rw [apply_eq_replace]
  exact replace_eq_self (by simp [Ty.hasParams_eq_false_iff_params.1 h])

/-- Types that are put in for the same parameters of a type give the same instance. -/
theorem apply_congr_params {s s' : Subst} {t : Ty}
    (h : ∀ p ∈ t.params, s.get? p.1 = s'.get? p.1) : s.apply t = s'.apply t := by
  refine (s.action_apply.eq_iff s'.action_apply).2 fun p hp => ?_
  rw [apply_param, apply_param, h p hp]

/-- A parameter of an instance is left over from the type, or comes with what is put in. -/
theorem mem_params_apply {s : Subst} {t : Ty} {p : String × NameSet} :
    p ∈ (s.apply t).params ↔
      (p ∈ t.params ∧ s.get? p.1 = none) ∨
        ∃ q ∈ t.params, ∃ u, s.get? q.1 = some u ∧ p ∈ u.params := by
  rw [s.action_apply.params_eq, List.mem_flatMap]
  constructor
  · rintro ⟨q, hq, hp⟩
    rw [apply_param] at hp
    cases hget : s.get? q.1 with
    | none =>
      rw [hget] at hp
      obtain rfl := List.mem_singleton.1 hp
      exact .inl ⟨hq, hget⟩
    | some u =>
      rw [hget] at hp
      exact .inr ⟨q, hq, u, hget, hp⟩
  · rintro (⟨hp, hnone⟩ | ⟨q, hq, u, hget, hp⟩)
    · refine ⟨p, hp, ?_⟩
      rw [apply_param, hnone]
      exact List.mem_singleton_self p
    · refine ⟨q, hq, ?_⟩
      rwa [apply_param, hget]

/-- An instance has no parameters just when something without parameters is put in for each one. -/
theorem hasParams_apply_eq_false_iff {s : Subst} {t : Ty} :
    (s.apply t).hasParams = false ↔
      ∀ p ∈ t.params, ∃ u, s.get? p.1 = some u ∧ u.hasParams = false := by
  rw [Ty.hasParams_eq_false_iff_params, s.action_apply.params_eq, List.flatMap_eq_nil_iff]
  refine forall_congr' fun p => imp_congr_right fun _ => ?_
  rw [apply_param]
  cases s.get? p.1 with
  | none => simp [Ty.params]
  | some u => simp [Ty.hasParams_eq_false_iff_params]

/-! ## One substitution after another -/

/-- One substitution after another, as a single one: in what the first puts in the second replaces
parameters, and what the first leaves open is left to the second. -/
def andThen (s₁ s₂ : Subst) : Subst :=
  ⟨s₁.bindings.entries.foldr (fun e later => later.insert e.1 (s₂.apply e.2)) s₂.bindings⟩

theorem get?_andThen (s₁ s₂ : Subst) (name : String) :
    (s₁.andThen s₂).get? name = ((s₁.get? name).map s₂.apply).or (s₂.get? name) := by
  -- A look-up in `s₁` finds the first entry of a name, which is the one inserted last.
  unfold andThen get? Table.get?
  induction s₁.bindings.entries with
  | nil => rfl
  | cons e rest ih =>
    rw [List.foldr_cons, Table.insert, Table.find_put, Table.find]
    split
    · rfl
    · exact ih

theorem apply_andThen (s₁ s₂ : Subst) (t : Ty) :
    (s₁.andThen s₂).apply t = s₂.apply (s₁.apply t) := by
  have hboth := s₂.action_apply.comp s₁.action_apply
  refine ((s₁.andThen s₂).action_apply.eq_iff hboth).2 fun p _ => ?_
  rw [apply_param, get?_andThen, apply_param]
  cases s₁.get? p.1 with
  | none => rw [Option.map_none, Option.none_or, Option.getD_none, apply_param]
  | some u => rw [Option.map_some, Option.some_or, Option.getD_some, Option.getD_some]

/-- **Substitutions act on types.** One after another they do what a single one does, which puts in
what the first puts in with its parameters replaced by the second, and what the second puts in for
all else. What is put in for a type depends on the parameters in it only: where nothing is put in
for any of them the type stays as it is, and the way through the type leads to the same outcome as
the shortcut around it. The parameters of the outcome are those for which nothing is put in,
together with the parameters of what is put in. -/
theorem apply_action_laws (s₁ s₂ : Subst) (t : Ty) :
    (∀ name,
      (s₁.andThen s₂).get? name = ((s₁.get? name).map s₂.apply).or (s₂.get? name)) ∧
    s₂.apply (s₁.apply t) = (s₁.andThen s₂).apply t ∧
    (∀ s : Subst, (∀ p ∈ t.params, s.get? p.1 = s₁.get? p.1) → s.apply t = s₁.apply t) ∧
    ((∀ p ∈ t.params, s₁.get? p.1 = none) → s₁.apply t = t) ∧
    s₁.apply t = s₁.replace t ∧
    (∀ p, p ∈ (s₁.apply t).params ↔
      (p ∈ t.params ∧ s₁.get? p.1 = none) ∨
        ∃ q ∈ t.params, ∃ u, s₁.get? q.1 = some u ∧ p ∈ u.params) ∧
    ((s₁.apply t).hasParams = false ↔
      ∀ p ∈ t.params, ∃ u, s₁.get? p.1 = some u ∧ u.hasParams = false) := by
  have hunmapped (h : ∀ p ∈ t.params, s₁.get? p.1 = none) : s₁.apply t = t := by
    rw [apply_eq_replace]
    exact replace_eq_self h
  refine ⟨get?_andThen s₁ s₂, (apply_andThen s₁ s₂ t).symm, fun s h => apply_congr_params h,
    hunmapped, s₁.apply_eq_replace t, fun p => mem_params_apply, hasParams_apply_eq_false_iff⟩

/-- All parameters are replaced at once, also where they stand in what is put in for each other. -/
example :
    let swap := ofList [("T", .array (.bounded "U" [])), ("U", .bounded "T" [])]
    let pair : Ty := .tuple [.bounded "T" [], .bounded "U" []]
    swap.apply pair = .tuple [.array (.bounded "U" []), .bounded "T" []] ∧
      (swap.andThen swap).apply pair =
        .tuple [.array (.bounded "T" []), .array (.bounded "U" [])] := by
  decide

end Subst

end UnitAnalysis

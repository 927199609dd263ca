import UnitAnalysis.Proofs.Ty.Params

/-!
# Which occurrence decides

A walk of a type along an actual type comes by occurrences of type parameters, each with the part of
the actual type that stands in its place. `Ty.occurrences` lists them from left to right, without a
word about substitutions, and the walk does nothing but take one occurrence after the other
(`Subst.bind_eq_bindEach`). So what it finds can be read off the list: a parameter that has no type
yet gets the first of its partners that is not `Any`.

The answer of the walk is given occurrence by occurrence, against the types that the parameters have
at that point. It is the same as the answer against the types that they have in the end, because a
parameter without a type fits everything and the occurrence that gives it one fits itself.

Along an instance of the type itself the walk meets every parameter with what was put in for it. So
it finds the instantiation again, as long as nothing that was put in is `Any`.
-/

set_option autoImplicit false

namespace UnitAnalysis

namespace Ty

/-! ## Occurrences -/

mutual

/-- The occurrences of type parameters on the way along an actual type, from left to right, each
with the part of the actual type in its place. The way goes through equal shapes, and into an
optional also where the actual type is plain. It ends where the shapes differ. -/
def occurrences : (pattern actual : Ty) → List (String × Ty)
  | param name _, actual => [(name, actual)]
  | optional p, optional a => p.occurrences a
  | optional p, actual => p.occurrences actual
  | array p, array a => p.occurrences a
  | generic f ps, generic g as =>
    if f = g ∧ ps.length = as.length then occurrencesAll ps as else []
  | tuple ps, tuple as => if ps.length = as.length then occurrencesAll ps as else []
  | function ps r, function as t =>
    if ps.length = as.length then occurrencesAll ps as ++ r.occurrences t else []
  | _, _ => []

/-- The occurrences on the way of several types along as many actual types. -/
def occurrencesAll : (patterns actuals : List Ty) → List (String × Ty)
  | p :: ps, a :: as => p.occurrences a ++ occurrencesAll ps as
  | _, _ => []

end

/-- A type is a part of another one: it is that type, or a part of something that it is made of. -/
inductive Part : Ty → Ty → Prop
  | refl (t : Ty) : Part t t
  | generic {t a : Ty} {base : String} {args : List Ty} (ha : a ∈ args) (h : Part t a) :
      Part t (generic base args)
  | optional {t inner : Ty} (h : Part t inner) : Part t (optional inner)
  | array {t element : Ty} (h : Part t element) : Part t (array element)
  | tuple {t a : Ty} {elements : List Ty} (ha : a ∈ elements) (h : Part t a) :
      Part t (tuple elements)
  | functionParam {t a ret : Ty} {params : List Ty} (ha : a ∈ params) (h : Part t a) :
      Part t (function params ret)
  | functionResult {t ret : Ty} {params : List Ty} (h : Part t ret) : Part t (function params ret)

/-- Occurrences are met with parts of the actual type. -/
theorem part_of_mem_occurrences_and_occurrencesAll :
    (∀ p a : Ty, ∀ o ∈ p.occurrences a, o.2.Part a) ∧
    ∀ ps as : List Ty, ∀ o ∈ occurrencesAll ps as, ∃ a ∈ as, o.2.Part a := by
  apply occurrences.mutual_induct (fun p a => ∀ o ∈ p.occurrences a, o.2.Part a)
    (fun ps as => ∀ o ∈ occurrencesAll ps as, ∃ a ∈ as, o.2.Part a)
  case case1 =>
    intro name bounds actual o ho
    rw [occurrences, List.mem_singleton] at ho
    subst ho
    exact .refl actual
  case case2 =>
    intro p a ih o ho
    rw [occurrences] at ho
    exact .optional (ih o ho)
  case case3 =>
    intro p actual hplain ih o ho
    rw [occurrences] at ho
    · exact ih o ho
    · exact hplain
  case case4 =>
    intro p a ih o ho
    rw [occurrences] at ho
    exact .array (ih o ho)
  case case5 =>
    intro f ps g as hsame ih o ho
    rw [occurrences, if_pos hsame] at ho
    obtain ⟨a, ha, hpart⟩ := ih o ho
    exact .generic ha hpart
  case case7 =>
    intro ps as hsame ih o ho
    rw [occurrences, if_pos hsame] at ho
    obtain ⟨a, ha, hpart⟩ := ih o ho
    exact .tuple ha hpart
  case case9 =>
    intro ps r as t hsame ihparams ihret o ho
    rw [occurrences, if_pos hsame, List.mem_append] at ho
    rcases ho with ho | ho
    · obtain ⟨a, ha, hpart⟩ := ihparams o ho
      exact .functionParam ha hpart
    · exact .functionResult (ihret o ho)
  case case6 | case8 | case10 =>
    intros
    rename_i ho
    rw [occurrences, if_neg ‹_›] at ho
    cases ho
  case case11 =>
    intro p a hparam hoptional hplain harray hgeneric htuple hfunction o ho
    rw [occurrences] at ho
    · cases ho
    all_goals assumption
  case case12 =>
    intro p ps a as ihfirst ihrest o ho
    rw [occurrencesAll, List.mem_append] at ho
    rcases ho with ho | ho
    · exact ⟨a, List.mem_cons_self, ihfirst o ho⟩
    · obtain ⟨b, hb, hpart⟩ := ihrest o ho
      exact ⟨b, List.mem_cons_of_mem _ hb, hpart⟩
  case case13 =>
    intro ps as hends o ho
    rw [occurrencesAll] at ho
    · cases ho
    · exact hends

/-- A partner is a part. -/
theorem part_of_mem_occurrences {p a : Ty} {o : String × Ty} (h : o ∈ p.occurrences a) :
    o.2.Part a :=
  part_of_mem_occurrences_and_occurrencesAll.1 p a o h

end Ty

namespace Subst

/-! ## One occurrence after the other -/

/-- Takes occurrences one after the other. The answer is whether each of them fits the type that its
parameter has at that point. -/
def bindEach (s : Subst) : List (String × Ty) → Bool × Subst
  | [] => (true, s)
  | (name, actual) :: rest =>
    let first := s.bindParam name actual
    let later := first.2.bindEach rest
    (first.1 && later.1, later.2)

/-- Occurrences one after another. -/
theorem bindEach_append (s : Subst) (found more : List (String × Ty)) :
    s.bindEach (found ++ more) =
      ((s.bindEach found).1 && ((s.bindEach found).2.bindEach more).1,
        ((s.bindEach found).2.bindEach more).2) := by
  induction found generalizing s with
  | nil => rfl
  | cons o found ih => simp only [List.cons_append, bindEach, ih, Bool.and_assoc]

/-- A walk takes the occurrences on its way, and does nothing else. -/
theorem bind_and_bindAll_eq_bindEach :
    (∀ (s : Subst) p a, s.bind p a = s.bindEach (p.occurrences a)) ∧
    ∀ (s : Subst) ps as, s.bindAll ps as = s.bindEach (Ty.occurrencesAll ps as) := by
  apply bind.mutual_induct (fun s p a => s.bind p a = s.bindEach (p.occurrences a))
    (fun s ps as => s.bindAll ps as = s.bindEach (Ty.occurrencesAll ps as))
  case case1 =>
    intro s name bounds actual
    rw [bind, Ty.occurrences]
    simp only [bindEach, Bool.and_true]
  case case2 | case3 =>
    intro s p a ih
    rwa [bind, Ty.occurrences]
  case case4 =>
    intro s p actual hplain ih
    rw [bind, Ty.occurrences]
    · exact ih
    all_goals exact hplain
  case case5 =>
    intro s f ps g as hsame ih
    rwa [bind, Ty.occurrences, if_pos hsame, if_pos hsame]
  case case7 =>
    intro s ps as hsame ih
    rwa [bind, Ty.occurrences, if_pos hsame, if_pos hsame]
  case case9 =>
    intro s ps r as t hsame params ihparams ihret
    rw [bind, Ty.occurrences, if_pos hsame, if_pos hsame, bindEach_append, ← ihparams, ← ihret]
  case case6 | case8 | case10 =>
    intros
    rw [bind, Ty.occurrences, if_neg ‹_›, if_neg ‹_›]
    rfl
  case case11 =>
    intro p s a hparam hoptional harray hplain hgeneric htuple hfunction
    rw [bind, Ty.occurrences]
    · rfl
    all_goals assumption
  case case12 =>
    intro s p ps a as first ihfirst ihrest
    rw [bindAll, Ty.occurrencesAll, bindEach_append, ← ihfirst, ← ihrest]
  case case13 =>
    intro ps s as hends
    rw [bindAll, Ty.occurrencesAll]
    · rfl
    all_goals exact hends

/-- A walk is made of its occurrences. -/
theorem bind_eq_bindEach (s : Subst) (p a : Ty) : s.bind p a = s.bindEach (p.occurrences a) :=
  bind_and_bindAll_eq_bindEach.1 s p a

/-- What is known stays. -/
theorem extends_bindEach (s : Subst) (found : List (String × Ty)) :
    s.Extends (s.bindEach found).2 := by
  induction found generalizing s with
  | nil => exact .refl s
  | cons o found ih => exact (s.extends_bindParam o.1 o.2).trans (ih _)

/-! ## What a parameter gets -/

/-- The first partner of a parameter that is not `Any`. -/
def firstKnown (name : String) (found : List (String × Ty)) : Option Ty :=
  (found.find? fun o => o.1 = name ∧ o.2 ≠ .any).map Prod.snd

/-- The first partner. -/
theorem firstKnown_cons (name : String) (o : String × Ty) (found : List (String × Ty)) :
    firstKnown name (o :: found) =
      if o.1 = name ∧ o.2 ≠ .any then some o.2 else firstKnown name found := by
  unfold firstKnown
  rw [List.find?_cons]
  by_cases h : o.1 = name ∧ o.2 ≠ .any
  · simp [h]
  · simp [h]

/-- A first partner was met, and it is not `Any`. -/
theorem firstKnown_eq_some {name : String} {found : List (String × Ty)} {t : Ty}
    (h : firstKnown name found = some t) : (name, t) ∈ found ∧ t ≠ .any := by
  obtain ⟨o, ho, rfl⟩ := Option.map_eq_some_iff.1 h
  have hkey : o.1 = name ∧ o.2 ≠ .any := by simpa using List.find?_some ho
  refine ⟨?_, hkey.2⟩
  rw [← hkey.1]
  exact List.mem_of_find?_eq_some ho

/-- One occurrence gives a type to its own parameter, when that has none and the type is not `Any`.
-/
theorem get?_bindParam (s : Subst) (name other : String) (actual : Ty) :
    (s.bindParam name actual).2.get? other =
      (s.get? other).or (if name = other ∧ actual ≠ .any then some actual else none) := by
  unfold bindParam
  cases hname : s.get? name with
  | some bound =>
    by_cases hne : name = other
    · subst hne
      rw [hname]
      rfl
    · simp [hne]
  | none =>
    by_cases hany : actual = .any
    · simp [hany, Ty.isAny]
    · have hknown : actual.isAny = false := by
        rw [← Bool.not_eq_true, Ty.isAny_iff]
        exact hany
      simp only [hknown, Bool.false_eq_true, if_false]
      by_cases hne : name = other
      · subst hne
        simp [s.get?_insert_self, hname, hany]
      · have hkept : (s.insert name actual).get? other = s.get? other :=
          Table.get?_insert_of_ne s.bindings hne actual
        simp [hkept, hne]

/-- A parameter keeps the type that it has, and gets its first known partner when it has none. -/
theorem get?_bindEach (s : Subst) (found : List (String × Ty)) (name : String) :
    (s.bindEach found).2.get? name = (s.get? name).or (firstKnown name found) := by
  induction found generalizing s with
  | nil => simp [bindEach, firstKnown]
  | cons o found ih =>
    rw [bindEach, ih, get?_bindParam, firstKnown_cons, Option.or_assoc]
    congr 1
    split
    · rfl
    · rfl

/-! ## The answer -/

/-- An occurrence fits just when it fits the type that its parameter has in the end. -/
theorem bindParam_fits_iff {s s' : Subst} {name : String} {actual : Ty}
    (h : (s.bindParam name actual).2.Extends s') :
    (s.bindParam name actual).1 = true ↔
      ∀ t, s'.get? name = some t → t.compatible actual = true := by
  constructor
  · intro hfits t ht
    have hcompatible := compatible_of_bindParam (NameSet.ofList []) hfits h
    rwa [apply_param, ht, Option.getD_some] at hcompatible
  · intro hall
    cases hname : s.get? name with
    | none => simp [bindParam, hname]
    | some bound =>
      have hkept := h name bound (s.extends_bindParam name actual name bound hname)
      simpa [bindParam, hname] using hall bound hkept

/-- All occurrences fit. -/
theorem bindEach_fits_iff {s s' : Subst} {found : List (String × Ty)}
    (h : (s.bindEach found).2.Extends s') :
    (s.bindEach found).1 = true ↔
      ∀ o ∈ found, ∀ t, s'.get? o.1 = some t → t.compatible o.2 = true := by
  induction found generalizing s with
  | nil => simp [bindEach]
  | cons o found ih =>
    rw [bindEach] at h ⊢
    have hfirst := ((s.bindParam o.1 o.2).2.extends_bindEach found).trans h
    rw [Bool.and_eq_true, bindParam_fits_iff hfirst, ih h, List.forall_mem_cons]

/-- **The first occurrence decides.** After a walk of a type along an actual type every parameter
that had a type has it still. One that had none has the first of its partners that is not `Any`, and
none when there is no such partner; so what is new is never `Any`, and always a part of the actual
type. The answer is yes just when every occurrence fits the type that its parameter has in the end,
as far as it has one. -/
theorem first_occurrence_decides (s : Subst) (p a : Ty) :
    let after := (s.bind p a).2
    (∀ name t, s.get? name = some t → after.get? name = some t) ∧
    (∀ name, s.get? name = none → after.get? name = firstKnown name (p.occurrences a)) ∧
    (∀ name t, s.get? name = none → after.get? name = some t → t ≠ .any ∧ t.Part a) ∧
    ((s.bind p a).1 = true ↔
      ∀ o ∈ p.occurrences a, after.get? o.1 = none ∨
        ∃ t, after.get? o.1 = some t ∧ t.compatible o.2 = true) := by
  rw [bind_eq_bindEach]
  intro after
  have hnew : ∀ name, s.get? name = none → after.get? name = firstKnown name (p.occurrences a) := by
    intro name hnone
    rw [s.get?_bindEach, hnone, Option.none_or]
  refine ⟨s.extends_bindEach _, hnew, fun name t hnone ht => ?_, ?_⟩
  · rw [hnew name hnone] at ht
    obtain ⟨hmem, hany⟩ := firstKnown_eq_some ht
    exact ⟨hany, Ty.part_of_mem_occurrences hmem⟩
  · rw [bindEach_fits_iff (.refl after)]
    refine forall_congr' fun o => imp_congr_right fun _ => ?_
    cases after.get? o.1 with
    | none => simp
    | some t => simp

/-- `Any` says nothing about `T`, `Int` decides, and `String` does not fit. -/
example :
    let t : Ty := .bounded "T" []
    let found := ({} : Subst).bind (.tuple [t, .optional t, t]) (.tuple [.any, .int, .string])
    found.1 = false ∧ found.2.bindings.entries = [("T", .int)] := by
  decide

/-! ## The instantiation is found again -/

/-- Types that are put in for the same parameters of a type give the same instance. -/
theorem apply_congr {s s' : Subst} {t : Ty}
    (h : ∀ name ∈ t.paramNames, s.get? name = s'.get? name) : s.apply t = s'.apply t :=
  apply_congr_params fun p hp => h p.1 (t.paramNames_eq_map ▸ List.mem_map_of_mem hp)

/-- What is put in for a parameter, `Any` when that is nothing. -/
def image (s : Subst) (name : String) : Ty :=
  (s.get? name).getD .any

mutual

/-- On the way of a type along its own instance every parameter is met, with what was put in. -/
theorem occurrences_apply {s : Subst} : ∀ {t : Ty},
    (∀ name ∈ t.paramNames, (s.get? name).isSome) →
      t.occurrences (s.apply t) = t.paramNames.map fun name => (name, s.image name)
  | .prim _, _ | .named _, _ => by simp [Ty.occurrences, Ty.paramNames]
  | .generic _ args, h => by
    rw [s.action_apply.generic, Ty.occurrences, if_pos ⟨rfl, (List.length_map _).symm⟩,
      occurrencesAll_map_apply h, Ty.paramNames]
  | .optional inner, h => by
    rw [s.action_apply.optional, Ty.occurrences, occurrences_apply (t := inner) h, Ty.paramNames]
  | .array element, h => by
    rw [s.action_apply.array, Ty.occurrences, occurrences_apply (t := element) h, Ty.paramNames]
  | .tuple elements, h => by
    rw [s.action_apply.tuple, Ty.occurrences, if_pos (List.length_map _).symm,
      occurrencesAll_map_apply h, Ty.paramNames]
  | .function params ret, h => by
    obtain ⟨hparams, hret⟩ := List.forall_mem_append.1 h
    rw [s.action_apply.function, Ty.occurrences, if_pos (List.length_map _).symm,
      occurrencesAll_map_apply hparams, occurrences_apply hret, Ty.paramNames, List.map_append]
  | .param name bounds, h => by
    obtain ⟨t, ht⟩ := Option.isSome_iff_exists.1 (h name (List.mem_singleton_self name))
    simp [apply_param, Ty.occurrences, Ty.paramNames, image, ht]

/-- Several types. -/
theorem occurrencesAll_map_apply {s : Subst} : ∀ {ts : List Ty},
    (∀ name ∈ Ty.paramNamesAll ts, (s.get? name).isSome) →
      Ty.occurrencesAll ts (ts.map s.apply) =
        (Ty.paramNamesAll ts).map fun name => (name, s.image name)
  | [], _ => by simp [Ty.occurrencesAll, Ty.paramNamesAll]
  | t :: ts, h => by
    obtain ⟨hfirst, hrest⟩ := List.forall_mem_append.1 h
    rw [List.map_cons, Ty.occurrencesAll, occurrences_apply hfirst, occurrencesAll_map_apply hrest,
      Ty.paramNamesAll, List.map_append]

end

/-- Where every parameter is met with one type only, the first known partner is that type. -/
theorem firstKnown_map (image : String → Ty) (names : List String) (name : String) :
    firstKnown name (names.map fun n => (n, image n)) =
      if name ∈ names ∧ image name ≠ .any then some (image name) else none := by
  induction names with
  | nil => simp [firstKnown]
  | cons first names ih =>
    rw [List.map_cons, firstKnown_cons, ih]
    by_cases hfirst : first = name
    · subst hfirst
      by_cases hany : image first = .any <;> simp [hany]
    · simp [hfirst, Ne.symm hfirst]

/-- **The instantiation is found again.** When something other than `Any` is put in for every
parameter of a type, a walk of the type along the instance answers yes. It finds for each parameter
of the type what was put in for it, and nothing for any other, so what it finds gives the instance
again. -/
theorem bind_recovers_instantiation (s : Subst) (p : Ty)
    (h : ∀ name ∈ p.paramNames, ∃ t, s.get? name = some t ∧ t ≠ .any) :
    let found := ({} : Subst).bind p (s.apply p)
    found.1 = true ∧
    (∀ name, found.2.get? name = if name ∈ p.paramNames then s.get? name else none) ∧
    found.2.apply p = s.apply p := by
  have hmapped : ∀ name ∈ p.paramNames, (s.get? name).isSome := by
    intro name hname
    obtain ⟨t, ht, -⟩ := h name hname
    rw [ht]
    rfl
  rw [bind_eq_bindEach, occurrences_apply hmapped]
  intro found
  have hget : ∀ name,
      found.2.get? name = if name ∈ p.paramNames then s.get? name else none := by
    intro name
    have hempty : ({} : Subst).get? name = none := rfl
    rw [get?_bindEach, hempty, Option.none_or, firstKnown_map]
    by_cases hname : name ∈ p.paramNames
    · obtain ⟨t, ht, hany⟩ := h name hname
      simp [hname, image, ht, hany]
    · simp [hname]
  refine ⟨?_, hget, apply_congr fun name hname => ?_⟩
  · rw [bindEach_fits_iff (.refl found.2), List.forall_mem_map]
    intro name hname t ht
    rw [hget, if_pos hname] at ht
    rw [image, ht]
    exact t.compatible_refl
  · rw [hget, if_pos hname]

/-- A type in which `T` occurs three times, once inside an optional. -/
def pairing : Ty :=
  .function [.optional (.bounded "T" []), .generic "Map" [.bounded "U" [], .bounded "T" []]]
    (.tuple [.bounded "U" [], .bounded "T" []])

/-- For `T` an optional is put in, and for `U` the type parameter `T`. -/
def pairingTypes : Subst :=
  ofList [("T", .optional .int), ("U", .bounded "T" []), ("V", .string)]

/-- A function of two parameters. -/
theorem bind_recovers_pairing :
    (∀ name ∈ pairing.paramNames, ∃ t, pairingTypes.get? name = some t ∧ t ≠ .any) ∧
    pairingTypes.apply pairing =
      .function [.optional (.optional .int), .generic "Map" [.bounded "T" [], .optional .int]]
        (.tuple [.bounded "T" [], .optional .int]) ∧
    let found := ({} : Subst).bind pairing (pairingTypes.apply pairing)
    found.1 = true ∧
    (∀ name, found.2.get? name =
      if name ∈ pairing.paramNames then pairingTypes.get? name else none) ∧
    found.2.apply pairing = pairingTypes.apply pairing := by
  have hmapped : ∀ name ∈ pairing.paramNames,
      ∃ t, pairingTypes.get? name = some t ∧ t ≠ .any := by
    have hT : ∃ t, pairingTypes.get? "T" = some t ∧ t ≠ .any :=
      ⟨.optional .int, by decide, by decide⟩
    have hU : ∃ t, pairingTypes.get? "U" = some t ∧ t ≠ .any :=
      ⟨.bounded "T" [], by decide, by decide⟩
    have hnames : pairing.paramNames = ["T", "U", "T", "U", "T"] := by decide
    rw [hnames]
    simpa using ⟨hT, hU, hT, hU, hT⟩
  exact ⟨hmapped, by decide, bind_recovers_instantiation pairingTypes pairing hmapped⟩

end Subst

end UnitAnalysis

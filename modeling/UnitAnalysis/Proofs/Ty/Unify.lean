import UnitAnalysis.Proofs.Ty.Bind
import UnitAnalysis.Proofs.Ty.Rendering

/-!
# Fitting together is having a common instance

A type with wildcards stands for all types that come about when something is put in for them: any
type for each `Any`, every time on its own, and any optional or array for each `Void?` and `[Void]`.
`Ty.Fills` says that a type comes about from another one in this way.

The main result says that two types fit together just when they have an instance in common, where
leaves count by their names. The check itself looks at no instances. It goes along two types as long
as their shapes agree, and where they do not it compares texts, which must not agree by accident.
-/

set_option autoImplicit false

namespace UnitAnalysis

namespace Ty

/-! ## Instances of wildcards -/

mutual

/-- A type comes about from another one when something is put in for its wildcards. -/
inductive Fills : Ty → Ty → Prop
  /-- Every type can take the place of `Any`. -/
  | any (t : Ty) : Fills any t
  | prim (p : Primitive) : Fills (prim p) (prim p)
  | named (n : String) : Fills (named n) (named n)
  | param (n : String) (bounds : NameSet) : Fills (param n bounds) (param n bounds)
  | generic {base : String} {args args' : List Ty} (h : FillsAll args args') :
      Fills (generic base args) (generic base args')
  /-- Every optional can take the place of an empty one. -/
  | emptyOptional (t : Ty) : Fills (optional void) (optional t)
  | optional {inner inner' : Ty} (h : Fills inner inner') : Fills (optional inner) (optional inner')
  /-- Every array can take the place of an empty one. -/
  | emptyArray (t : Ty) : Fills (array void) (array t)
  | array {element element' : Ty} (h : Fills element element') :
      Fills (array element) (array element')
  | tuple {elements elements' : List Ty} (h : FillsAll elements elements') :
      Fills (tuple elements) (tuple elements')
  | function {params params' : List Ty} {ret ret' : Ty} (h : FillsAll params params')
      (h' : Fills ret ret') : Fills (function params ret) (function params' ret')

/-- Types come about from others, place by place. -/
inductive FillsAll : List Ty → List Ty → Prop
  | nil : FillsAll [] []
  | cons {t t' : Ty} {ts ts' : List Ty} (h : Fills t t') (h' : FillsAll ts ts') :
      FillsAll (t :: ts) (t' :: ts')

end

mutual

/-- A type with its leaves by name: a scalar type and a type parameter become the declared type of
the same name. -/
def byName : Ty → Ty
  | prim p => named p.name
  | named n => named n
  | generic base args => generic base (byNameAll args)
  | optional inner => optional inner.byName
  | array element => array element.byName
  | tuple elements => tuple (byNameAll elements)
  | function params ret => function (byNameAll params) ret.byName
  | param n _ => named n

/-- Several types with their leaves by name. -/
def byNameAll : List Ty → List Ty
  | [] => []
  | t :: ts => t.byName :: byNameAll ts

end

/-- Two types have an instance in common, when leaves count by their names. -/
def Unifiable (a b : Ty) : Prop :=
  ∃ a' b', Fills a a' ∧ Fills b b' ∧ a'.byName = b'.byName

/-- Two lists of types have instances in common, place by place. -/
def AllUnifiable (as bs : List Ty) : Prop :=
  ∃ as' bs', FillsAll as as' ∧ FillsAll bs bs' ∧ byNameAll as' = byNameAll bs'

mutual

/-- A wildcard can also be left as it is. -/
theorem Fills.refl : ∀ t : Ty, Fills t t
  | .prim p => .prim p
  | .named n => .named n
  | .generic _ args => .generic (FillsAll.refl args)
  | .optional inner => .optional (Fills.refl inner)
  | .array element => .array (Fills.refl element)
  | .tuple elements => .tuple (FillsAll.refl elements)
  | .function params ret => .function (FillsAll.refl params) (Fills.refl ret)
  | .param n bounds => .param n bounds

theorem FillsAll.refl : ∀ ts : List Ty, FillsAll ts ts
  | [] => .nil
  | t :: ts => .cons (Fills.refl t) (FillsAll.refl ts)

end

/-! ## Common instances, shape by shape -/

variable {a b : Ty}

theorem unifiable_of_eq_any (h : a = any ∨ b = any) : Unifiable a b := by
  rcases h with rfl | rfl
  · exact ⟨b, b, .any b, .refl b, rfl⟩
  · exact ⟨a, a, .refl a, .any a, rfl⟩

theorem fills_optional_iff {a t : Ty} :
    Fills (optional a) t ↔ ∃ a', t = optional a' ∧ (a = void ∨ Fills a a') := by
  constructor
  · intro h
    cases h with
    | emptyOptional a' => exact ⟨a', rfl, .inl rfl⟩
    | optional h => exact ⟨_, rfl, .inr h⟩
  · rintro ⟨a', rfl, rfl | h⟩
    · exact .emptyOptional a'
    · exact .optional h

theorem fills_array_iff {a t : Ty} :
    Fills (array a) t ↔ ∃ a', t = array a' ∧ (a = void ∨ Fills a a') := by
  constructor
  · intro h
    cases h with
    | emptyArray a' => exact ⟨a', rfl, .inl rfl⟩
    | array h => exact ⟨_, rfl, .inr h⟩
  · rintro ⟨a', rfl, rfl | h⟩
    · exact .emptyArray a'
    · exact .array h

/-- Two optionals, or two arrays, have a common instance when one of them is empty or what is in
them has one. -/
theorem unifiable_container_iff {container : Ty → Ty}
    (hfills : ∀ {a t}, Fills (container a) t ↔ ∃ a', t = container a' ∧ (a = void ∨ Fills a a'))
    (hname : ∀ {a b}, (container a).byName = (container b).byName ↔ a.byName = b.byName)
    :
    Unifiable (container a) (container b) ↔ a = void ∨ b = void ∨ Unifiable a b := by
  constructor
  · rintro ⟨_, _, ha, hb, heq⟩
    obtain ⟨a', rfl, rfl | ha⟩ := hfills.1 ha
    · exact .inl rfl
    · obtain ⟨b', rfl, rfl | hb⟩ := hfills.1 hb
      · exact .inr (.inl rfl)
      · exact .inr (.inr ⟨a', b', ha, hb, hname.1 heq⟩)
  · rintro (rfl | rfl | ⟨a', b', ha, hb, heq⟩)
    · exact ⟨_, _, hfills.2 ⟨b, rfl, .inl rfl⟩, .refl _, rfl⟩
    · exact ⟨_, _, .refl _, hfills.2 ⟨a, rfl, .inl rfl⟩, rfl⟩
    · exact ⟨_, _, hfills.2 ⟨a', rfl, .inr ha⟩, hfills.2 ⟨b', rfl, .inr hb⟩, hname.2 heq⟩

theorem unifiable_tuple_iff {as bs : List Ty} :
    Unifiable (tuple as) (tuple bs) ↔ AllUnifiable as bs := by
  constructor
  · rintro ⟨_, _, ha, hb, heq⟩
    cases ha with
    | tuple ha =>
      cases hb with
      | tuple hb => exact ⟨_, _, ha, hb, by simpa [byName] using heq⟩
  · rintro ⟨as', bs', ha, hb, heq⟩
    exact ⟨_, _, .tuple ha, .tuple hb, by rw [byName, byName, heq]⟩

theorem unifiable_generic_iff {f g : String} {as bs : List Ty} :
    Unifiable (generic f as) (generic g bs) ↔ f = g ∧ AllUnifiable as bs := by
  constructor
  · rintro ⟨_, _, ha, hb, heq⟩
    cases ha with
    | generic ha =>
      cases hb with
      | generic hb =>
        rw [byName, byName, generic.injEq] at heq
        exact ⟨heq.1, _, _, ha, hb, heq.2⟩
  · rintro ⟨rfl, as', bs', ha, hb, heq⟩
    exact ⟨_, _, .generic ha, .generic hb, by rw [byName, byName, heq]⟩

theorem unifiable_function_iff {ps qs : List Ty} {r s : Ty} :
    Unifiable (function ps r) (function qs s) ↔ AllUnifiable ps qs ∧ Unifiable r s := by
  constructor
  · rintro ⟨_, _, hp, hq, heq⟩
    cases hp with
    | function hp hr =>
      cases hq with
      | function hq hs =>
        rw [byName, byName, function.injEq] at heq
        exact ⟨⟨_, _, hp, hq, heq.1⟩, _, _, hr, hs, heq.2⟩
  · rintro ⟨⟨ps', qs', hp, hq, heq⟩, r', s', hr, hs, heq'⟩
    exact ⟨_, _, .function hp hr, .function hq hs, by rw [byName, byName, heq, heq']⟩

theorem allUnifiable_nil_iff {ts : List Ty} : AllUnifiable [] ts ↔ ts = [] := by
  constructor
  · rintro ⟨_, _, h, h', heq⟩
    cases h
    cases h' with
    | nil => rfl
    | cons => cases heq
  · rintro rfl
    exact ⟨_, _, .nil, .nil, rfl⟩

theorem not_allUnifiable_cons_nil {t : Ty} {ts : List Ty} : ¬ AllUnifiable (t :: ts) [] := by
  rintro ⟨_, _, h, h', heq⟩
  cases h
  cases h'
  cases heq

theorem allUnifiable_cons_iff {as bs : List Ty} :
    AllUnifiable (a :: as) (b :: bs) ↔ Unifiable a b ∧ AllUnifiable as bs := by
  constructor
  · rintro ⟨_, _, ha, hb, heq⟩
    cases ha with
    | cons ha has =>
      cases hb with
      | cons hb hbs =>
        rw [byNameAll, byNameAll, List.cons.injEq] at heq
        exact ⟨⟨_, _, ha, hb, heq.1⟩, _, _, has, hbs, heq.2⟩
  · rintro ⟨⟨a', b', ha, hb, heq⟩, as', bs', has, hbs, heqs⟩
    exact ⟨_, _, .cons ha has, .cons hb hbs, by rw [byNameAll, byNameAll, heq, heqs]⟩

/-! ## Types of different forms -/

/-- What a type is made of at its outermost: a leaf of some name, or one of the ways to put types
together. -/
inductive Form where
  | leaf (name : String)
  | generic | optional | array | tuple | function

/-- The form of a type. -/
def form : Ty → Form
  | prim p => .leaf p.name
  | named n => .leaf n
  | param n _ => .leaf n
  | generic _ _ => .generic
  | optional _ => .optional
  | array _ => .array
  | tuple _ => .tuple
  | function _ _ => .function

theorem form_byName (t : Ty) : t.byName.form = t.form := by
  cases t <;> rfl

theorem form_shown (t : Ty) : t.shown.form = t.form := by
  cases t <;> rfl

theorem form_eq_of_fills {t t' : Ty} (h : Fills t t') (hany : t ≠ any) : t'.form = t.form := by
  cases h with
  | any => exact absurd rfl hany
  | _ => rfl

/-- Types with a common instance are of one form, unless one of them is `Any`. -/
theorem form_eq_of_unifiable (h : Unifiable a b) (ha : a ≠ any) (hb : b ≠ any) :
    a.form = b.form := by
  obtain ⟨a', b', hfa, hfb, heq⟩ := h
  calc a.form = a'.byName.form := by rw [form_byName, form_eq_of_fills hfa ha]
    _ = b'.byName.form := by rw [heq]
    _ = b.form := by rw [form_byName, form_eq_of_fills hfb hb]

/-- Types of one name are of one form. -/
theorem form_eq_of_name_eq (ha : a.isWellNamed = true) (hb : b.isWellNamed = true)
    (h : a.name = b.name) : a.form = b.form := by
  rw [← form_shown a, ← form_shown b, shown_eq_of_name_eq ha hb h]

/-- Leaves of one form have one name, and are the same by name. -/
theorem leaf_eq_of_form_eq {n : String} (ha : a.form = .leaf n) (hb : b.form = .leaf n) :
    a.name = b.name ∧ Unifiable a b := by
  have hleaf : ∀ {t : Ty}, t.form = .leaf n → t.name = n ∧ t.byName = named n := by
    intro t ht
    cases t <;> cases ht <;> exact ⟨by rw [name], rfl⟩
  obtain ⟨hname, hby⟩ := hleaf ha
  obtain ⟨hname', hby'⟩ := hleaf hb
  exact ⟨hname.trans hname'.symm, a, b, .refl a, .refl b, hby.trans hby'.symm⟩

/-- Types that are not put together in the same way fit by name just when they are leaves of one
name. -/
theorem name_eq_iff_unifiable (ha : a.isWellNamed = true) (hb : b.isWellNamed = true)
    (hany : a ≠ any) (hany' : b ≠ any) (hform : a.form = b.form → ∃ n, a.form = .leaf n) :
    a.name = b.name ↔ Unifiable a b := by
  have hleaf (h : a.form = b.form) : a.name = b.name ∧ Unifiable a b := by
    obtain ⟨n, hn⟩ := hform h
    exact leaf_eq_of_form_eq hn (h ▸ hn)
  exact ⟨fun h => (hleaf (form_eq_of_name_eq ha hb h)).2,
    fun h => (hleaf (form_eq_of_unifiable h hany hany')).1⟩

/-! ## The check -/

/-- The check goes along two types as their common instances do. -/
theorem compatible_iff_unifiable (a b : Ty) (ha : a.isWellNamed = true)
    (hb : b.isWellNamed = true) : a.compatible b = true ↔ Unifiable a b := by
  revert ha hb
  refine compatible.induct
    (fun a b => a.isWellNamed = true → b.isWellNamed = true →
      (a.compatible b = true ↔ Unifiable a b))
    (fun as bs => allWellNamed as = true → allWellNamed bs = true →
      (compatibleAll as bs = true ↔ AllUnifiable as bs))
    ?anyLeft ?anyRight ?optionals ?arrays ?tuples ?generics ?functions ?others ?nils ?conses
    ?lengths a b
  case anyLeft =>
    intro b _ _
    exact iff_of_true (any_compatible b) (unifiable_of_eq_any (.inl rfl))
  case anyRight =>
    intro a _ _ _
    exact iff_of_true (compatible_any a) (unifiable_of_eq_any (.inr rfl))
  case optionals =>
    intro a b ih ha hb
    rw [compatible, unifiable_container_iff fills_optional_iff (by simp [byName]), ← ih ha hb]
    simp [or_assoc, isVoid_iff]
  case arrays =>
    intro a b ih ha hb
    rw [compatible, unifiable_container_iff fills_array_iff (by simp [byName]), ← ih ha hb]
    simp [or_assoc, isVoid_iff]
  case tuples =>
    intro as bs ih ha hb
    rw [compatible, unifiable_tuple_iff, ih ha hb]
  case generics =>
    intro f as g bs ih ha hb
    rw [isWellNamed, Bool.and_eq_true] at ha hb
    rw [compatible, unifiable_generic_iff, Bool.and_eq_true, beq_iff_eq, ih ha.2 hb.2]
  case functions =>
    intro ps r qs s ihParams ihRet ha hb
    rw [isWellNamed, Bool.and_eq_true] at ha hb
    rw [compatible, unifiable_function_iff, Bool.and_eq_true, ihParams ha.1 hb.1, ihRet ha.2 hb.2]
  case others =>
    intro a b hany hany' hoptional harray htuple hgeneric hfunction ha hb
    have hname : a.compatible b = (a.name == b.name) := by
      rw [compatible] <;> assumption
    rw [hname, beq_iff_eq]
    refine name_eq_iff_unifiable ha hb hany hany' fun hform => ?_
    cases a with
    | prim _ | named _ | param _ _ => exact ⟨_, rfl⟩
    | generic f as => cases b <;> cases hform; exact (hgeneric _ _ _ _ rfl rfl).elim
    | optional a => cases b <;> cases hform; exact (hoptional _ _ rfl rfl).elim
    | array a => cases b <;> cases hform; exact (harray _ _ rfl rfl).elim
    | tuple as => cases b <;> cases hform; exact (htuple _ _ rfl rfl).elim
    | function ps r => cases b <;> cases hform; exact (hfunction _ _ _ _ rfl rfl).elim
  case nils =>
    intro _ _
    exact iff_of_true rfl (allUnifiable_nil_iff.2 rfl)
  case conses =>
    intro a as b bs ih ihRest ha hb
    rw [allWellNamed, Bool.and_eq_true] at ha hb
    rw [compatibleAll, allUnifiable_cons_iff, Bool.and_eq_true, ih ha.1 hb.1, ihRest ha.2 hb.2]
  case lengths =>
    intro as bs hnil hcons _ _
    cases as with
    | nil =>
      cases bs with
      | nil => exact absurd rfl (hnil rfl)
      | cons b bs => simp [compatibleAll, allUnifiable_nil_iff]
    | cons a as =>
      cases bs with
      | nil => simp [compatibleAll, not_allUnifiable_cons_nil]
      | cons b bs => exact absurd rfl (hcons a as b bs rfl)

/-- It does not matter which of two types comes first. -/
theorem compatible_comm (a b : Ty) : a.compatible b = b.compatible a := by
  refine compatible.induct (fun a b => a.compatible b = b.compatible a)
    (fun as bs => compatibleAll as bs = compatibleAll bs as)
    ?anyLeft ?anyRight ?optionals ?arrays ?tuples ?generics ?functions ?others ?nils ?conses
    ?lengths a b
  case anyLeft => exact fun b => by rw [any_compatible, compatible_any]
  case anyRight => exact fun a _ => by rw [any_compatible, compatible_any]
  case optionals => exact fun a b ih => by rw [compatible, compatible, ih, Bool.or_comm a.isVoid]
  case arrays => exact fun a b ih => by rw [compatible, compatible, ih, Bool.or_comm a.isVoid]
  case tuples => exact fun as bs ih => by rw [compatible, compatible, ih]
  case generics => exact fun f as g bs ih => by rw [compatible, compatible, ih, Bool.beq_comm]
  case functions => exact fun ps r qs s ih ih' => by rw [compatible, compatible, ih, ih']
  case others =>
    intro a b hany hany' hoptional harray htuple hgeneric hfunction
    have hname : a.compatible b = (a.name == b.name) := by
      rw [compatible] <;> assumption
    have hname' : b.compatible a = (b.name == a.name) := by
      rw [compatible]
      · exact hany'
      · exact hany
      · exact fun _ _ h h' => hoptional _ _ h' h
      · exact fun _ _ h h' => harray _ _ h' h
      · exact fun _ _ h h' => htuple _ _ h' h
      · exact fun _ _ _ _ h h' => hgeneric _ _ _ _ h' h
      · exact fun _ _ _ _ h h' => hfunction _ _ _ _ h' h
    rw [hname, hname', Bool.beq_comm]
  case nils => rfl
  case conses => exact fun a as b bs ih ih' => by rw [compatibleAll, compatibleAll, ih, ih']
  case lengths =>
    intro as bs hnil hcons
    cases as with
    | nil =>
      cases bs with
      | nil => rfl
      | cons => rfl
    | cons a as =>
      cases bs with
      | nil => rfl
      | cons b bs => exact (hcons a as b bs rfl rfl).elim

/-- **Fitting together is having a common instance.** Two types whose names are identifiers fit
together exactly when something can be put in for the wildcards of both, for each on its own, such
that the results are the same up to the kinds of their leaves. In particular every type fits itself,
and it does not matter which of two types comes first. -/
theorem compatible_iff_common_instance (a b : Ty) (ha : a.isWellNamed = true)
    (hb : b.isWellNamed = true) :
    (a.compatible b = true ↔ ∃ a' b', Fills a a' ∧ Fills b b' ∧ a'.byName = b'.byName) ∧
      a.compatible a = true ∧ (a.compatible b = true → b.compatible a = true) :=
  ⟨compatible_iff_unifiable a b ha hb, compatible_refl a, fun h => compatible_comm a b ▸ h⟩

/-- A function of which little is known: its map can hold anything, its optional is empty, and its
result is an array of a type parameter. -/
def roughFunction : Ty :=
  function [generic "Map" [string, any], optional void] (array (bounded "T" ["Show"]))

/-- A function that is known at other places: its map has any keys, its optional is of a declared
type, and its result is an empty array. -/
def otherFunction : Ty :=
  function [generic "Map" [any, array int], optional (named "Point")] (array void)

/-- The two functions have a common instance. An optional of the first one and an optional of a
tuple with it have none, although their texts are the same. -/
theorem common_instance_roughFunction :
    (roughFunction.isWellNamed = true ∧ otherFunction.isWellNamed = true ∧
      ∃ a b, Fills roughFunction a ∧ Fills otherFunction b ∧ a.byName = b.byName) ∧
    (optional roughFunction).name = (optional (tuple [roughFunction])).name ∧
      ¬ ∃ a b, Fills (optional roughFunction) a ∧ Fills (optional (tuple [roughFunction])) b ∧
        a.byName = b.byName := by
  have hrough : roughFunction.isWellNamed = true := by decide +kernel
  have hother : otherFunction.isWellNamed = true := by decide +kernel
  have hnested : (optional (tuple [roughFunction])).isWellNamed = true := by decide +kernel
  have hyes := compatible_iff_common_instance roughFunction otherFunction hrough hother
  have hno := compatible_iff_common_instance (optional roughFunction)
    (optional (tuple [roughFunction])) hrough hnested
  refine ⟨⟨hrough, hother, hyes.1.1 (by decide +kernel)⟩, by decide +kernel, fun h => ?_⟩
  exact absurd (hno.1.2 h) (by decide +kernel)

end Ty

end UnitAnalysis

import Mathlib.Data.List.Forall2
import UnitAnalysis.Proofs.Declared.Unknown
import UnitAnalysis.Proofs.Ty.Action
import UnitAnalysis.Symbols.Builder

/-!
# What a written type stands for

`TypeExpr.ResolvesTo` says it by rules, one for each form of a written type and, through
`StandsFor`, one for each kind of name. An entry in force hides a scalar type, that a container, and
that a declaration. `Ty.MadeOf` tells where the parts of the outcome can come from. It has no rule
for type parameters, so these come from inside of entries only.
-/

set_option autoImplicit false

namespace UnitAnalysis

/-- The containers that need no declaration, with their numbers of arguments. -/
def containers : List (String × Nat) :=
  [("List", 1), ("Map", 2), ("Set", 1), ("Future", 1), ("Result", 2)]

/-- A name's first entry, counted from the inside, is the given one. -/
def Generics.Innermost (g : Generics) (name : String) (t : Ty) : Prop :=
  ∃ inner outer, g.layers = inner ++ (name, t) :: outer ∧ ∀ e ∈ inner, e.1 ≠ name

/-- What a name with the given arguments stands for. -/
inductive StandsFor (ix : DeclIndex) (g : Generics) (name : String) (args : List Ty) : Ty → Prop
  | entry {t : Ty} (hentry : g.Innermost name t) : StandsFor ix g name args t
  | scalar {p : Primitive} (hfree : ∀ t, (name, t) ∉ g.layers) (hscalar : p.name = name) :
      StandsFor ix g name args (.prim p)
  | container {arity : Nat} (hfree : ∀ t, (name, t) ∉ g.layers)
      (hscalar : ∀ p : Primitive, p.name ≠ name) (hcontainer : (name, arity) ∈ containers) :
      StandsFor ix g name args
        (.generic name (if args = [] then List.replicate arity .any else args))
  | declared (hfree : ∀ t, (name, t) ∉ g.layers) (hscalar : ∀ p : Primitive, p.name ≠ name)
      (hcontainer : ∀ arity, (name, arity) ∉ containers) (hdeclared : ix.contains name = true) :
      StandsFor ix g name args (if args = [] then .named name else .generic name args)
  | unknown (hfree : ∀ t, (name, t) ∉ g.layers) (hscalar : ∀ p : Primitive, p.name ≠ name)
      (hcontainer : ∀ arity, (name, arity) ∉ containers) (hdeclared : ix.contains name = false) :
      StandsFor ix g name args .any

/-- The type that a written type stands for. -/
inductive TypeExpr.ResolvesTo (ix : DeclIndex) (g : Generics) : TypeExpr → Ty → Prop
  | named {span : Span} {name : String} {args : List TypeExpr} {ts : List Ty} {t : Ty}
      (hargs : List.Forall₂ (ResolvesTo ix g) args ts) (hname : StandsFor ix g name ts t) :
      ResolvesTo ix g (.named span name args) t
  | optional {span : Span} {inner : TypeExpr} {t : Ty} (hinner : ResolvesTo ix g inner t) :
      ResolvesTo ix g (.optional span inner) (.optional t)
  | array {span : Span} {element : TypeExpr} {t : Ty} (helement : ResolvesTo ix g element t) :
      ResolvesTo ix g (.array span element) (.array t)
  | tuple {span : Span} {elements : List TypeExpr} {ts : List Ty}
      (helements : List.Forall₂ (ResolvesTo ix g) elements ts) :
      ResolvesTo ix g (.tuple span elements) (.tuple ts)
  | function {span : Span} {params : List TypeExpr} {ret : TypeExpr} {ts : List Ty} {t : Ty}
      (hparams : List.Forall₂ (ResolvesTo ix g) params ts) (hret : ResolvesTo ix g ret t) :
      ResolvesTo ix g (.function span params ret) (.function ts t)

/-- A type is put together from innermost entries, with declared names and containers around them.
-/
inductive Ty.MadeOf (ix : DeclIndex) (g : Generics) : Ty → Prop
  | entry {name : String} {t : Ty} (hentry : g.Innermost name t) : MadeOf ix g t
  | prim (p : Primitive) : MadeOf ix g (.prim p)
  | named {name : String} (hdeclared : ix.contains name = true) : MadeOf ix g (.named name)
  | generic {base : String} {args : List Ty}
      (hbase : ix.contains base = true ∨ ∃ arity, (base, arity) ∈ containers)
      (hargs : ∀ t ∈ args, MadeOf ix g t) : MadeOf ix g (.generic base args)
  | optional {t : Ty} (hinner : MadeOf ix g t) : MadeOf ix g (.optional t)
  | array {t : Ty} (helement : MadeOf ix g t) : MadeOf ix g (.array t)
  | tuple {ts : List Ty} (helements : ∀ t ∈ ts, MadeOf ix g t) : MadeOf ix g (.tuple ts)
  | function {ts : List Ty} {t : Ty} (hparams : ∀ t ∈ ts, MadeOf ix g t) (hret : MadeOf ix g t) :
      MadeOf ix g (.function ts t)

/-! ## Names -/

theorem Generics.get?_eq_find? (g : Generics) (name : String) :
    g.get? name = (g.layers.find? fun e => e.1 = name).map Prod.snd := by
  obtain ⟨layers⟩ := g
  change Table.find name layers = _
  induction layers with
  | nil => rfl
  | cons e layers ih =>
    by_cases hname : e.1 = name
    · simp [Table.find, hname]
    · simp [Table.find, hname, ih]

variable {name : String}

theorem Generics.get?_eq_some_iff {g : Generics} {t : Ty} :
    g.get? name = some t ↔ g.Innermost name t := by
  rw [get?_eq_find?, Option.map_eq_some_iff]
  constructor
  · rintro ⟨e, he, rfl⟩
    obtain ⟨hname, inner, outer, hlayers, hinner⟩ := List.find?_eq_some_iff_append.1 he
    exact ⟨inner, outer, by simpa [← of_decide_eq_true hname] using hlayers, by simpa using hinner⟩
  · rintro ⟨inner, outer, hlayers, hinner⟩
    exact ⟨(name, t), List.find?_eq_some_iff_append.2
      ⟨decide_eq_true rfl, inner, outer, hlayers, by simpa using hinner⟩, rfl⟩

theorem Generics.get?_eq_none_iff {g : Generics} :
    g.get? name = none ↔ ∀ t, (name, t) ∉ g.layers := by
  rw [get?_eq_find?, Option.map_eq_none_iff, List.find?_eq_none]
  constructor
  · exact fun h t ht => h _ ht (decide_eq_true rfl)
  · rintro h ⟨key, t⟩ ht hkey
    exact h t (of_decide_eq_true hkey ▸ ht)

theorem Primitive.ofName?_eq_some_iff {p : Primitive} : ofName? name = some p ↔ p.name = name := by
  constructor
  · intro h
    simpa using List.find?_some h
  · rintro rfl
    cases p <;> rfl

theorem Primitive.ofName?_eq_none_iff : ofName? name = none ↔ ∀ p : Primitive, p.name ≠ name := by
  simp only [Option.eq_none_iff_forall_ne_some, ne_eq, ofName?_eq_some_iff]

theorem builtinArity?_eq_some_iff {arity : Nat} :
    builtinArity? name = some arity ↔ (name, arity) ∈ containers := by
  unfold builtinArity? containers
  split
  · next h => rcases h with rfl | rfl <;> simp [eq_comm]
  · next h =>
      split
      · next h' => rcases h' with rfl | rfl | rfl <;> simp [eq_comm]
      · next h' => grind

theorem builtinArity?_eq_none_iff :
    builtinArity? name = none ↔ ∀ arity, (name, arity) ∉ containers := by
  simp only [Option.eq_none_iff_forall_ne_some, ne_eq, builtinArity?_eq_some_iff]

/-- A name is known in one of four ways. -/
theorem isKnownType_iff {ix : DeclIndex} {g : Generics} :
    isKnownType ix g name = true ↔
      (∃ t, (name, t) ∈ g.layers) ∨ (∃ p : Primitive, p.name = name) ∨
        (∃ arity, (name, arity) ∈ containers) ∨ ix.contains name = true := by
  simp only [isKnownType, Bool.or_eq_true, or_assoc, Option.isSome_iff_ne_none, ne_eq,
    Generics.get?_eq_none_iff, Primitive.ofName?_eq_none_iff, builtinArity?_eq_none_iff,
    not_forall, not_not]

variable {ix : DeclIndex} {g : Generics}

/-- A name is resolved by the rules, and they leave no choice. -/
theorem standsFor_iff {span : Span} {args : List Ty} {t : Ty} :
    StandsFor ix g name args t ↔ t = (resolveName ix g span name args).1 := by
  unfold resolveName
  constructor
  · intro h
    cases h with
    | entry hentry => rw [Generics.get?_eq_some_iff.2 hentry]
    | scalar hfree hscalar =>
      rw [Generics.get?_eq_none_iff.2 hfree, Primitive.ofName?_eq_some_iff.2 hscalar]
    | container hfree hscalar hcontainer =>
      simp [Generics.get?_eq_none_iff.2 hfree, Primitive.ofName?_eq_none_iff.2 hscalar,
        builtinArity?_eq_some_iff.2 hcontainer]
    | declared hfree hscalar hcontainer hdeclared | unknown hfree hscalar hcontainer hdeclared =>
      simp [Generics.get?_eq_none_iff.2 hfree, Primitive.ofName?_eq_none_iff.2 hscalar,
        builtinArity?_eq_none_iff.2 hcontainer, hdeclared]
  · rintro rfl
    cases hentry : g.get? name with
    | some t => exact .entry (Generics.get?_eq_some_iff.1 hentry)
    | none =>
      have hfree := Generics.get?_eq_none_iff.1 hentry
      cases hscalar : Primitive.ofName? name with
      | some p => exact .scalar hfree (Primitive.ofName?_eq_some_iff.1 hscalar)
      | none =>
        have hscalar := Primitive.ofName?_eq_none_iff.1 hscalar
        cases hcontainer : builtinArity? name with
        | some arity =>
          simpa using StandsFor.container hfree hscalar
            (builtinArity?_eq_some_iff.1 hcontainer)
        | none =>
          have hcontainer := builtinArity?_eq_none_iff.1 hcontainer
          cases hdeclared : ix.contains name with
          | true => simpa using StandsFor.declared hfree hscalar hcontainer hdeclared
          | false => simpa using StandsFor.unknown hfree hscalar hcontainer hdeclared

theorem standsFor_resolveName (span : Span) (name : String) (args : List Ty) :
    StandsFor ix g name args (resolveName ix g span name args).1 :=
  standsFor_iff.2 rfl

theorem StandsFor.madeOf {args : List Ty} {t : Ty}
    (h : StandsFor ix g name args t) (hargs : ∀ a ∈ args, a.MadeOf ix g) : t.MadeOf ix g := by
  cases h with
  | entry hentry => exact .entry hentry
  | scalar => exact .prim _
  | container hfree hscalar hcontainer =>
    refine .generic (.inr ⟨_, hcontainer⟩) fun a ha => ?_
    split at ha
    · rw [List.eq_of_mem_replicate ha]
      exact .prim _
    · exact hargs a ha
  | declared hfree hscalar hcontainer hdeclared =>
    split
    · exact .named hdeclared
    · exact .generic (.inl hdeclared) hargs
  | unknown => exact .prim _

/-! ## Whole types -/

namespace TypeExpr

mutual

/-- A written type is resolved by the rules, and they leave no choice. -/
theorem resolvesTo_iff (e : TypeExpr) {t : Ty} : e.ResolvesTo ix g t ↔ t = (e.resolve ix g).1 := by
  match e with
  | .named span name args =>
    constructor
    · rintro (⟨hargs, hname⟩ | _)
      rw [resolvesAll_iff args] at hargs
      subst hargs
      exact standsFor_iff.1 hname
    · exact fun h => .named ((resolvesAll_iff args).2 rfl) (standsFor_iff.2 h)
  | .optional _ inner =>
    constructor
    · rintro (_ | hinner)
      exact congrArg _ ((resolvesTo_iff inner).1 hinner)
    · rintro rfl
      exact .optional ((resolvesTo_iff inner).2 rfl)
  | .array _ element =>
    constructor
    · rintro (_ | _ | helement)
      exact congrArg _ ((resolvesTo_iff element).1 helement)
    · rintro rfl
      exact .array ((resolvesTo_iff element).2 rfl)
  | .tuple _ elements =>
    constructor
    · rintro (_ | _ | _ | helements)
      exact congrArg _ ((resolvesAll_iff elements).1 helements)
    · rintro rfl
      exact .tuple ((resolvesAll_iff elements).2 rfl)
  | .function _ params ret =>
    constructor
    · rintro (_ | _ | _ | _ | ⟨hparams, hret⟩)
      rw [(resolvesAll_iff params).1 hparams, (resolvesTo_iff ret).1 hret]
      rfl
    · rintro rfl
      exact .function ((resolvesAll_iff params).2 rfl) ((resolvesTo_iff ret).2 rfl)

theorem resolvesAll_iff (es : List TypeExpr) {ts : List Ty} :
    List.Forall₂ (ResolvesTo ix g) es ts ↔ ts = (resolveAll ix g es).1 := by
  match es with
  | [] => exact List.forall₂_nil_left_iff
  | e :: es =>
    rw [List.forall₂_cons_left_iff]
    constructor
    · rintro ⟨t, us, ht, hus, rfl⟩
      rw [(resolvesTo_iff e).1 ht, (resolvesAll_iff es).1 hus]
      rfl
    · rintro rfl
      exact ⟨_, _, (resolvesTo_iff e).2 rfl, (resolvesAll_iff es).2 rfl, rfl⟩

end

mutual

theorem madeOf_resolve (e : TypeExpr) : (e.resolve ix g).1.MadeOf ix g := by
  match e with
  | .named span name args =>
    exact (standsFor_resolveName span name _).madeOf (madeOf_resolveAll args)
  | .optional _ inner => exact .optional (madeOf_resolve inner)
  | .array _ element => exact .array (madeOf_resolve element)
  | .tuple _ elements => exact .tuple (madeOf_resolveAll elements)
  | .function _ params ret => exact .function (madeOf_resolveAll params) (madeOf_resolve ret)

theorem madeOf_resolveAll (es : List TypeExpr) :
    ∀ t ∈ (resolveAll ix g es).1, t.MadeOf ix g := by
  match es with
  | [] => exact nofun
  | e :: es => exact List.forall_mem_cons.2 ⟨madeOf_resolve e, madeOf_resolveAll es⟩

end

end TypeExpr

/-- Type parameters come from inside of entries, with their bounds. -/
theorem Ty.MadeOf.mem_params {t : Ty} (h : t.MadeOf ix g) :
    ∀ param ∈ t.params, ∃ name entry, g.Innermost name entry ∧ param ∈ entry.params := by
  induction h with
  | entry hentry => exact fun param hparam => ⟨_, _, hentry, hparam⟩
  | prim | named => exact nofun
  | generic _ _ ih | tuple _ ih =>
    intro param hparam
    rw [params, paramsAll_eq_flatMap] at hparam
    obtain ⟨t, ht, hmem⟩ := List.mem_flatMap.1 hparam
    exact ih t ht param hmem
  | optional _ ih | array _ ih => exact ih
  | function _ _ ihparams ihret =>
    intro param hparam
    rw [params, paramsAll_eq_flatMap] at hparam
    rcases List.mem_append.1 hparam with hmem | hmem
    · obtain ⟨t, ht, hmem⟩ := List.mem_flatMap.1 hmem
      exact ihparams t ht param hmem
    · exact ihret param hmem

/-- A written type resolves to the one type that the rules give it. All names in that type are
declared or those of containers, but for what stands inside innermost entries, and there stand all
its type parameters. On the way each unknown name is reported at its place, those in the arguments
of a name before the name, and nothing else is. -/
theorem TypeExpr.resolve_exact (ix : DeclIndex) (g : Generics) (e : TypeExpr) :
    (∀ t, e.ResolvesTo ix g t ↔ t = (e.resolve ix g).1) ∧
      (e.resolve ix g).1.MadeOf ix g ∧
      (∀ param ∈ (e.resolve ix g).1.params,
        ∃ name entry, g.Innermost name entry ∧ param ∈ entry.params) ∧
      (e.resolve ix g).2 = unknownTypes ix g e.mentions ∧
      (∀ name, isKnownType ix g name = true ↔
        (∃ t, (name, t) ∈ g.layers) ∨ (∃ p : Primitive, p.name = name) ∨
          (∃ arity, (name, arity) ∈ containers) ∨ ix.contains name = true) ∧
      (∀ f ∈ (e.resolve ix g).2, f.problem.code.text = "TC003") ∧
      ∀ b : Builder, b.table.decls = ix →
        (Build.resolve g e).run b =
          ((e.resolve ix g).1, { b with findings := b.findings ++ (e.resolve ix g).2 }) := by
  refine ⟨fun t => resolvesTo_iff e, madeOf_resolve e, (madeOf_resolve e).mem_params,
    resolve_findings ix g e, fun name => isKnownType_iff, fun f hf => ?_, fun b hb => ?_⟩
  · rw [resolve_findings] at hf
    obtain ⟨mention, -, rfl⟩ := List.mem_map.1 hf
    rfl
  · subst hb
    rfl

end UnitAnalysis

import Mathlib.Data.List.Forall2
import UnitAnalysis.Check.Member
import UnitAnalysis.Match.Coverage
import UnitAnalysis.Proofs.Diagnostic.Code

/-!
# Coverage is sound

The check of a match goes by names: which arms take everything, and which variants are taken with
whatever fields. This module gives patterns a meaning on values, under which the answers of that
check are true. A match on a data type with nothing to report has an arm without guard for every
value that is built from a variant of the type, when its patterns have the sizes and the field names
of the variants, and an arm that is reported as unreachable stands after one that takes every value.
The condition on field names is needed: the check passes over a field pattern for a field that is
not declared, which takes no value.

What a literal, a range, a typed name or an array pattern takes is left open: the results hold
whatever these patterns take.
-/

set_option autoImplicit false

namespace UnitAnalysis

open Match

/-! ## Values and what patterns take -/

/-- A value, as far as patterns can take it apart. -/
inductive Value where
  /-- A constructor with its fields, by name and in the order of their declaration. -/
  | con (name : String) (fields : List (String × Value))
  | tuple (elements : List Value)
  /-- Anything that has no parts. -/
  | atom (label : String)

/-- The constructor of a value. -/
def Value.constructor? : Value → Option String
  | con name _ => some name
  | _ => none

section Matching

variable (ix : DeclIndex) (tests : Pattern → Value → Prop)

mutual

/-- A pattern takes a value. The name of a variant takes the values of that constructor, and any
other bare name takes everything. -/
def Pattern.Matches : Pattern → Value → Prop
  | .bare _ name, v => (ix.variant? name).isSome → v.constructor? = some name
  | .wildcard _, _ => True
  | .tuple _ elements, v => ∃ vs, v = .tuple vs ∧ Pattern.MatchesAll elements vs
  | .struct _ name patterns, v =>
    ∃ fields, v = .con name fields ∧ FieldPattern.MatchesAll patterns fields
  | .tupleStruct _ name elements, v =>
    ∃ fields, v = .con name fields ∧ Pattern.MatchesAll elements (fields.map Prod.snd)
  | .either _ left right, v => left.Matches v ∨ right.Matches v
  | .literal node value, v => tests (.literal node value) v
  | .range node first last isInclusive, v => tests (.range node first last isInclusive) v
  | .typed node name ty, v => tests (.typed node name ty) v
  | .array node elements rest, v => tests (.array node elements rest) v

/-- Patterns take as many values, one each. -/
def Pattern.MatchesAll : List Pattern → List Value → Prop
  | [], [] => True
  | p :: ps, v :: vs => p.Matches v ∧ Pattern.MatchesAll ps vs
  | _, _ => False

/-- Field patterns take the fields of their names. -/
def FieldPattern.MatchesAll : List FieldPattern → List (String × Value) → Prop
  | [], _ => True
  | .shorthand name :: patterns, fields =>
    (fields.lookup name).isSome ∧ FieldPattern.MatchesAll patterns fields
  | .nested name p :: patterns, fields =>
    (∃ v, fields.lookup name = some v ∧ p.Matches v) ∧ FieldPattern.MatchesAll patterns fields

end

/-- An arm takes a value: its pattern does, and its guard, when it has one, lets the value pass. -/
def MatchArm.Takes (passes : MatchArm → Value → Prop) (arm : MatchArm) (v : Value) : Prop :=
  arm.pattern.Matches ix tests v ∧ (arm.guard = none ∨ passes arm v)

/-- A value comes to the arm at a position: no arm before it takes the value. -/
def Match.Reaches (passes : MatchArm → Value → Prop) (arms : List MatchArm) (v : Value)
    (position : Nat) : Prop :=
  ∀ arm ∈ arms.take position, ¬ arm.Takes ix tests passes v

end Matching

/-! ## Well-formed values and patterns -/

/-- A value of a tuple type is a tuple of that size. Nothing is asked of values of other types. -/
inductive Value.HasShape : Ty → Value → Prop where
  | tuple {types : List Ty} {vs : List Value} (h : List.Forall₂ HasShape types vs) :
    HasShape (.tuple types) (.tuple vs)
  | other {t : Ty} {v : Value} (h : ∀ types, t ≠ .tuple types) : HasShape t v

/-- Fields have the names and shapes of their declaration. -/
def FieldsFit (declared : List (String × Ty)) (fields : List (String × Value)) : Prop :=
  List.Forall₂ (fun f x => f.1 = x.1 ∧ Value.HasShape f.2 x.2) declared fields

/-- A value of type `t` that is built from one of several variants. -/
inductive Value.BuiltFrom (ix : DeclIndex) (t : Ty) (variants : List String) : Value → Prop where
  | con {name : String} {fields : List (String × Value)} (hname : name ∈ variants)
    (hfields : FieldsFit (ix.patternFields name t) fields) :
    BuiltFrom ix t variants (.con name fields)

mutual

/-- A tuple pattern inside another stands at a tuple type of its size. -/
def Pattern.FitsField : Pattern → Ty → Prop
  | .tuple _ elements, t => ∃ types, t = .tuple types ∧ Pattern.FitsEach elements types
  | _, _ => True

/-- Patterns fit as many types, one each. -/
def Pattern.FitsEach : List Pattern → List Ty → Prop
  | [], [] => True
  | p :: ps, t :: ts => p.FitsField t ∧ Pattern.FitsEach ps ts
  | _, _ => False

end

/-- A field pattern is about a declared field and fits its type. -/
def FieldPattern.FitsIn (declared : List (String × Ty)) : FieldPattern → Prop
  | shorthand name => (declared.lookup name).isSome
  | nested name p => ∃ t, declared.lookup name = some t ∧ p.FitsField t

/-- The constructor patterns of an arm suit their variants: as many elements as fields, or fields
that the variant has. The check itself asks for neither; the last theorem of this module shows what
it misses when a struct pattern names a field that is not declared. -/
def Pattern.SuitsVariants (ix : DeclIndex) (t : Ty) : Pattern → Prop
  | .tupleStruct _ name elements => (ix.variant? name).isSome →
    Pattern.FitsEach elements ((ix.patternFields name t).map Prod.snd)
  | .struct _ name fields => (ix.variant? name).isSome →
    ∀ f ∈ fields, f.FitsIn (ix.patternFields name t)
  | .either _ left right => left.SuitsVariants ix t ∧ right.SuitsVariants ix t
  | _ => True

/-! ## Patterns that cannot fail -/

section Sound

variable {ix : DeclIndex} {tests : Pattern → Value → Prop}

/-- A pattern that takes everything by its form takes every value. -/
theorem Pattern.matches_of_isCatchAll (p : Pattern) (h : p.isCatchAll ix = true) (v : Value) :
    p.Matches ix tests v := by
  match p with
  | .wildcard _ => exact trivial
  | .bare _ name =>
    intro hvariant
    simp only [Pattern.isCatchAll, Option.isNone_iff_eq_none] at h
    rw [h] at hvariant
    cases hvariant
  | .either _ left right =>
    simp only [Pattern.isCatchAll, Bool.or_eq_true] at h
    rcases h with hleft | hright
    · exact .inl (left.matches_of_isCatchAll hleft v)
    · exact .inr (right.matches_of_isCatchAll hright v)
  | .typed _ _ _ | .literal _ _ | .tuple _ _ | .array _ _ _ | .struct _ _ _ | .tupleStruct _ _ _
  | .range _ _ _ _ => cases h

mutual

/-- A pattern inside another that cannot fail takes every value of the type it stands at. -/
theorem Pattern.matches_of_isIrrefutable (p : Pattern) (h : p.isIrrefutable ix = true) {t : Ty}
    (hp : p.FitsField t) {v : Value} (hv : v.HasShape t) : p.Matches ix tests v := by
  match p with
  | .tuple _ elements =>
    obtain ⟨types, rfl, helements⟩ := hp
    cases hv with
    | tuple hvs => exact ⟨_, rfl, Pattern.matchesAll_of_allIrrefutable elements h helements hvs⟩
    | other hother => exact absurd rfl (hother types)
  | .wildcard _ | .bare _ _ | .either _ _ _ | .typed _ _ _ | .literal _ _ | .array _ _ _
  | .struct _ _ _ | .tupleStruct _ _ _ | .range _ _ _ _ =>
    exact Pattern.matches_of_isCatchAll _ h v

/-- Several patterns that cannot fail. -/
theorem Pattern.matchesAll_of_allIrrefutable (ps : List Pattern)
    (h : Pattern.allIrrefutable ix ps = true) {types : List Ty} (hps : Pattern.FitsEach ps types)
    {vs : List Value} (hvs : List.Forall₂ Value.HasShape types vs) :
    Pattern.MatchesAll ix tests ps vs := by
  match ps with
  | [] =>
    cases types with
    | nil =>
      cases hvs
      exact trivial
    | cons _ _ => cases hps
  | p :: ps =>
    cases types with
    | nil => cases hps
    | cons t types =>
      cases hvs with
      | cons hv hvs =>
        simp only [Pattern.allIrrefutable, Bool.and_eq_true] at h
        exact ⟨p.matches_of_isIrrefutable h.1 hps.1 hv,
          Pattern.matchesAll_of_allIrrefutable ps h.2 hps.2 hvs⟩

end

variable {declared : List (String × Ty)} {fields : List (String × Value)} {scrutinee : Ty}
  {arms : List MatchArm}

/-- A declared field has a value of its shape. -/
theorem FieldsFit.lookup
    (h : FieldsFit declared fields) {name : String} {t : Ty} (ht : declared.lookup name = some t) :
    ∃ v, fields.lookup name = some v ∧ v.HasShape t := by
  induction h with
  | nil => cases ht
  | @cons f x _ _ hfield _ ih =>
    obtain ⟨fname, ft⟩ := f
    obtain ⟨xname, v⟩ := x
    obtain ⟨hname, hshape⟩ := hfield
    simp only at hname hshape
    subst hname
    rw [List.lookup_cons] at ht ⊢
    split at ht
    · cases ht
      exact ⟨v, by simp [*], hshape⟩
    · obtain ⟨w, hw, hws⟩ := ih ht
      exact ⟨w, by simp [*], hws⟩

/-- Field patterns that cannot fail take the fields that they are about. -/
theorem FieldPattern.matchesAll_of_irrefutable (hfields : FieldsFit declared fields)
    (patterns : List FieldPattern) (h : patterns.all (Pattern.fieldIrrefutable ix) = true)
    (hfit : ∀ f ∈ patterns, f.FitsIn declared) :
    FieldPattern.MatchesAll ix tests patterns fields := by
  induction patterns with
  | nil => exact trivial
  | cons f patterns ih =>
    rw [List.all_cons, Bool.and_eq_true] at h
    have hrest := ih h.2 fun g hg => hfit g (List.mem_cons_of_mem _ hg)
    have hf := hfit f List.mem_cons_self
    cases f with
    | shorthand name =>
      obtain ⟨t, ht⟩ := Option.isSome_iff_exists.1 hf
      obtain ⟨v, hv, -⟩ := hfields.lookup ht
      exact ⟨by rw [hv]; rfl, hrest⟩
    | nested name p =>
      obtain ⟨t, ht, hp⟩ := hf
      obtain ⟨v, hv, hshape⟩ := hfields.lookup ht
      exact ⟨⟨v, hv, p.matches_of_isIrrefutable h.1 hp hshape⟩, hrest⟩

/-- The values of the fields have the declared shapes, in order. -/
theorem FieldsFit.forall₂_values (h : FieldsFit declared fields) :
    List.Forall₂ Value.HasShape (declared.map Prod.snd) (fields.map Prod.snd) := by
  induction h with
  | nil => exact .nil
  | cons hfield _ ih => exact .cons hfield.2 ih

/-! ## Variants that are covered -/

/-- A pattern that covers a variant takes its values, whatever their fields are. -/
theorem Pattern.matches_of_mem_covered {t : Ty} {name : String}
    (hfields : FieldsFit (ix.patternFields name t) fields) (p : Pattern)
    (hp : p.SuitsVariants ix t) (h : name ∈ p.covered ix) :
    p.Matches ix tests (.con name fields) := by
  match p with
  | .bare _ other =>
    simp only [Pattern.covered] at h
    split at h
    · obtain rfl := List.mem_singleton.1 h
      exact fun _ => rfl
    · cases h
  | .tupleStruct _ other elements =>
    simp only [Pattern.covered] at h
    split at h
    · next hcovers =>
        obtain rfl := List.mem_singleton.1 h
        rw [Bool.and_eq_true] at hcovers
        exact ⟨fields, rfl, Pattern.matchesAll_of_allIrrefutable elements hcovers.2
          (hp hcovers.1) hfields.forall₂_values⟩
    · cases h
  | .struct _ other patterns =>
    simp only [Pattern.covered] at h
    split at h
    · next hcovers =>
        obtain rfl := List.mem_singleton.1 h
        rw [Bool.and_eq_true] at hcovers
        exact ⟨fields, rfl, FieldPattern.matchesAll_of_irrefutable hfields patterns hcovers.2
          (hp hcovers.1)⟩
    · cases h
  | .either _ left right =>
    simp only [Pattern.covered, List.mem_append] at h
    rcases h with hleft | hright
    · exact .inl (left.matches_of_mem_covered hfields hp.1 hleft)
    · exact .inr (right.matches_of_mem_covered hfields hp.2 hright)
  | .typed _ _ _ | .literal _ _ | .wildcard _ | .tuple _ _ | .array _ _ _ | .range _ _ _ _ =>
    cases h

/-! ## Matches -/

/-- The data type of a match is that of its scrutinee. -/
theorem Match.missingVariants_eq {d : DeclaredType}
    (hd : ix.get? d.name = some d) (hkind : d.kind = .data)
    (hscrutinee : scrutinee.nominalName? = some d.name) (arms : List MatchArm) :
    missingVariants ix scrutinee arms =
      some (d.variants.filter fun v =>
        v ∉ (arms.filter fun arm => arm.guard.isNone).flatMap fun arm => arm.pattern.covered ix) := by
  have hname : dataType? ix scrutinee arms = some d.name := by
    simp only [dataType?, hscrutinee, hd, Option.bind_some, hkind, if_true]
  simp only [missingVariants, hname, Option.bind_eq_bind, Option.bind_some, hd, Option.pure_def]

/-- When nothing is wrong with the arms as a whole, one of them takes everything or no variant is
missing. -/
theorem Match.exhaustiveness_eq_nil {span : Span}
    (h : exhaustiveness ix scrutinee arms span = []) :
    (∃ arm ∈ arms, arm.isCatchAll ix = true) ∨
      missingVariants ix scrutinee arms = some [] := by
  unfold exhaustiveness at h
  split at h
  · cases h
  · split at h
    · next hany => exact .inl (List.any_eq_true.1 hany)
    · split at h
      · next hmissing => exact .inr hmissing
      · cases h
      · cases h

/-- An arm that takes everything by its form has no guard and takes every value. -/
theorem MatchArm.matches_of_isCatchAll {arm : MatchArm} (h : arm.isCatchAll ix = true) :
    arm.guard = none ∧ ∀ v, arm.pattern.Matches ix tests v := by
  rw [MatchArm.isCatchAll, Bool.and_eq_true, Option.isNone_iff_eq_none] at h
  exact ⟨h.1, arm.pattern.matches_of_isCatchAll h.2⟩

/-- A match on a data type with nothing to report has an arm without guard for every value. -/
theorem Match.exists_arm_of_exhaustive {span : Span}
    {d : DeclaredType} (hd : ix.get? d.name = some d) (hkind : d.kind = .data)
    (hscrutinee : scrutinee.nominalName? = some d.name)
    (hsuits : ∀ arm ∈ arms, arm.pattern.SuitsVariants ix scrutinee)
    (h : exhaustiveness ix scrutinee arms span = []) {v : Value}
    (hv : v.BuiltFrom ix scrutinee d.variants) :
    ∃ arm ∈ arms, arm.guard = none ∧ arm.pattern.Matches ix tests v := by
  rcases exhaustiveness_eq_nil h with ⟨arm, harm, hall⟩ | hmissing
  · obtain ⟨hguard, hmatches⟩ := MatchArm.matches_of_isCatchAll hall
    exact ⟨arm, harm, hguard, hmatches v⟩
  · rw [missingVariants_eq hd hkind hscrutinee] at hmissing
    cases hv with
    | @con name fields hname hfields =>
      have hcovered := List.filter_eq_nil_iff.1 (Option.some.inj hmissing) name hname
      rw [decide_eq_true_eq, not_not] at hcovered
      obtain ⟨arm, harm, hmem⟩ := List.mem_flatMap.1 hcovered
      obtain ⟨harm, hguard⟩ := List.mem_filter.1 harm
      exact ⟨arm, harm, Option.isNone_iff_eq_none.1 hguard,
        arm.pattern.matches_of_mem_covered hfields (hsuits arm harm) hmem⟩

/-- The unreachable arms are those after the first one that takes everything. -/
theorem Match.unreachable_eq_drop (ix : DeclIndex) (arms : List MatchArm) :
    unreachable ix arms = arms.drop (arms.findIdx (MatchArm.isCatchAll ix) + 1) := by
  rw [unreachable, List.dropWhile_eq_drop_findIdx_not, List.drop_drop]
  simp only [Bool.not_not]

/-- Before a position after the first arm that takes everything, there is such an arm. -/
theorem Match.exists_catchAll_before {position : Nat}
    (h : arms.findIdx (MatchArm.isCatchAll ix) + 1 ≤ position) (hlt : position < arms.length) :
    ∃ arm ∈ arms.take position, arm.isCatchAll ix = true := by
  have hfirst : arms.findIdx (MatchArm.isCatchAll ix) < arms.length := by omega
  refine ⟨arms[arms.findIdx (MatchArm.isCatchAll ix)], ?_, List.findIdx_getElem⟩
  exact List.mem_take_iff_getElem.2 ⟨_, by omega, rfl⟩

/-- When no arm takes everything, no arm is unreachable. -/
theorem Match.unreachability_eq_nil
    (h : ∀ arm ∈ arms, arm.isCatchAll ix = false) : unreachability ix arms = [] := by
  have hnone : arms.findIdx (MatchArm.isCatchAll ix) = arms.length :=
    List.findIdx_eq_length.2 h
  rw [unreachability, unreachable_eq_drop, hnone,
    List.drop_eq_nil_of_le (Nat.le_succ _), List.map_nil]

/-- A match that may not be exhaustive has no arm that takes everything. -/
theorem Match.isCatchAll_eq_false_of_nonExhaustive
    {span : Span} {f : Finding} (hf : f ∈ exhaustiveness ix scrutinee arms span)
    (hcode : f.problem.code = .nonExhaustiveMatch) :
    ∀ arm ∈ arms, arm.isCatchAll ix = false := by
  unfold exhaustiveness at hf
  split at hf
  · obtain rfl := List.mem_singleton.1 hf
    cases hcode
  · split at hf
    · cases hf
    · next hany => simpa using hany

end Sound

/-- The reports on a match that are about unreachable arms come from the check of single arms. -/
theorem Match.unreachability_ne_nil {ix : DeclIndex} {scrutinee : Ty} {arms : List MatchArm}
    {span : Span} {f : Finding} (hf : f ∈ findings ix scrutinee arms span)
    (hcode : f.problem.code = .unreachableArm) : unreachability ix arms ≠ [] := by
  rcases List.mem_append.1 hf with hwhole | harm
  · unfold exhaustiveness at hwhole
    split at hwhole
    · obtain rfl := List.mem_singleton.1 hwhole
      cases hcode
    · split at hwhole
      · cases hwhole
      · split at hwhole
        · cases hwhole
        · obtain rfl := List.mem_singleton.1 hwhole
          cases hcode
        · obtain rfl := List.mem_singleton.1 hwhole
          cases hcode
  · exact List.ne_nil_of_mem harm

/-- The reports on a match that it may not be exhaustive come from the check of the arms as a
whole. -/
theorem Match.mem_exhaustiveness {ix : DeclIndex} {scrutinee : Ty} {arms : List MatchArm}
    {span : Span} {f : Finding} (hf : f ∈ findings ix scrutinee arms span)
    (hcode : f.problem.code = .nonExhaustiveMatch) :
    f ∈ exhaustiveness ix scrutinee arms span := by
  refine (List.mem_append.1 hf).resolve_right fun harm => ?_
  obtain ⟨arm, -, rfl⟩ := List.mem_map.1 harm
  cases hcode

/-- **Coverage is sound.** A match on a data type with nothing to report on its arms as a whole has
an arm without guard for every value that is built from a variant of the type. Whatever the
scrutinee is, the arms from some position on are reported as unreachable, each of them stands after
an arm without guard that takes every value, and no value comes to it. A match is never reported
both as not exhaustive and for an unreachable arm. -/
theorem match_coverage_sound (ix : DeclIndex) (scrutinee : Ty) (arms : List MatchArm) (span : Span)
    (tests : Pattern → Value → Prop) :
    (∀ d : DeclaredType, ix.get? d.name = some d → d.kind = .data →
      scrutinee.nominalName? = some d.name →
      (∀ arm ∈ arms, arm.pattern.SuitsVariants ix scrutinee) →
      Match.exhaustiveness ix scrutinee arms span = [] →
      ∀ v : Value, v.BuiltFrom ix scrutinee d.variants →
        ∃ arm ∈ arms, arm.guard = none ∧ arm.pattern.Matches ix tests v) ∧
    (∃ n, Match.unreachability ix arms =
        (arms.drop n).map (fun arm => ⟨.unreachableArm, arm.node.span⟩) ∧
      ∀ position, n ≤ position → position < arms.length →
        (∃ arm ∈ arms.take position, arm.guard = none ∧ ∀ v, arm.pattern.Matches ix tests v) ∧
          ∀ passes v, ¬ Match.Reaches ix tests passes arms v position) ∧
    ¬ ((∃ f ∈ Match.findings ix scrutinee arms span, f.toDiagnostic.code = "EXH002") ∧
      ∃ f ∈ Match.findings ix scrutinee arms span, f.toDiagnostic.code = "EXH003") := by
  refine ⟨?_, ⟨arms.findIdx (MatchArm.isCatchAll ix) + 1, ?_, ?_⟩, ?_⟩
  · intro d hd hkind hscrutinee hsuits h v hv
    exact exists_arm_of_exhaustive hd hkind hscrutinee hsuits h hv
  · rw [unreachability, unreachable_eq_drop]
  · intro position hle hlt
    obtain ⟨arm, harm, hall⟩ := exists_catchAll_before hle hlt
    obtain ⟨hguard, hmatches⟩ : arm.guard = none ∧ ∀ v, arm.pattern.Matches ix tests v :=
      MatchArm.matches_of_isCatchAll hall
    exact ⟨⟨arm, harm, hguard, hmatches⟩,
      fun passes v hreaches => hreaches arm harm ⟨hmatches v, .inl hguard⟩⟩
  · rintro ⟨⟨f, hf, hcode⟩, g, hg, hcode'⟩
    have hwhole := (f.toDiagnostic_code_eq_iff (c := .nonExhaustiveMatch)).1 hcode
    have hsingle := (g.toDiagnostic_code_eq_iff (c := .unreachableArm)).1 hcode'
    exact unreachability_ne_nil hg hsingle (unreachability_eq_nil
      (isCatchAll_eq_false_of_nonExhaustive (mem_exhaustiveness hf hwhole) hwhole))

/-- A data type with a parameter: a box that is full or empty. -/
def boxIndex : DeclIndex :=
  let box : DeclaredType := { name := "Box", kind := .data, typeParams := [.bounded "T" []] }
  (((({} : DeclIndex).declare box).addVariant
    { name := "Full", parent := "Box"
      fields := [{ name := "content", ty := .bounded "T" [] }] }).addVariant
    { name := "Empty", parent := "Box" })

/-- A match on a box of pairs: the pair is taken apart, the first arm for the empty box has a guard,
and the second one has none. -/
def boxArms : List MatchArm :=
  let node (n : UInt64) : Node := ⟨⟨n⟩, {}⟩
  [⟨node 0, .tupleStruct (node 1) "Full" [.tuple (node 2) [.bare (node 3) "a", .wildcard (node 4)]],
      none, .ident (node 5) "a"⟩,
    ⟨node 6, .bare (node 7) "Empty", some (.ident (node 8) "late"), .ident (node 9) "late"⟩,
    ⟨node 10, .bare (node 11) "Empty", none, .ident (node 12) "late"⟩]

/-- A full box is taken. -/
theorem match_coverage_sound_boxArms :
    let pairs : Ty := .generic "Box" [.tuple [.int, .bool]]
    let full : Value := .con "Full" [("content", .tuple [.atom "1", .atom "true"])]
    Match.exhaustiveness boxIndex pairs boxArms {} = [] ∧
      full.BuiltFrom boxIndex pairs ["Full", "Empty"] ∧
      ∃ arm ∈ boxArms, arm.guard = none ∧ arm.pattern.Matches boxIndex (fun _ _ => False) full := by
  intro pairs full
  have hbox : ∃ d, boxIndex.get? "Box" = some d ∧ d.name = "Box" ∧ d.kind = .data ∧
      d.variants = ["Full", "Empty"] := ⟨_, rfl, rfl, rfl, rfl⟩
  obtain ⟨d, hd, hname, hkind, hvariants⟩ := hbox
  have hfull : full.BuiltFrom boxIndex pairs ["Full", "Empty"] := by
    refine .con (by decide) (.cons ⟨rfl, .tuple (.cons (.other ?_) (.cons (.other ?_) .nil))⟩ .nil)
    · rintro types ⟨⟩
    · rintro types ⟨⟩
  have hsuits : ∀ arm ∈ boxArms, arm.pattern.SuitsVariants boxIndex pairs := by
    intro arm harm
    simp only [boxArms, List.mem_cons, List.not_mem_nil, or_false] at harm
    rcases harm with rfl | rfl | rfl
    · exact fun _ => ⟨⟨_, rfl, trivial, trivial, trivial⟩, trivial⟩
    · exact trivial
    · exact trivial
  have hnothing : exhaustiveness boxIndex pairs boxArms {} = [] := rfl
  exact ⟨hnothing, hfull, (match_coverage_sound boxIndex pairs boxArms {} fun _ _ => False).1 d
    (hname ▸ hd) hkind (hname ▸ rfl) hsuits hnothing full (hvariants ▸ hfull)⟩

/-- A shape is a circle with a radius, or empty. -/
def roundIndex : DeclIndex :=
  (((({} : DeclIndex).declare { name := "Shape", kind := .data }).addVariant
    { name := "Circle", parent := "Shape",
      fields := [{ name := "radius", ty := .float }] }).addVariant
    { name := "Empty", parent := "Shape" })

/-- The arms `Circle { bogus }` and `Empty`: one field pattern for the one field of a circle, with a
name that the field does not have. -/
def strayFieldArms : List MatchArm :=
  let node (n : UInt64) : Node := ⟨⟨n⟩, {}⟩
  [⟨node 0, .struct (node 1) "Circle" [.shorthand "bogus"], none, .ident (node 2) "bogus"⟩,
    ⟨node 3, .bare (node 4) "Empty", none, .ident (node 5) "late"⟩]

/-- **A field that is not declared.** Coverage does not ask whether the fields of a struct pattern
are declared: nothing is reported on `Circle { bogus }` and `Empty`, and no arm takes a circle. An
initializer of the same name is reported. -/
theorem strayField_not_covered :
    let circle : Value := .con "Circle" [("radius", .atom "1.0")]
    Match.findings roundIndex (.named "Shape") strayFieldArms {} = [] ∧
      circle.BuiltFrom roundIndex (.named "Shape") ["Circle", "Empty"] ∧
      (∀ tests, ∀ arm ∈ strayFieldArms, ¬ arm.pattern.Matches roundIndex tests circle) ∧
      ∀ span ty, (Check.structType roundIndex "Circle" [⟨"bogus", span, ty⟩] span).2 =
        [⟨.unknownInitializer "Circle" "bogus", span⟩] := by
  refine ⟨rfl, .con (by decide) (.cons ⟨rfl, .other ?_⟩ .nil), ?_, fun _ _ => rfl⟩
  · rintro types ⟨⟩
  · intro tests arm harm
    simp only [strayFieldArms, List.mem_cons, List.not_mem_nil, or_false] at harm
    rcases harm with rfl | rfl
    · rintro ⟨fields, hcircle, hbogus, -⟩
      cases hcircle
      cases hbogus
    · intro hempty
      exact absurd (hempty rfl) (by decide)

end UnitAnalysis

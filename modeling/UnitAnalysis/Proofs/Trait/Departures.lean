import Mathlib.Data.List.Count
import UnitAnalysis.Proofs.Trait.Registrations
import UnitAnalysis.Proofs.Ty.Params

/-!
# Departures from a trait

Registering an implementation of a trait compares two lists of methods. What is reported can be
counted without running the comparison: the signatures of the trait that the implementation has no
method for, those that its method differs from in the number of parameters, the places at which the
types of parameters do not fit, the results that do not fit, and the methods that the trait does not
know (`Registry.departures_reported_exactly`). So nothing is reported just when the implementation
conforms.

The comparison reads the types of the trait with something put in for its type parameters and for
`Self` (`Implementation.meaning?`), all at once.
-/

set_option autoImplicit false

namespace UnitAnalysis

open Conformance

/-! ## How a trait is read -/

/-- Of several pairs with one key, the last one counts. -/
theorem Table.get?_ofList {κ α : Type} [DecidableEq κ] (pairs : List (κ × α)) (k : κ) :
    (Table.ofList pairs).get? k = (pairs.reverse.find? fun p => p.1 = k).map Prod.snd := by
  have hfold : ∀ t : Table κ α, (pairs.foldl (fun t p => t.insert p.1 p.2) t).get? k =
      ((pairs.reverse.find? fun p => p.1 = k).map Prod.snd).or (t.get? k) := by
    induction pairs with
    | nil =>
      intro t
      rfl
    | cons p pairs ih =>
      intro t
      rw [List.foldl_cons, ih, List.reverse_cons, List.find?_append]
      cases hrest : pairs.reverse.find? fun p => p.1 = k with
      | some q => simp
      | none =>
        by_cases hk : p.1 = k
        · subst hk
          simp
        · simp [hk, Table.get?_insert_of_ne t hk p.2]
  rw [Table.ofList, hfold]
  exact Option.or_none

namespace Implementation

/-- What an implementation puts in for a type parameter of its trait: the argument at the place of
that parameter, and the target for `Self`. -/
def meaning? (t : Trait) (i : Implementation) (name : String) : Option Ty :=
  ((t.typeParams.zip i.traitArgs).reverse.findSome? fun p =>
    if p.1.paramName? = some name then some p.2 else none).or
    (if name = "Self" then some i.target else none)

/-- The pairs of type parameters and arguments, read off the names of the parameters. -/
theorem pairParams_eq_filterMap (params args : List Ty) :
    DeclaredType.pairParams params args =
      (params.zip args).filterMap fun p => p.1.paramName?.map fun name => (name, p.2) := by
  unfold DeclaredType.pairParams
  refine List.filterMap_congr fun p _ => ?_
  obtain ⟨param, arg⟩ := p
  cases param <;> rfl

theorem map_find?_filterMap_paramName? (name : String) (pairs : List (Ty × Ty)) :
    ((pairs.filterMap fun p => p.1.paramName?.map fun name => (name, p.2)).find?
        fun p => p.1 = name).map Prod.snd =
      pairs.findSome? fun p => if p.1.paramName? = some name then some p.2 else none := by
  induction pairs with
  | nil => rfl
  | cons p pairs ih =>
    rw [List.filterMap_cons, List.findSome?_cons]
    cases hparam : p.1.paramName? with
    | none => simpa using ih
    | some other =>
      by_cases hname : other = name
      · simp [hname]
      · simpa [hname] using ih

theorem get?_reading (t : Trait) (i : Implementation) (name : String) :
    (i.reading t).get? name = i.meaning? t name := by
  unfold reading meaning? Subst.get? Subst.ofList
  rw [Table.get?_ofList, pairParams_eq_filterMap, List.reverse_cons, List.find?_append,
    Option.map_or, ← List.filterMap_reverse, map_find?_filterMap_paramName?]
  by_cases hself : name = "Self"
  · subst hself
    simp
  · simp [hself, Ne.symm hself]

/-- The signatures of a trait that an implementation has a method for, each with that method. -/
def shared (t : Trait) (i : Implementation) : List (Signature × Signature) :=
  t.methods.filterMap fun required =>
    (i.method? required.name).map fun provided => (required, provided)

/-- Those of them that have as many parameters as the method. -/
def comparable (t : Trait) (i : Implementation) : List (Signature × Signature) :=
  (i.shared t).filter fun c => c.2.params.length = c.1.params.length

end Implementation

/-- A method is one that a trait asks for, when the trait is read in the given way. -/
structure Signature.Fits (s : Subst) (required provided : Signature) : Prop where
  params : List.Forall₂ (fun expected actual => (s.apply expected).compatible actual = true)
    required.paramTypes provided.paramTypes
  result : (s.apply required.returnType).compatible provided.returnType = true

/-- An implementation has what its trait asks for, and nothing that the trait does not know. -/
structure Implementation.Conforms (t : Trait) (i : Implementation) : Prop where
  required : ∀ m ∈ t.methods, ∃ p, i.method? m.name = some p ∧ m.Fits (i.reading t) p
  known : ∀ p ∈ i.methods, ∃ m ∈ t.methods, m.name = p.name

/-- There is no signature of a name just when none has it. -/
theorem Signature.ofName?_eq_none_iff {signatures : List Signature} {name : String} :
    ofName? signatures name = none ↔ ∀ s ∈ signatures, s.name ≠ name := by
  simp [ofName?]

/-! ## The codes of what is reported -/

namespace Conformance

/-- One report for each place at which a parameter does not fit. -/
theorem map_code_parameterFindings (s : Subst) (trait : String) (provided : Signature)
    (position : Nat) (required actual : List (String × Ty)) :
    (parameterFindings s trait provided position required actual).map Finding.code =
      List.replicate (((required.map Prod.snd).zip (actual.map Prod.snd)).countP fun p =>
        !(s.apply p.1).compatible p.2) .parameterTypeMismatch := by
  induction required generalizing actual position with
  | nil => rfl
  | cons q required ih =>
    cases actual with
    | nil => rfl
    | cons p actual =>
      obtain ⟨_, expected⟩ := q
      obtain ⟨name, given⟩ := p
      simp only [parameterFindings, List.map_append, ih, List.map_cons, List.zip_cons_cons,
        List.countP_cons]
      cases (s.apply expected).compatible given with
      | true => simp
      | false => simp [List.replicate_succ, Problem.code]

/-- The number of places at which the parameters of two methods do not fit. -/
def misfits (s : Subst) (required provided : Signature) : Nat :=
  (required.paramTypes.zip provided.paramTypes).countP fun q => !(s.apply q.1).compatible q.2

/-- What is reported of a method that the trait asks for: that it is missing, or that it has another
number of parameters, or each parameter that does not fit and the result when that does not. -/
theorem requiredFindings_cases (t : Trait) (i : Implementation) (m : Signature) :
    (i.method? m.name = none ∧ (requiredFindings t i m).map Finding.code = [.missingMethod]) ∨
    (∃ p, i.method? m.name = some p ∧ p.params.length ≠ m.params.length ∧
      (requiredFindings t i m).map Finding.code = [.parameterCountMismatch]) ∨
    (∃ p, i.method? m.name = some p ∧ p.params.length = m.params.length ∧
      (requiredFindings t i m).map Finding.code =
        List.replicate (misfits (i.reading t) m p) .parameterTypeMismatch ++
          if ((i.reading t).apply m.returnType).compatible p.returnType then []
          else [.methodReturnMismatch]) := by
  unfold requiredFindings
  cases i.method? m.name with
  | none => exact .inl ⟨rfl, rfl⟩
  | some p =>
    by_cases hlength : p.params.length = m.params.length
    · refine .inr (.inr ⟨p, rfl, hlength, ?_⟩)
      simp only [hlength, if_true, List.map_append, map_code_parameterFindings, resultFindings]
      split <;> rfl
    · refine .inr (.inl ⟨p, rfl, hlength, ?_⟩)
      simp only [hlength, if_false]
      rfl

/-- What is reported of a method of the implementation. -/
theorem map_code_providedFindings (t : Trait) (p : Signature) :
    (providedFindings t p).map Finding.code =
      if ∀ m ∈ t.methods, m.name ≠ p.name then [.methodNotInTrait] else [] := by
  have hnone : t.method? p.name = none ↔ ∀ m ∈ t.methods, m.name ≠ p.name :=
    Signature.ofName?_eq_none_iff
  unfold providedFindings
  cases hm : t.method? p.name with
  | none =>
    rw [if_pos (hnone.1 hm)]
    rfl
  | some m =>
    have hknown : ¬ ∀ m ∈ t.methods, m.name ≠ p.name := by
      rw [← hnone, hm]
      exact Option.some_ne_none m
    rw [if_neg hknown]
    rfl

/-! ## Counting -/

/-- Reports that are made member by member are counted member by member. -/
theorem count_flatMap_eq_countP {α β : Type} {c : Code} {l : List α} {report : α → List Finding}
    (parts : α → List β) {p : β → Bool}
    (h : ∀ x ∈ l, ((report x).map Finding.code).count c = (parts x).countP p) :
    ((l.flatMap report).map Finding.code).count c = (l.flatMap parts).countP p := by
  rw [List.map_flatMap, List.count_flatMap, List.countP_flatMap]
  exact congrArg List.sum (List.map_congr_left h)

/-- Where a member is reported once or not at all, the reports count members. -/
theorem count_flatMap_eq_countP_self {α : Type} {c : Code} {l : List α} {report : α → List Finding}
    {p : α → Bool}
    (h : ∀ x ∈ l, ((report x).map Finding.code).count c = if p x then 1 else 0) :
    ((l.flatMap report).map Finding.code).count c = l.countP p := by
  have hparts := count_flatMap_eq_countP (fun x => [x])
    fun x hx => (h x hx).trans List.countP_singleton.symm
  rwa [List.flatMap_singleton'] at hparts

/-- A method of the implementation is reported for nothing but that the trait does not know it. -/
theorem count_findings_of_ne {c : Code} (t : Trait) (i : Implementation)
    (hc : c ≠ .methodNotInTrait) :
    ((findings t i).map Finding.code).count c =
      ((t.methods.flatMap (requiredFindings t i)).map Finding.code).count c := by
  have hprovided : ((i.methods.flatMap (providedFindings t)).map Finding.code).count c = 0 := by
    rw [List.count_eq_zero, List.map_flatMap]
    intro hmem
    obtain ⟨p, -, hp⟩ := List.mem_flatMap.1 hmem
    rw [map_code_providedFindings] at hp
    split at hp
    · exact hc (List.mem_singleton.1 hp)
    · cases hp
  rw [findings, List.map_append, List.count_append, hprovided, Nat.add_zero]

variable (t : Trait) (i : Implementation)

theorem count_missingMethod :
    ((findings t i).map Finding.code).count .missingMethod =
      t.methods.countP fun m => ∀ p ∈ i.methods, p.name ≠ m.name := by
  rw [count_findings_of_ne t i (by decide)]
  refine count_flatMap_eq_countP_self fun m _ => ?_
  have hmissing : (∀ p ∈ i.methods, p.name ≠ m.name) ↔ i.method? m.name = none :=
    Signature.ofName?_eq_none_iff.symm
  simp only [hmissing]
  rcases requiredFindings_cases t i m with
    ⟨hnone, hcodes⟩ | ⟨p, hp, -, hcodes⟩ | ⟨p, hp, -, hcodes⟩
  · simp [hcodes, hnone]
  · simp [hcodes, hp]
  · rw [hcodes]
    split <;> simp [hp, List.count_replicate]

/-- The signatures that have a method, found one by one. -/
theorem shared_eq_flatMap :
    i.shared t = t.methods.flatMap fun m => ((i.method? m.name).map fun p => (m, p)).toList :=
  List.filterMap_eq_flatMap_toList _ _

theorem comparable_eq_flatMap :
    i.comparable t = t.methods.flatMap fun m =>
      ((i.method? m.name).map fun p => (m, p)).toList.filter fun c =>
        c.2.params.length = c.1.params.length := by
  rw [Implementation.comparable, shared_eq_flatMap, List.filter_flatMap]

theorem count_parameterCountMismatch :
    ((findings t i).map Finding.code).count .parameterCountMismatch =
      (i.shared t).countP fun c => c.2.params.length ≠ c.1.params.length := by
  rw [count_findings_of_ne t i (by decide), shared_eq_flatMap]
  refine count_flatMap_eq_countP _ fun m _ => ?_
  rcases requiredFindings_cases t i m with
    ⟨hnone, hcodes⟩ | ⟨p, hp, hlength, hcodes⟩ | ⟨p, hp, hlength, hcodes⟩
  · simp [hcodes, hnone]
  · simp [hcodes, hp, hlength]
  · rw [hcodes]
    split <;> simp [hp, hlength, List.count_replicate]

theorem count_parameterTypeMismatch :
    ((findings t i).map Finding.code).count .parameterTypeMismatch =
      ((i.comparable t).flatMap fun c => c.1.paramTypes.zip c.2.paramTypes).countP fun q =>
        !((i.reading t).apply q.1).compatible q.2 := by
  rw [count_findings_of_ne t i (by decide), comparable_eq_flatMap, List.flatMap_assoc]
  refine count_flatMap_eq_countP _ fun m _ => ?_
  rcases requiredFindings_cases t i m with
    ⟨hnone, hcodes⟩ | ⟨p, hp, hlength, hcodes⟩ | ⟨p, hp, hlength, hcodes⟩
  · simp [hcodes, hnone]
  · simp [hcodes, hp, hlength]
  · rw [hcodes]
    split <;> simp [hp, hlength, misfits]

theorem count_methodReturnMismatch :
    ((findings t i).map Finding.code).count .methodReturnMismatch =
      (i.comparable t).countP fun c =>
        !((i.reading t).apply c.1.returnType).compatible c.2.returnType := by
  rw [count_findings_of_ne t i (by decide), comparable_eq_flatMap]
  refine count_flatMap_eq_countP _ fun m _ => ?_
  rcases requiredFindings_cases t i m with
    ⟨hnone, hcodes⟩ | ⟨p, hp, hlength, hcodes⟩ | ⟨p, hp, hlength, hcodes⟩
  · simp [hcodes, hnone]
  · simp [hcodes, hp, hlength]
  · rw [hcodes]
    split
    · next hfits => simp [hp, hlength, hfits, List.count_replicate]
    · next hfits => simp [hp, hlength, hfits, List.count_replicate]

theorem count_methodNotInTrait :
    ((findings t i).map Finding.code).count .methodNotInTrait =
      i.methods.countP fun p => ∀ m ∈ t.methods, m.name ≠ p.name := by
  have hrequired : ((t.methods.flatMap (requiredFindings t i)).map Finding.code).count
      .methodNotInTrait = 0 := by
    rw [List.count_eq_zero, List.map_flatMap]
    intro hmem
    obtain ⟨m, -, hm⟩ := List.mem_flatMap.1 hmem
    rcases requiredFindings_cases t i m with
      ⟨-, hcodes⟩ | ⟨p, -, -, hcodes⟩ | ⟨p, -, -, hcodes⟩
    · simp [hcodes] at hm
    · simp [hcodes] at hm
    · rw [hcodes] at hm
      split at hm <;> simp at hm
  rw [findings, List.map_append, List.count_append, hrequired, Nat.zero_add]
  refine count_flatMap_eq_countP_self fun p _ => ?_
  rw [map_code_providedFindings]
  by_cases hunknown : ∀ m ∈ t.methods, m.name ≠ p.name
  · rw [if_pos hunknown, decide_eq_true hunknown]
    rfl
  · rw [if_neg hunknown, decide_eq_false hunknown]
    rfl

/-! ## Conformance -/

theorem fits_iff (s : Subst) (m p : Signature) :
    m.Fits s p ↔ p.params.length = m.params.length ∧ misfits s m p = 0 ∧
      (s.apply m.returnType).compatible p.returnType = true := by
  have hlength : m.paramTypes.length = p.paramTypes.length ↔
      p.params.length = m.params.length := by
    simp only [Signature.paramTypes, List.length_map]
    exact eq_comm
  have hmisfits : misfits s m p = 0 ↔
      ∀ {expected actual}, (expected, actual) ∈ m.paramTypes.zip p.paramTypes →
        (s.apply expected).compatible actual = true := by
    simp [misfits, List.countP_eq_zero]
  constructor
  · rintro ⟨hparams, hresult⟩
    obtain ⟨hsame, hall⟩ := List.forall₂_iff_zip.1 hparams
    exact ⟨hlength.1 hsame, hmisfits.2 hall, hresult⟩
  · rintro ⟨hsame, hnone, hresult⟩
    exact ⟨List.forall₂_iff_zip.2 ⟨hlength.2 hsame, hmisfits.1 hnone⟩, hresult⟩

theorem requiredFindings_eq_nil_iff {m : Signature} :
    requiredFindings t i m = [] ↔ ∃ p, i.method? m.name = some p ∧ m.Fits (i.reading t) p := by
  rw [← List.map_eq_nil_iff (f := Finding.code)]
  simp only [fits_iff]
  rcases requiredFindings_cases t i m with
    ⟨hnone, hcodes⟩ | ⟨p, hp, hlength, hcodes⟩ | ⟨p, hp, hlength, hcodes⟩
  · simp [hcodes, hnone]
  · simp [hcodes, hp, hlength]
  · simp [hcodes, hp, hlength]

theorem providedFindings_eq_nil_iff {p : Signature} :
    providedFindings t p = [] ↔ ∃ m ∈ t.methods, m.name = p.name := by
  rw [← List.map_eq_nil_iff (f := Finding.code), map_code_providedFindings]
  split
  · next hunknown =>
      refine ⟨nofun, fun ⟨m, hm, hname⟩ => absurd hname (hunknown m hm)⟩
  · next hknown =>
      push Not at hknown
      exact ⟨fun _ => hknown, fun _ => rfl⟩

/-- Nothing is reported just when the implementation conforms. -/
theorem findings_eq_nil_iff : findings t i = [] ↔ i.Conforms t := by
  rw [findings, List.append_eq_nil_iff, List.flatMap_eq_nil_iff, List.flatMap_eq_nil_iff]
  simp only [requiredFindings_eq_nil_iff, providedFindings_eq_nil_iff]
  exact ⟨fun h => ⟨h.1, h.2⟩, fun h => ⟨h.required, h.known⟩⟩

end Conformance

namespace Registry

/-- A new implementation of a registered trait is compared with the trait. -/
theorem findings_addImpl {r : Registry} {t : Trait} {i : Implementation} {name : String}
    (hname : i.traitName = some name) (hget : r.get? name = some t)
    (hnew : ∀ other ∈ r.implementations name, other.target ≠ i.target) :
    (r.addImpl i).findings = findings t i := by
  have hdup : ((r.implementations name).any fun other => other.target = i.target) = false := by
    rw [List.any_eq_false]
    intro other hother heq
    exact hnew other hother (of_decide_eq_true heq)
  simp only [addImpl, hname, hget, hdup, Bool.false_eq_true, if_false]

/-- **Conformance is reported exactly.** Registering an implementation of a registered trait for a
type that has none yet reports nothing just when the implementation conforms, that is when it has
each method that the trait asks for, with as many parameters, of types that fit, and with a result
that fits, and has no others. In general there is one report for each signature of the trait without
a method, for each one whose method has another number of parameters, for each place at which the
parameters of the remaining ones do not fit, for each of their results that does not fit, and for
each method that the trait does not know. The types of the trait are read with the arguments of the
implementation put in for the type parameters of the trait, place by place, and with the target put
in for `Self`. -/
theorem departures_reported_exactly {r : Registry} {t : Trait} {i : Implementation} {name : String}
    (hname : i.traitName = some name) (hget : r.get? name = some t)
    (hnew : ∀ other ∈ r.implementations name, other.target ≠ i.target) :
    let s := i.reading t
    let codes := (r.addImpl i).findings.map fun f => f.toDiagnostic.code
    (∀ param, s.get? param = i.meaning? t param) ∧
    (codes = [] ↔ i.Conforms t) ∧
    codes.count "TRAIT005" = t.methods.countP (fun m => ∀ p ∈ i.methods, p.name ≠ m.name) ∧
    codes.count "TRAIT006" =
      (i.shared t).countP (fun c => c.2.params.length ≠ c.1.params.length) ∧
    codes.count "TRAIT007" =
      ((i.comparable t).flatMap fun c => c.1.paramTypes.zip c.2.paramTypes).countP
        (fun q => !(s.apply q.1).compatible q.2) ∧
    codes.count "TRAIT008" =
      (i.comparable t).countP (fun c => !(s.apply c.1.returnType).compatible c.2.returnType) ∧
    codes.count "TRAIT014" = i.methods.countP (fun p => ∀ m ∈ t.methods, m.name ≠ p.name) := by
  intro s codes
  have hfound := findings_addImpl hname hget hnew
  have hcodes : codes = ((findings t i).map Finding.code).map Code.text := by
    rw [List.map_map, ← hfound]
    rfl
  have hcount (c : Code) :
      codes.count c.text = ((findings t i).map Finding.code).count c := by
    rw [hcodes, List.count_map_of_injective _ _ Code.text_injective]
  refine ⟨i.get?_reading t, ?_, ?_, ?_, ?_, ?_, ?_⟩
  · rw [hcodes, List.map_eq_nil_iff, List.map_eq_nil_iff, findings_eq_nil_iff]
  · exact (hcount .missingMethod).trans (count_missingMethod t i)
  · exact (hcount .parameterCountMismatch).trans (count_parameterCountMismatch t i)
  · exact (hcount .parameterTypeMismatch).trans (count_parameterTypeMismatch t i)
  · exact (hcount .methodReturnMismatch).trans (count_methodReturnMismatch t i)
  · exact (hcount .methodNotInTrait).trans (count_methodNotInTrait t i)

/-- A trait for reading and writing values, which asks for one of its methods twice. -/
def codecTrait : Trait where
  name := "Codec"
  typeParams := [.bounded "T" []]
  methods :=
    [{ name := "write", params := [("value", .bounded "T" []), ("width", .int)],
        ret := some .string, origin := ⟨1⟩ },
      { name := "read", params := [("text", .string)], ret := some (.bounded "T" []),
        origin := ⟨2⟩ },
      { name := "reset", origin := ⟨3⟩ }, { name := "reset", origin := ⟨4⟩ },
      { name := "like", params := [("other", .bounded "Self" ["Codec"])], ret := some .bool,
        origin := ⟨5⟩ }]
  origin := ⟨0⟩

/-- An implementation of it that departs from it in every way. -/
def packetCodec : Implementation where
  traitName := some "Codec"
  traitArgs := [.int]
  target := .named "Packet"
  methods :=
    [{ name := "write", params := [("value", .string), ("width", .float)], ret := some .int,
        origin := ⟨11⟩ },
      { name := "read", ret := some .int, origin := ⟨12⟩ },
      { name := "like", params := [("other", .named "Packet")], ret := some .bool, origin := ⟨13⟩ },
      { name := "flush", origin := ⟨14⟩ }]
  origin := ⟨10⟩

theorem departures_reported_packetCodec :
    packetCodec.traitName = some "Codec" ∧
      (ofTraits [codecTrait]).get? "Codec" = some codecTrait ∧
      (∀ other ∈ (ofTraits [codecTrait]).implementations "Codec",
        other.target ≠ packetCodec.target) ∧
      let codes :=
        ((ofTraits [codecTrait]).addImpl packetCodec).findings.map fun f => f.toDiagnostic.code
      codes.count "TRAIT005" = 2 ∧ codes.count "TRAIT006" = 1 ∧ codes.count "TRAIT007" = 2 ∧
        codes.count "TRAIT008" = 1 ∧ codes.count "TRAIT014" = 1 := by
  have hname : packetCodec.traitName = some "Codec" := rfl
  have hget : (ofTraits [codecTrait]).get? "Codec" = some codecTrait := rfl
  have hnew : ∀ other ∈ (ofTraits [codecTrait]).implementations "Codec",
      other.target ≠ packetCodec.target := nofun
  obtain ⟨-, -, hmissing, hcount, hparams, hresults, hunknown⟩ :=
    departures_reported_exactly hname hget hnew
  exact ⟨hname, hget, hnew, hmissing.trans (by decide), hcount.trans (by decide),
    hparams.trans (by decide), hresults.trans (by decide), hunknown.trans (by decide)⟩

end Registry

end UnitAnalysis

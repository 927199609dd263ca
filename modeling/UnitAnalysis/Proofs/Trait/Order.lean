import UnitAnalysis.Proofs.Table
import UnitAnalysis.Proofs.Ty.Compatible
import UnitAnalysis.Trait.Conformance
import UnitAnalysis.Trait.Dispatch

/-!
# The order of registration

Implementations are registered one after the other, and a call takes the first one that applies.
Which registrations are accepted does not depend on their order, but what a call finds may: two
implementations of one trait can both apply to a receiver, because they are told apart by their
whole target and found by its name alone, and two implementations on their own are never compared at
all.

The main result says when the order does not matter for a call. It is just when the implementations
that apply to the receiver give the same answer, those on their own among each other and those of
each trait among each other.
-/

set_option autoImplicit false

namespace UnitAnalysis

namespace Registry

/-- The registry of a list of traits. -/
def ofTraits (traits : List Trait) : Registry :=
  traits.foldl (fun r t => (r.addTrait t).registry) {}

/-- Registers implementations in order; there is no result when one of them is refused. -/
def addImpls? (r : Registry) : List Implementation → Option Registry
  | [] => some r
  | i :: rest => if (r.addImpl i).isAccepted then (r.addImpl i).registry.addImpls? rest else none

/-! ## Registered traits -/

/-- Every trait is registered under its own name, and under that name only. -/
structure KeyedByName (r : Registry) : Prop where
  name : ∀ k t, (k, t) ∈ r.traits.entries → t.name = k
  nodup : r.traits.keys.Nodup

variable {r : Registry} {impls : List Implementation}

theorem KeyedByName.addTrait (h : r.KeyedByName) (t : Trait) :
    (r.addTrait t).registry.KeyedByName := by
  unfold Registry.addTrait
  split
  · exact h
  · refine ⟨fun k t' hmem => ?_, Table.nodup_keys_put h.nodup⟩
    rcases Table.mem_of_mem_put hmem with hold | hnew
    · exact h.name k t' hold
    · cases hnew
      rfl

theorem KeyedByName.of_traits {r r' : Registry} (h : r.KeyedByName)
    (htraits : r'.traits = r.traits) : r'.KeyedByName where
  name := htraits ▸ h.name
  nodup := htraits ▸ h.nodup

theorem keyedByName_ofTraits (traits : List Trait) : (ofTraits traits).KeyedByName := by
  unfold ofTraits
  refine List.foldlRecOn traits _ (motive := KeyedByName) ⟨?_, List.nodup_nil⟩ ?_
  · intro k t hmem
    cases hmem
  · intro r hr t _
    exact hr.addTrait t

/-! ## The lists of implementations -/

/-- Puts implementations at the end of their lists, one after the other. -/
def pushAll (r : Registry) (impls : List Implementation) : Registry :=
  impls.foldl push r

theorem traits_pushAll (r : Registry) (impls : List Implementation) :
    (r.pushAll impls).traits = r.traits := by
  unfold pushAll
  refine List.foldlRecOn impls _ (motive := fun r' : Registry => r'.traits = r.traits) rfl ?_
  intro r' hr' i _
  rw [traits_push, hr']

@[simp] theorem get?_pushAll (r : Registry) (impls : List Implementation) (name : String) :
    (r.pushAll impls).get? name = r.get? name := by
  rw [get?, traits_pushAll]
  rfl

/-- The lists of a registry are made of these implementations, in their order. -/
structure Holds (r : Registry) (impls : List Implementation) : Prop where
  implementations : ∀ trait,
    r.implementations trait = impls.filter fun i => i.traitName = some trait
  inherent : r.inherent = impls.filter fun i => i.traitName = none

theorem Holds.push (h : r.Holds impls) (i : Implementation) : (r.push i).Holds (impls ++ [i]) where
  implementations trait := by
    rw [implementations_push, h.implementations, List.filter_append]
  inherent := by
    rw [inherent_push, h.inherent, List.filter_append]

theorem Holds.pushAll {before : List Implementation} (h : r.Holds before)
    (impls : List Implementation) : (r.pushAll impls).Holds (before ++ impls) := by
  induction impls generalizing r before with
  | nil => rwa [List.append_nil]
  | cons i impls ih =>
    rw [← List.singleton_append, ← List.append_assoc]
    exact ih (h.push i)

/-- No implementation comes with a trait. -/
theorem holds_ofTraits (traits : List Trait) : (ofTraits traits).Holds [] := by
  unfold ofTraits
  refine List.foldlRecOn traits _ (motive := fun r : Registry => r.Holds []) ⟨fun _ => rfl, rfl⟩ ?_
  intro r hr t _
  unfold addTrait
  split
  · exact hr
  · exact ⟨hr.implementations, hr.inherent⟩

/-- Two registries have the same implementations in each list, in some order. -/
structure Rearranged (r r' : Registry) : Prop where
  implementations : ∀ trait, (r.implementations trait).Perm (r'.implementations trait)
  inherent : r.inherent.Perm r'.inherent

theorem Holds.rearranged {r r' : Registry} {impls impls' : List Implementation} (h : r.Holds impls)
    (h' : r'.Holds impls') (hp : impls.Perm impls') : r.Rearranged r' where
  implementations trait := by
    rw [h.implementations, h'.implementations]
    exact hp.filter _
  inherent := by
    rw [h.inherent, h'.inherent]
    exact hp.filter _

/-! ## Accepted implementations -/

/-- Two implementations can both be registered: they are not of one trait for one type. -/
def Apart (i j : Implementation) : Prop :=
  ∀ trait, i.traitName = some trait → j.traitName = some trait → i.target ≠ j.target

theorem Apart.symm {i j : Implementation} (h : Apart i j) : Apart j i :=
  fun trait hj hi heq => h trait hi hj heq.symm

/-- All of these implementations can be registered. -/
structure Admits (r : Registry) (impls : List Implementation) : Prop where
  known : ∀ i ∈ impls, ∀ trait, i.traitName = some trait → (r.get? trait).isSome
  apart : impls.Pairwise Apart

theorem Admits.perm {impls impls' : List Implementation} (h : r.Admits impls)
    (hp : impls.Perm impls') : r.Admits impls' where
  known i hi := h.known i (hp.mem_iff.2 hi)
  apart := hp.pairwise h.apart Apart.symm

/-- A registration is accepted when the trait is known and no registered implementation of the trait
is for the same type, and then it adds the implementation at the end of its list. -/
theorem addImpl_cases (r : Registry) (i : Implementation) :
    ((r.addImpl i).isAccepted = true ∧ (r.addImpl i).registry = r.push i ∧
      ∀ trait, i.traitName = some trait →
        (r.get? trait).isSome ∧ ∀ j ∈ r.implementations trait, j.target ≠ i.target) ∨
    ((r.addImpl i).isAccepted = false ∧ ∃ trait, i.traitName = some trait ∧
      (r.get? trait = none ∨ ∃ j ∈ r.implementations trait, j.target = i.target)) := by
  cases htrait : i.traitName with
  | none =>
    have hrun : r.addImpl i = ⟨true, r.push i, []⟩ := by
      simp only [addImpl, htrait]
    rw [hrun]
    exact .inl ⟨rfl, rfl, nofun⟩
  | some trait =>
    cases hget : r.get? trait with
    | none =>
      have hrun : (r.addImpl i).isAccepted = false := by simp only [addImpl, htrait, hget]
      exact .inr ⟨hrun, trait, rfl, .inl hget⟩
    | some t =>
      by_cases hdup : (r.implementations trait).any fun other => other.target = i.target
      · have hrun : (r.addImpl i).isAccepted = false := by
          simp only [addImpl, htrait, hget, hdup, if_true]
        obtain ⟨j, hj, htarget⟩ := List.any_eq_true.1 hdup
        exact .inr ⟨hrun, trait, rfl, .inr ⟨j, hj, of_decide_eq_true htarget⟩⟩
      · have hrun : r.addImpl i = ⟨true, r.push i, Conformance.findings t i⟩ := by
          simp only [addImpl, htrait, hget, hdup, Bool.false_eq_true, if_false]
        rw [hrun]
        refine .inl ⟨rfl, rfl, fun other hother => ?_⟩
        obtain rfl := Option.some.inj hother
        refine ⟨by rw [hget]; rfl, fun j hj heq => hdup ?_⟩
        exact List.any_eq_true.2 ⟨j, hj, decide_eq_true heq⟩

theorem Admits.of_traits {r r' : Registry} (h : r.Admits impls)
    (htraits : r'.traits = r.traits) : r'.Admits impls := by
  refine ⟨fun i hi trait htrait => ?_, h.apart⟩
  rw [get?, htraits]
  exact h.known i hi trait htrait

/-- An implementation is among those of its trait. -/
theorem Holds.mem_implementations_iff (h : r.Holds impls) {trait : String} {j : Implementation} :
    j ∈ r.implementations trait ↔ j ∈ impls ∧ j.traitName = some trait := by
  rw [h.implementations, List.mem_filter, decide_eq_true_eq]

/-- Whether all registrations are accepted is a matter of the implementations as a whole. -/
theorem addImpls?_eq_some_iff {r r' : Registry} {before impls : List Implementation}
    (hholds : r.Holds before) (h : r.Admits before) :
    r.addImpls? impls = some r' ↔ r' = r.pushAll impls ∧ r.Admits (before ++ impls) := by
  induction impls generalizing r before with
  | nil => simp [addImpls?, pushAll, h, eq_comm]
  | cons i rest ih =>
    simp only [addImpls?]
    rcases addImpl_cases r i with ⟨haccepted, hregistry, hadmitted⟩ |
      ⟨hrefused, trait, htrait, hwhy⟩
    · have hstep : (r.push i).Admits (before ++ [i]) := by
        refine Admits.of_traits ⟨fun j hj => ?_, List.pairwise_append.2
          ⟨h.apart, List.pairwise_singleton _ _, ?_⟩⟩ (traits_push r i)
        · rcases List.mem_append.1 hj with hold | hnew
          · exact h.known j hold
          · rw [List.mem_singleton.1 hnew]
            exact fun trait htrait => (hadmitted trait htrait).1
        · intro j hj k hk trait hname hother
          rw [List.mem_singleton.1 hk] at hother ⊢
          exact (hadmitted trait hother).2 j (hholds.mem_implementations_iff.2 ⟨hj, hname⟩)
      rw [if_pos haccepted, hregistry, ih (hholds.push i) hstep, List.append_assoc,
        List.singleton_append]
      exact and_congr_right fun _ => ⟨fun hadmits => hadmits.of_traits (traits_push r i).symm,
        fun hadmits => hadmits.of_traits (traits_push r i)⟩
    · rw [if_neg (by simp [hrefused])]
      constructor
      · intro hnone
        cases hnone
      · rintro ⟨-, hadmits⟩
        have hi : i ∈ before ++ i :: rest := by simp
        rcases hwhy with hunknown | ⟨j, hj, htarget⟩
        · have hknown := hadmits.known i hi trait htrait
          rw [hunknown] at hknown
          cases hknown
        · obtain ⟨hmem, hname⟩ := hholds.mem_implementations_iff.1 hj
          have hpair := (List.pairwise_append.1 hadmits.apart).2.2 j hmem i List.mem_cons_self
          exact absurd htarget (hpair trait hname htrait)

/-- Implementations that are accepted after a list of traits are accepted in any other order. -/
theorem addImpls?_ofTraits {traits : List Trait} :
    (ofTraits traits).addImpls? impls = some r ↔
      r = (ofTraits traits).pushAll impls ∧ (ofTraits traits).Admits impls :=
  addImpls?_eq_some_iff (holds_ofTraits traits) ⟨by simp, .nil⟩

end Registry

/-! ## What a call finds -/

/-- What an implementation answers to a call on a receiver, if it has the method. -/
def Implementation.answer (i : Implementation) (receiver : Ty) (method : String) :
    Option Signature :=
  (i.method? method).map fun s => s.forReceiver receiver

/-- What a call finds among the traits that offer a method. -/
def Resolution.ofOffers : List (String × Signature) → Resolution
  | [] => .unresolved
  | [(trait, s)] => .ofTrait trait s
  | many => .ambiguous ((many.map Prod.fst).mergeSort fun a b => decide (a ≤ b))

theorem Implementation.appliesTo_any (i : Implementation) : i.appliesTo .any = true := by
  have hname : Ty.any.nominalName? = none := rfl
  unfold appliesTo
  rw [hname]
  cases i.target.nominalName? <;> exact i.target.compatible_any

/-- A call finds the same among two lists of offers of the same traits, unless there is one offer
only and the two lists differ in it. -/
theorem Resolution.ofOffers_eq {l l' : List (String × Signature)}
    (hnames : l.map Prod.fst = l'.map Prod.fst)
    (hlone : ∀ trait s s', l = [(trait, s)] → l' = [(trait, s')] → s = s') :
    ofOffers l = ofOffers l' := by
  match l, l' with
  | [], [] => rfl
  | [(trait, s)], [(trait', s')] =>
    obtain rfl : trait = trait' := by simpa using hnames
    rw [hlone trait s s' rfl rfl]
  | first :: second :: rest, first' :: second' :: rest' => simp only [ofOffers, hnames]

theorem Resolution.ofOffers_eq_ofTrait {l : List (String × Signature)} {trait : String}
    {s : Signature} (h : ofOffers l = .ofTrait trait s) : l = [(trait, s)] := by
  match l with
  | [(trait', s')] =>
    cases h
    rfl

/-- The first member with a property has the same value in all orders, when all members with the
property have one value. -/
theorem map_find?_eq_of_perm {ι γ : Type} {l l' : List ι} (hp : l.Perm l') {p : ι → Bool}
    {f : ι → γ} (h : ∀ i ∈ l, ∀ j ∈ l, p i = true → p j = true → f i = f j) :
    (l.find? p).map f = (l'.find? p).map f := by
  cases hl : l.find? p with
  | none =>
    have hl' : l'.find? p = none :=
      List.find?_eq_none.2 fun i hi => List.find?_eq_none.1 hl i (hp.mem_iff.2 hi)
    rw [hl']
  | some i =>
    cases hl' : l'.find? p with
    | none =>
      have hi := List.find?_eq_none.1 hl' i (hp.mem_iff.1 (List.mem_of_find?_eq_some hl))
      exact absurd (List.find?_some hl) hi
    | some j =>
      have hj := hp.mem_iff.2 (List.mem_of_find?_eq_some hl')
      exact congrArg some (h i (List.mem_of_find?_eq_some hl) j hj (List.find?_some hl)
        (List.find?_some hl'))

namespace Registry

variable {r r' : Registry} {receiver : Ty} {method trait : String}

/-- The answer of the first implementation on its own that applies and has the method. -/
def inherentAnswer? (r : Registry) (receiver : Ty) (method : String) : Option Signature :=
  ((r.inherent.find? fun i => i.appliesTo receiver && (i.method? method).isSome).map
    fun i => i.answer receiver method).join

/-- The answer of the first implementation of a trait that applies, which may lack the method. -/
def traitAnswer? (r : Registry) (receiver : Ty) (trait method : String) :
    Option (Option Signature) :=
  ((r.implementations trait).find? fun i => i.appliesTo receiver).map
    fun i => i.answer receiver method

/-- The traits that offer a method to a receiver, with their answers. -/
def offers (r : Registry) (receiver : Ty) (method : String) : List (String × Signature) :=
  (r.candidates receiver method).map fun c => (c.1, c.2.forReceiver receiver)

theorem map_inherentMethod? (r : Registry) (receiver : Ty) (method : String) :
    (r.inherentMethod? receiver method).map (fun s => s.forReceiver receiver) =
      r.inherentAnswer? receiver method := by
  unfold inherentMethod? inherentAnswer?
  induction r.inherent with
  | nil => rfl
  | cons i rest ih =>
    cases happlies : i.appliesTo receiver with
    | false => simpa [happlies] using ih
    | true =>
      cases hmethod : i.method? method with
      | none => simpa [happlies, hmethod] using ih
      | some s => simp [happlies, hmethod, Implementation.answer]

/-- A plain call sees nothing but the answers. -/
theorem resolveMethod_eq (r : Registry) (receiver : Ty) (method : String) :
    r.resolveMethod receiver method =
      match r.inherentAnswer? receiver method with
      | some s => .inherent s
      | none => .ofOffers (r.offers receiver method) := by
  rw [← map_inherentMethod?]
  unfold resolveMethod offers
  cases r.inherentMethod? receiver method with
  | some s => rfl
  | none =>
    simp only [Option.map_none]
    match r.candidates receiver method with
    | [] => rfl
    | [(trait, s)] => rfl
    | first :: second :: rest =>
      simp only [Resolution.ofOffers, List.map_cons, List.map_map, Function.comp_def]

/-- A qualified call sees nothing but the trait and the first answer. -/
theorem resolveQualified_eq (r : Registry) (receiver : Ty) (trait method : String) :
    r.resolveQualified receiver trait method =
      match r.get? trait with
      | none => .error (.unknownTrait trait)
      | some t =>
        match t.method? method with
        | none => .error (.traitLacksMethod trait method)
        | some declared =>
          if isGranted receiver trait then .ok (declared.forReceiver receiver)
          else
            match r.traitAnswer? receiver trait method with
            | none => .error (.notImplemented receiver trait)
            | some (some s) => .ok s
            | some none => .error (.noConcreteMethod trait method receiver) := by
  unfold resolveQualified traitAnswer? Implementation.answer
  cases (r.implementations trait).find? fun i => i.appliesTo receiver with
  | none => rfl
  | some i =>
    simp only [Option.map_some]
    cases i.method? method <;> rfl

/-- Which traits a type implements does not depend on any order. -/
theorem Rearranged.implements_eq (h : r.Rearranged r') (t : Ty) (trait : String) :
    r.implements t trait = r'.implements t trait := by
  have hany : (r.implementations trait).any (fun i => i.appliesTo t) =
      (r'.implementations trait).any fun i => i.appliesTo t := by
    rw [Bool.eq_iff_iff, List.any_eq_true, List.any_eq_true]
    simp only [(h.implementations trait).mem_iff]
  unfold implements
  split
  · rfl
  · rfl
  · exact hany

/-- The implementations that apply to a receiver give the same answer to a call: those on their own
that have the method, and those of each trait that the receiver does not have anyway. A receiver of
unknown type has all traits when it is asked by name, so there it is only a plain call that looks at
implementations, and only when a single trait offers the method. -/
structure AnswersAgree (r : Registry) (receiver : Ty) (method : String) : Prop where
  inherent : ∀ i ∈ r.inherent, ∀ j ∈ r.inherent, i.appliesTo receiver = true →
    j.appliesTo receiver = true → (i.method? method).isSome → (j.method? method).isSome →
    i.answer receiver method = j.answer receiver method
  ofTrait : ∀ trait t, r.get? trait = some t → (t.method? method).isSome →
    isGranted receiver trait = false → ∀ i ∈ r.implementations trait,
    ∀ j ∈ r.implementations trait, i.appliesTo receiver = true → j.appliesTo receiver = true →
    i.answer receiver method = j.answer receiver method
  unknown : receiver = .any → ∀ trait s t declared,
    r.resolveMethod receiver method = .ofTrait trait s → r.get? trait = some t →
    t.method? method = some declared → ∀ i ∈ r.implementations trait,
    ∀ j ∈ r.implementations trait, (i.answer receiver method).getD (declared.forReceiver receiver) =
      (j.answer receiver method).getD (declared.forReceiver receiver)

/-- Where the answers agree, all orders of the same implementations give them. -/
theorem AnswersAgree.inherentAnswer?_eq (h : r.AnswersAgree receiver method)
    (hp : r.Rearranged r') :
    r.inherentAnswer? receiver method = r'.inherentAnswer? receiver method := by
  refine congrArg Option.join (map_find?_eq_of_perm hp.inherent fun i hi j hj hpi hpj => ?_)
  rw [Bool.and_eq_true] at hpi hpj
  exact h.inherent i hi j hj hpi.1 hpj.1 hpi.2 hpj.2

theorem AnswersAgree.traitAnswer?_eq (h : r.AnswersAgree receiver method)
    (hp : r.Rearranged r') {t : Trait} (ht : r.get? trait = some t)
    (hmethod : (t.method? method).isSome) (hgranted : isGranted receiver trait = false) :
    r.traitAnswer? receiver trait method = r'.traitAnswer? receiver trait method :=
  map_find?_eq_of_perm (hp.implementations trait) (h.ofTrait trait t ht hmethod hgranted)

/-- What a trait offers is the answer of the first implementation that applies or, when that lacks
the method, what the trait itself declares. -/
theorem map_offer? (r : Registry) (receiver : Ty) (method : String) (t : Trait) :
    (r.offer? receiver method t).map (fun s => s.forReceiver receiver) =
      (t.method? method).bind fun declared =>
        (r.traitAnswer? receiver t.name method).map fun answer =>
          answer.getD (declared.forReceiver receiver) := by
  unfold offer? traitAnswer? Implementation.answer
  cases t.method? method with
  | none => rfl
  | some declared =>
    cases (r.implementations t.name).find? fun i => i.appliesTo receiver with
    | none => rfl
    | some i => cases hi : i.method? method <;> simp [hi]

/-- The traits that offer a method to a receiver that is no type parameter: those with the method
and an implementation that applies. -/
theorem offers_eq_filterMap (r : Registry) (method : String)
    (hparam : ∀ name bounds, receiver ≠ .param name bounds) :
    r.offers receiver method = r.traits.values.filterMap fun t =>
      ((r.offer? receiver method t).map fun s => s.forReceiver receiver).map fun s =>
        (t.name, s) := by
  unfold offers candidates
  split
  · next name bounds => exact absurd rfl (hparam name bounds)
  · rw [List.map_filterMap]
    simp only [Option.map_map, Function.comp_def]

theorem mem_offers_iff (hkeyed : r.KeyedByName)
    (hparam : ∀ name bounds, receiver ≠ .param name bounds) {s : Signature} :
    (trait, s) ∈ r.offers receiver method ↔
      ∃ t declared answer, r.get? trait = some t ∧ t.method? method = some declared ∧
        r.traitAnswer? receiver trait method = some answer ∧
        s = answer.getD (declared.forReceiver receiver) := by
  have hget : ∀ t, r.get? trait = some t ↔ (trait, t) ∈ r.traits.entries :=
    fun t => Table.find_eq_some_iff hkeyed.nodup
  rw [offers_eq_filterMap r method hparam, List.mem_filterMap]
  constructor
  · rintro ⟨t, hmem, hoffer⟩
    obtain ⟨⟨k, t'⟩, hentry, rfl⟩ := List.mem_map.1 hmem
    obtain rfl := hkeyed.name k t' hentry
    rw [map_offer?] at hoffer
    obtain ⟨_, hbind, hpair⟩ := Option.map_eq_some_iff.1 hoffer
    obtain ⟨rfl, rfl⟩ := Prod.mk.inj hpair
    obtain ⟨declared, hdeclared, hmap⟩ := Option.bind_eq_some_iff.1 hbind
    obtain ⟨answer, hanswer, rfl⟩ := Option.map_eq_some_iff.1 hmap
    exact ⟨t', declared, answer, (hget t').2 hentry, hdeclared, hanswer, rfl⟩
  · rintro ⟨t, declared, answer, ht, hdeclared, hanswer, rfl⟩
    have hentry := (hget t).1 ht
    obtain rfl := hkeyed.name trait t hentry
    refine ⟨t, List.mem_map.2 ⟨_, hentry, rfl⟩, ?_⟩
    rw [map_offer?, hdeclared, Option.bind_some, hanswer]
    rfl

/-- Which traits offer a method does not depend on any order. -/
theorem map_fst_offers_eq (htraits : r.traits = r'.traits) (hp : r.Rearranged r')
    (receiver : Ty) (method : String) :
    (r.offers receiver method).map Prod.fst = (r'.offers receiver method).map Prod.fst := by
  by_cases hparam : ∃ name bounds, receiver = .param name bounds
  · obtain ⟨name, bounds, rfl⟩ := hparam
    simp only [offers, candidates, get?, htraits]
  · have hne : ∀ name bounds, receiver ≠ .param name bounds :=
      fun name bounds heq => hparam ⟨name, bounds, heq⟩
    have hunit : ∀ t : Trait, (r.traitAnswer? receiver t.name method).map (fun _ => t.name) =
        (r'.traitAnswer? receiver t.name method).map fun _ => t.name := by
      intro t
      simp only [traitAnswer?, Option.map_map]
      exact map_find?_eq_of_perm (hp.implementations t.name) fun _ _ _ _ _ _ => rfl
    rw [offers_eq_filterMap r method hne, offers_eq_filterMap r' method hne, htraits,
      List.map_filterMap, List.map_filterMap]
    refine List.filterMap_congr fun t _ => ?_
    rw [map_offer?, map_offer?]
    cases t.method? method with
    | none => rfl
    | some declared => simpa [Function.comp_def] using hunit t

/-- Where the answers agree, a lone offer is the same in all orders. -/
theorem AnswersAgree.lone_offer_eq (h : r.AnswersAgree receiver method) (hkeyed : r.KeyedByName)
    (htraits : r.traits = r'.traits) (hp : r.Rearranged r') {s s' : Signature}
    (hinherent : r.inherentAnswer? receiver method = none)
    (hs : r.offers receiver method = [(trait, s)])
    (hs' : r'.offers receiver method = [(trait, s')]) : s = s' := by
  have hget : r'.get? trait = r.get? trait := by simp only [get?, htraits]
  by_cases hparam : ∃ name bounds, receiver = .param name bounds
  · obtain ⟨name, bounds, rfl⟩ := hparam
    have hsame : r.offers (.param name bounds) method = r'.offers (.param name bounds) method := by
      simp only [offers, candidates, get?, htraits]
    rw [hs, hs'] at hsame
    simpa using hsame
  · have hne : ∀ name bounds, receiver ≠ .param name bounds :=
      fun name bounds heq => hparam ⟨name, bounds, heq⟩
    have hkeyed' : r'.KeyedByName := hkeyed.of_traits htraits.symm
    obtain ⟨t, declared, answer, ht, hdeclared, hanswer, rfl⟩ :=
      (mem_offers_iff hkeyed hne).1 (hs ▸ List.mem_singleton_self _)
    obtain ⟨t', declared', answer', ht', hdeclared', hanswer', rfl⟩ :=
      (mem_offers_iff hkeyed' hne).1 (hs' ▸ List.mem_singleton_self _)
    obtain rfl : t = t' := by
      rw [hget, ht] at ht'
      exact Option.some.inj ht'
    obtain rfl : declared = declared' := Option.some.inj (hdeclared.symm.trans hdeclared')
    by_cases hany : receiver = .any
    · obtain ⟨i, hi, rfl⟩ := Option.map_eq_some_iff.1 hanswer
      obtain ⟨j, hj, rfl⟩ := Option.map_eq_some_iff.1 hanswer'
      have hresolve : r.resolveMethod receiver method =
          .ofTrait trait ((i.answer receiver method).getD (declared.forReceiver receiver)) := by
        rw [resolveMethod_eq, hinherent, hs]
        rfl
      have hmem := (hp.implementations trait).mem_iff.2 (List.mem_of_find?_eq_some hj)
      exact h.unknown hany trait _ t declared hresolve ht hdeclared i
        (List.mem_of_find?_eq_some hi) j hmem
    · have hgranted : isGranted receiver trait = false := by
        unfold isGranted
        split
        · exact absurd rfl hany
        · next name bounds => exact absurd rfl (hne name bounds)
        · rfl
      have heq := h.traitAnswer?_eq hp ht (by rw [hdeclared]; rfl) hgranted
      rw [hanswer, hanswer'] at heq
      rw [Option.some.inj heq]

theorem AnswersAgree.resolveMethod_eq (h : r.AnswersAgree receiver method) (hkeyed : r.KeyedByName)
    (htraits : r.traits = r'.traits) (hp : r.Rearranged r') :
    r.resolveMethod receiver method = r'.resolveMethod receiver method := by
  rw [Registry.resolveMethod_eq, Registry.resolveMethod_eq, ← h.inherentAnswer?_eq hp]
  cases hinherent : r.inherentAnswer? receiver method with
  | some s => rfl
  | none =>
    exact Resolution.ofOffers_eq (map_fst_offers_eq htraits hp receiver method)
      fun trait s s' hs hs' => h.lone_offer_eq hkeyed htraits hp hinherent hs hs'

/-- Registries with the same trait under a name answer calls that name it alike, if its answers are
alike wherever they are asked for. -/
theorem resolveQualified_congr (hget : r.get? trait = r'.get? trait)
    (hanswer : ∀ t, r.get? trait = some t → (t.method? method).isSome →
      isGranted receiver trait = false →
        r.traitAnswer? receiver trait method = r'.traitAnswer? receiver trait method) :
    r.resolveQualified receiver trait method = r'.resolveQualified receiver trait method := by
  rw [resolveQualified_eq, resolveQualified_eq, ← hget]
  cases ht : r.get? trait with
  | none => rfl
  | some t =>
    cases hdeclared : t.method? method with
    | none => simp only [hdeclared]
    | some declared =>
      simp only [hdeclared]
      cases hgranted : isGranted receiver trait with
      | true => rfl
      | false => rw [hanswer t ht (by rw [hdeclared]; rfl) hgranted]

theorem AnswersAgree.resolveQualified_eq (h : r.AnswersAgree receiver method)
    (htraits : r.traits = r'.traits) (hp : r.Rearranged r') (trait : String) :
    r.resolveQualified receiver trait method = r'.resolveQualified receiver trait method :=
  resolveQualified_congr (by simp only [get?, htraits]) fun _ ht => h.traitAnswer?_eq hp ht

/-! ## When the order matters -/

/-- A registry in which an implementation comes first in its list. -/
structure Leads (r' r : Registry) (i : Implementation) : Prop where
  traits : r'.traits = r.traits
  implementations : ∀ trait, i ∈ r.implementations trait →
    ∃ rest, r'.implementations trait = i :: rest
  inherent : i ∈ r.inherent → ∃ rest, r'.inherent = i :: rest

variable {i : Implementation}

theorem Leads.traitAnswer?_eq (h : r'.Leads r i)
    (hi : i ∈ r.implementations trait) (happlies : i.appliesTo receiver = true) :
    r'.traitAnswer? receiver trait method = some (i.answer receiver method) := by
  obtain ⟨rest, hrest⟩ := h.implementations trait hi
  simp only [traitAnswer?, hrest, List.find?_cons, happlies, Option.map_some]

theorem Leads.inherentAnswer?_eq (h : r'.Leads r i) (hi : i ∈ r.inherent)
    (happlies : i.appliesTo receiver = true) (hmethod : (i.method? method).isSome) :
    r'.inherentAnswer? receiver method = i.answer receiver method := by
  obtain ⟨rest, hrest⟩ := h.inherent hi
  simp only [inherentAnswer?, hrest, List.find?_cons, happlies, hmethod, Bool.and_self,
    Option.map_some, Option.join_some]

/-- Of implementations in two orders, the first one leads. -/
theorem Holds.leads {impls impls' : List Implementation} (h : r.Holds impls)
    (h' : r'.Holds (i :: impls')) (htraits : r'.traits = r.traits) : r'.Leads r i where
  traits := htraits
  implementations trait hi := by
    have htrait := (h.mem_implementations_iff.1 hi).2
    exact ⟨_, by rw [h'.implementations, List.filter_cons_of_pos (by simpa using htrait)]⟩
  inherent hi := by
    rw [h.inherent, List.mem_filter] at hi
    exact ⟨_, by rw [h'.inherent, List.filter_cons_of_pos (by simpa using hi.2)]⟩

/-- An implementation on its own that can come first without a change is the one that is found. -/
theorem Leads.resolveMethod_eq (h : r'.Leads r i) (hi : i ∈ r.inherent)
    (happlies : i.appliesTo receiver = true) (hmethod : (i.method? method).isSome)
    (hsame : r'.resolveMethod receiver method = r.resolveMethod receiver method) :
    ∃ s, i.answer receiver method = some s ∧ r.resolveMethod receiver method = .inherent s := by
  obtain ⟨s, hs⟩ := Option.isSome_iff_exists.1 hmethod
  have hanswer : i.answer receiver method = some (s.forReceiver receiver) := by
    rw [Implementation.answer, hs]
    rfl
  refine ⟨_, hanswer, ?_⟩
  rw [← hsame, Registry.resolveMethod_eq, h.inherentAnswer?_eq hi happlies hmethod, hanswer]

/-- An implementation of a trait that can come first without a change is the one that a qualified
call finds. -/
theorem Leads.resolveQualified_eq (h : r'.Leads r i)
    (hi : i ∈ r.implementations trait) (happlies : i.appliesTo receiver = true) {t : Trait}
    (ht : r.get? trait = some t) (hmethod : (t.method? method).isSome)
    (hgranted : isGranted receiver trait = false)
    (hsame : r'.resolveQualified receiver trait method =
      r.resolveQualified receiver trait method) :
    r.resolveQualified receiver trait method =
      match i.answer receiver method with
      | some s => .ok s
      | none => .error (.noConcreteMethod trait method receiver) := by
  obtain ⟨declared, hdeclared⟩ := Option.isSome_iff_exists.1 hmethod
  have hget : r'.get? trait = some t := by rwa [get?, h.traits]
  rw [← hsame, Registry.resolveQualified_eq, hget]
  simp only [hdeclared, hgranted, Bool.false_eq_true, if_false, h.traitAnswer?_eq hi happlies]
  cases i.answer receiver method <;> rfl

/-- On a receiver of unknown type, an implementation of the only trait that offers the method gives
what is found, when it can come first without a change. -/
theorem Leads.eq_answer (h : r'.Leads r i) (hkeyed : r.KeyedByName)
    (hi : i ∈ r.implementations trait) {s declared : Signature} {t : Trait}
    (hresolve : r.resolveMethod .any method = .ofTrait trait s) (ht : r.get? trait = some t)
    (hdeclared : t.method? method = some declared)
    (hsame : r'.resolveMethod .any method = r.resolveMethod .any method) :
    s = (i.answer .any method).getD (declared.forReceiver .any) := by
  have hkeyed' : r'.KeyedByName := hkeyed.of_traits h.traits
  have hget : r'.get? trait = some t := by rwa [get?, h.traits]
  have hanswer : r'.traitAnswer? .any trait method = some (i.answer .any method) :=
    h.traitAnswer?_eq hi i.appliesTo_any
  have hmem := (mem_offers_iff hkeyed' fun _ _ => Ty.noConfusion).2
    ⟨t, declared, _, hget, hdeclared, hanswer, rfl⟩
  have hlone : r'.offers .any method = [(trait, s)] := by
    apply Resolution.ofOffers_eq_ofTrait
    rw [hresolve, Registry.resolveMethod_eq] at hsame
    split at hsame
    · cases hsame
    · exact hsame
  rw [hlone, List.mem_singleton] at hmem
  exact (Prod.mk.inj hmem).2.symm

/-- When every implementation can come first without a change, those that apply give the same
answers. -/
theorem answersAgree_of_leads (hkeyed : r.KeyedByName) {impls : List Implementation}
    (hholds : r.Holds impls)
    (hsame : ∀ i ∈ impls, ∃ r' : Registry, r'.Leads r i ∧
      r'.resolveMethod receiver method = r.resolveMethod receiver method ∧
      ∀ trait, r'.resolveQualified receiver trait method =
        r.resolveQualified receiver trait method) : r.AnswersAgree receiver method where
  inherent i hi j hj hpi hpj hmi hmj := by
    have hmem {k : Implementation} (hk : k ∈ r.inherent) : k ∈ impls :=
      List.mem_of_mem_filter (hholds.inherent ▸ hk)
    obtain ⟨_, hleads, hplain, -⟩ := hsame i (hmem hi)
    obtain ⟨_, hleads', hplain', -⟩ := hsame j (hmem hj)
    obtain ⟨s, hs, hresolve⟩ := hleads.resolveMethod_eq hi hpi hmi hplain
    obtain ⟨s', hs', hresolve'⟩ := hleads'.resolveMethod_eq hj hpj hmj hplain'
    rw [hresolve] at hresolve'
    cases hresolve'
    rw [hs, hs']
  ofTrait trait t ht hmethod hgranted i hi j hj hpi hpj := by
    obtain ⟨_, hleads, -, hqualified⟩ := hsame i (hholds.mem_implementations_iff.1 hi).1
    obtain ⟨_, hleads', -, hqualified'⟩ := hsame j (hholds.mem_implementations_iff.1 hj).1
    have hfirst := hleads.resolveQualified_eq hi hpi ht hmethod hgranted (hqualified trait)
    have hsecond := hleads'.resolveQualified_eq hj hpj ht hmethod hgranted (hqualified' trait)
    have hboth := hfirst.symm.trans hsecond
    cases hi' : i.answer receiver method <;> cases hj' : j.answer receiver method <;>
      simp_all
  unknown hany trait s t declared hresolve ht hdeclared i hi j hj := by
    subst hany
    obtain ⟨_, hleads, hplain, -⟩ := hsame i (hholds.mem_implementations_iff.1 hi).1
    obtain ⟨_, hleads', hplain', -⟩ := hsame j (hholds.mem_implementations_iff.1 hj).1
    rw [← hleads.eq_answer hkeyed hi hresolve ht hdeclared hplain,
      ← hleads'.eq_answer hkeyed hj hresolve ht hdeclared hplain']

/-- Accepted implementations are accepted in every other order, and a call on a receiver finds the
same in all orders just when the implementations that apply to the receiver give the same answers.
-/
theorem order_irrelevant_iff_answersAgree {traits : List Trait} {impls : List Implementation}
    {r : Registry} (h : (ofTraits traits).addImpls? impls = some r) (receiver : Ty)
    (method : String) :
    (∀ impls', impls'.Perm impls → ((ofTraits traits).addImpls? impls').isSome) ∧
    ((∀ impls' r', impls'.Perm impls → (ofTraits traits).addImpls? impls' = some r' →
        r'.resolveMethod receiver method = r.resolveMethod receiver method ∧
        ∀ trait, r'.resolveQualified receiver trait method =
            r.resolveQualified receiver trait method ∧
          r'.implements receiver trait = r.implements receiver trait) ↔
      r.AnswersAgree receiver method) := by
  obtain ⟨rfl, hadmits⟩ := addImpls?_ofTraits.1 h
  have htraits : ∀ impls', ((ofTraits traits).pushAll impls').traits = (ofTraits traits).traits :=
    traits_pushAll (ofTraits traits)
  have hkeyed : ((ofTraits traits).pushAll impls).KeyedByName :=
    (keyedByName_ofTraits traits).of_traits (htraits impls)
  have hholds : ∀ impls', ((ofTraits traits).pushAll impls').Holds impls' :=
    (holds_ofTraits traits).pushAll
  have haccepted : ∀ impls', impls'.Perm impls → (ofTraits traits).addImpls? impls' =
      some ((ofTraits traits).pushAll impls') :=
    fun impls' hp => addImpls?_ofTraits.2 ⟨rfl, hadmits.perm hp.symm⟩
  refine ⟨fun impls' hp => by rw [haccepted impls' hp]; rfl, fun hsame => ?_, fun hagree => ?_⟩
  · refine answersAgree_of_leads hkeyed (hholds impls) fun i hi => ?_
    have hfront : (i :: impls.erase i).Perm impls := (List.perm_cons_erase hi).symm
    obtain ⟨hplain, hrest⟩ := hsame _ _ hfront (haccepted _ hfront)
    exact ⟨_, (hholds impls).leads (hholds _) ((htraits _).trans (htraits impls).symm), hplain,
      fun trait => (hrest trait).1⟩
  · intro impls' r' hp hr'
    obtain ⟨rfl, -⟩ := addImpls?_ofTraits.1 hr'
    have hsame := (htraits impls).trans (htraits impls').symm
    have hperm := (hholds impls).rearranged (hholds impls') hp.symm
    refine ⟨(hagree.resolveMethod_eq hkeyed hsame hperm).symm, fun trait => ⟨?_, ?_⟩⟩
    · exact (hagree.resolveQualified_eq hsame hperm trait).symm
    · exact (hperm.implements_eq receiver trait).symm

/-- A trait for showing a value as one of another type. -/
def showTrait : Trait where
  name := "Show"
  typeParams := [.bounded "T" []]
  methods := [{ name := "show", ret := some (.bounded "T" []), origin := ⟨1⟩ }]
  origin := ⟨0⟩

/-- An implementation of it for the values of a type. -/
def showAs (target shown : Ty) : Implementation where
  traitName := some "Show"
  traitArgs := [shown]
  target := target
  methods := [{ name := "show", ret := some shown, origin := ⟨3⟩ }]
  origin := ⟨2⟩

/-- Implementations for two kinds of lists and for counters. -/
def showImpls : List Implementation :=
  [showAs (.generic "List" [.string]) .string, showAs (.named "Counter") .int,
    showAs (.generic "List" [.int]) .int]

/-- All orders of these give one answer to counters, because one implementation applies to them. -/
theorem order_irrelevant_for_counters :
    ∃ r, (ofTraits [showTrait]).addImpls? showImpls = some r ∧
      ∀ impls' r', impls'.Perm showImpls → (ofTraits [showTrait]).addImpls? impls' = some r' →
        r'.resolveMethod (.named "Counter") "show" = r.resolveMethod (.named "Counter") "show" ∧
        ∀ trait, r'.resolveQualified (.named "Counter") trait "show" =
            r.resolveQualified (.named "Counter") trait "show" ∧
          r'.implements (.named "Counter") trait = r.implements (.named "Counter") trait := by
  have haccepted : (ofTraits [showTrait]).addImpls? showImpls =
      some ((ofTraits [showTrait]).pushAll showImpls) := by rfl
  have honly : ∀ i ∈ showImpls, i.appliesTo (.named "Counter") = true →
      i = showAs (.named "Counter") .int := by decide
  refine ⟨_, haccepted, (order_irrelevant_iff_answersAgree haccepted _ _).2.2 ⟨?_, ?_, ?_⟩⟩
  · intro i hi
    cases hi
  · intro trait t _ _ _ i hi j hj hpi hpj
    have hholds := (holds_ofTraits [showTrait]).pushAll showImpls
    rw [honly i (hholds.mem_implementations_iff.1 hi).1 hpi,
      honly j (hholds.mem_implementations_iff.1 hj).1 hpj]
  · intro hany
    cases hany

/-- Both implementations for lists are accepted, conform to the trait and apply to all lists, so the
one that was registered first decides what a list of numbers is shown as. -/
theorem order_decides_for_lists :
    ∃ r r', (ofTraits [showTrait]).addImpls? showImpls = some r ∧
      (ofTraits [showTrait]).addImpls? showImpls.reverse = some r' ∧
      (∀ i ∈ showImpls, Conformance.findings showTrait i = []) ∧
      r.resolveMethod (.generic "List" [.int]) "show" =
        .ofTrait "Show" { name := "show", ret := some .string, origin := ⟨3⟩ } ∧
      r'.resolveMethod (.generic "List" [.int]) "show" =
        .ofTrait "Show" { name := "show", ret := some .int, origin := ⟨3⟩ } ∧
      r.resolveQualified (.generic "List" [.int]) "Show" "show" =
        .ok { name := "show", ret := some .string, origin := ⟨3⟩ } ∧
      r'.resolveQualified (.generic "List" [.int]) "Show" "show" =
        .ok { name := "show", ret := some .int, origin := ⟨3⟩ } := by
  refine ⟨(ofTraits [showTrait]).pushAll showImpls,
    (ofTraits [showTrait]).pushAll showImpls.reverse, ?_⟩
  exact ⟨by rfl, by rfl, by decide, by rfl, by rfl, by rfl, by rfl⟩

end Registry

end UnitAnalysis

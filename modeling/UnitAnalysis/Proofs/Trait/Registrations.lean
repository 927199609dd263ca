import UnitAnalysis.Proofs.Diagnostic.Code
import UnitAnalysis.Proofs.Trait.Candidates

/-!
# Registrations, one after the other

A registration is refused or accepted as a whole. A refused one reports one problem and leaves the
registry as it was; an accepted one adds a single trait or implementation and changes nothing else
(`Registry.add_refused_or_accepted`). By induction on the registrations, the registry always holds
the first trait of each name, under that name, and implementations of known traits only, no two of
which are of one trait for one type.
-/

set_option autoImplicit false

namespace UnitAnalysis

namespace Registry

/-- The trait that is registered, if it is one. -/
def Entry.trait? : Entry → Option Trait
  | ofTrait t => some t
  | ofImpl _ => none

/-- The implementation that is registered, if it is one. -/
def Entry.impl? : Entry → Option Implementation
  | ofTrait _ => none
  | ofImpl i => some i

/-- A registration after others: whether it is accepted, the registry, and all that was found wrong
so far. -/
def register (acc : Judged Registry) (e : Entry) : Bool × Judged Registry :=
  let step := acc.1.add e
  (step.isAccepted, step.registry, acc.2 ++ step.findings)

/-- The registry after a sequence of registrations, with all that was found wrong. -/
def registerAll (entries : List Entry) : Judged Registry :=
  entries.foldl (fun acc e => (register acc e).2) ({}, [])

/-! ## One registration -/

/-- What came of a registration that was refused. -/
structure Refused (r : Registry) (g : Registration) : Prop where
  isAccepted : g.isAccepted = false
  registry : g.registry = r
  findings : ∃ f, g.findings = [f] ∧
    f.code ∈ [Code.duplicateTrait, .unknownTrait, .duplicateImpl]

/-- What came of a registration that was accepted. -/
structure Accepted (r : Registry) (e : Entry) (g : Registration) : Prop where
  isAccepted : g.isAccepted = true
  traits : g.registry.traits.entries = r.traits.entries ++ e.trait?.toList.map fun t => (t.name, t)
  implementations : ∀ trait, g.registry.implementations trait =
    r.implementations trait ++ e.impl?.toList.filter fun i => i.traitName = some trait
  inherent : g.registry.inherent =
    r.inherent ++ e.impl?.toList.filter fun i => i.traitName = none

/-- Traits. -/
theorem addTrait_refused_or_accepted (r : Registry) (t : Trait) :
    Refused r (r.addTrait t) ∨ Accepted r (.ofTrait t) (r.addTrait t) := by
  cases hget : r.get? t.name with
  | some first =>
    have hrun : r.addTrait t = ⟨false, r, [⟨.duplicateTrait t.name first.span, t.span⟩]⟩ := by
      simp only [addTrait, hget]
    rw [hrun]
    exact .inl ⟨rfl, rfl, _, rfl, List.mem_cons_self⟩
  | none =>
    rw [addTrait_of_none hget]
    exact .inr ⟨rfl, Table.put_of_find_eq_none t hget, fun _ => (List.append_nil _).symm,
      (List.append_nil _).symm⟩

/-- Implementations. -/
theorem addImpl_refused_or_accepted (r : Registry) (i : Implementation) :
    Refused r (r.addImpl i) ∨ Accepted r (.ofImpl i) (r.addImpl i) := by
  have haccepted : ∀ found, Accepted r (.ofImpl i) ⟨true, r.push i, found⟩ := fun _ =>
    ⟨rfl, by simp [Entry.trait?], r.implementations_push i, r.inherent_push i⟩
  unfold addImpl
  split
  · exact .inr (haccepted _)
  · split
    · exact .inl ⟨rfl, rfl, _, rfl, by simp⟩
    · split
      · exact .inl ⟨rfl, rfl, _, rfl, by simp⟩
      · exact .inr (haccepted _)

/-- A registration is refused or accepted as a whole. -/
theorem add_refused_or_accepted (r : Registry) (e : Entry) :
    Refused r (r.add e) ∨ Accepted r e (r.add e) := by
  cases e with
  | ofTrait t => exact r.addTrait_refused_or_accepted t
  | ofImpl i => exact r.addImpl_refused_or_accepted i

/-! ## What all registrations keep -/

/-- The implementations under the name of a trait are of that trait, which is registered, and are
for different types. Those on their own have no trait. -/
structure Ordered (r : Registry) : Prop where
  known : ∀ trait, ∀ i ∈ r.implementations trait, i.traitName = some trait ∧ (r.get? trait).isSome
  apart : ∀ trait, (r.implementations trait).Pairwise fun i j => i.target ≠ j.target
  alone : ∀ i ∈ r.inherent, i.traitName = none

/-- What a sequence of registrations leaves behind. -/
structure WellFormed (entries : List Entry) (r : Registry) : Prop extends r.Ordered where
  keyed : r.KeyedByName
  first : ∀ name, r.get? name = (entries.filterMap Entry.trait?).find? fun t => t.name = name

/-- The first trait of a name stays. -/
theorem get?_add (r : Registry) (e : Entry) (name : String) :
    (r.add e).registry.get? name =
      (r.get? name).or (e.trait?.filter fun t => t.name = name) := by
  cases e with
  | ofTrait t =>
    have hadd := get?_addTrait r t name
    by_cases hname : t.name = name <;> simpa [add, Entry.trait?, Option.filter, hname] using hadd
  | ofImpl i =>
    have htraits : (r.add (.ofImpl i)).registry.traits = r.traits := traits_addImpl r i
    simp [get?, htraits, Entry.trait?]

/-- What an accepted registration adds to the list of a trait is of that trait, which is there, and
for a type that has no implementation of it yet. -/
theorem Accepted.of_mem {r : Registry} {e : Entry} (h : Accepted r e (r.add e)) {trait : String}
    {i : Implementation} (hi : i ∈ e.impl?.toList.filter fun i => i.traitName = some trait) :
    i.traitName = some trait ∧ (r.get? trait).isSome ∧
      ∀ j ∈ r.implementations trait, j.target ≠ i.target := by
  obtain ⟨hmem, hname⟩ := List.mem_filter.1 hi
  have htrait := of_decide_eq_true hname
  cases e with
  | ofTrait t => cases hmem
  | ofImpl other =>
    obtain rfl := List.mem_singleton.1 hmem
    rcases addImpl_cases r i with ⟨-, -, hadmits⟩ | ⟨hrefused, -⟩
    · exact ⟨htrait, hadmits trait htrait⟩
    · cases h.isAccepted.symm.trans hrefused

/-- A registration keeps the implementations of every trait in order. -/
theorem Ordered.add {r : Registry} (h : r.Ordered) (e : Entry) : (r.add e).registry.Ordered := by
  rcases r.add_refused_or_accepted e with hrefused | haccepted
  · rwa [hrefused.registry]
  refine ⟨fun trait i hi => ?_, fun trait => ?_, fun i hi => ?_⟩
  · have hkept (hsome : (r.get? trait).isSome) : ((r.add e).registry.get? trait).isSome := by
      rw [get?_add, Option.isSome_or, hsome, Bool.true_or]
    rw [haccepted.implementations] at hi
    rcases List.mem_append.1 hi with hold | hnew
    · exact ⟨(h.known trait i hold).1, hkept (h.known trait i hold).2⟩
    · obtain ⟨hname, hknown, -⟩ := haccepted.of_mem hnew
      exact ⟨hname, hkept hknown⟩
  · rw [haccepted.implementations]
    refine List.pairwise_append.2
      ⟨h.apart trait, ?_, fun j hj i hi => (haccepted.of_mem hi).2.2 j hj⟩
    cases e with
    | ofTrait t => exact .nil
    | ofImpl i => exact (List.pairwise_singleton _ _).filter _
  · rw [haccepted.inherent] at hi
    rcases List.mem_append.1 hi with hold | hnew
    · exact h.alone i hold
    · exact of_decide_eq_true (List.mem_filter.1 hnew).2

variable (entries : List Entry)

/-- The registry of all entries. -/
theorem registerAll_fst : (registerAll entries).1 = ofEntries entries := by
  have hfold : ∀ acc : Judged Registry,
      (entries.foldl (fun acc e => (register acc e).2) acc).1 =
        entries.foldl (fun r e => (r.add e).registry) acc.1 := by
    induction entries with
    | nil => exact fun _ => rfl
    | cons e entries ih => exact fun acc => ih (register acc e).2
  exact hfold ({}, [])

/-- It is ordered. -/
theorem ordered_ofEntries : (ofEntries entries).Ordered := by
  unfold ofEntries
  refine List.foldlRecOn entries _ (motive := Ordered) ?_ ?_
  · exact ⟨fun _ _ => nofun, fun _ => .nil, nofun⟩
  · intro r hr e _
    exact hr.add e

/-- The first trait of a name is the one that is registered, whatever comes in between. -/
theorem get?_ofEntries (name : String) :
    (ofEntries entries).get? name =
      (entries.filterMap Entry.trait?).find? fun t => t.name = name := by
  have hfold : ∀ r : Registry, (entries.foldl (fun r e => (r.add e).registry) r).get? name =
      (r.get? name).or ((entries.filterMap Entry.trait?).find? fun t => t.name = name) := by
    induction entries with
    | nil =>
      intro r
      simp
    | cons e entries ih =>
      intro r
      rw [List.foldl_cons, ih, get?_add, Option.or_assoc]
      cases htrait : e.trait? with
      | none => simp [htrait]
      | some t =>
        by_cases hname : t.name = name <;> simp [htrait, hname, Option.filter]
  exact hfold {}

/-- It is well formed. -/
theorem wellFormed_ofEntries : (ofEntries entries).WellFormed entries where
  toOrdered := ordered_ofEntries entries
  keyed := keyedByName_ofEntries entries
  first := get?_ofEntries entries

/-- The registry of a unit is made by one such sequence, the traits before the implementations. -/
theorem wellFormed_ofLists (traits : List Trait) (impls : List Implementation) :
    (ofLists traits impls).1.WellFormed (traits.map .ofTrait ++ impls.map .ofImpl) := by
  have hsequence : ofLists traits impls =
      registerAll (traits.map .ofTrait ++ impls.map .ofImpl) := by
    unfold ofLists registerAll
    rw [List.foldl_append, List.foldl_map, List.foldl_map]
    rfl
  rw [hsequence, registerAll_fst]
  exact wellFormed_ofEntries _

/-- **Registrations keep the registry well formed and are refused atomically.** After any sequence
of registrations, every trait stands under its own name and is the first one that was registered
with it, every implementation under a trait names that trait, which is registered, no two of them
have one target, and those on their own name no trait. Whatever is registered next: if it is
refused, one diagnostic is appended and the registry stays as it was; if it is accepted, the trait
or implementation is added at the end of its list and everything else stays as it was. -/
theorem registerAll_wellFormed_and_atomic (entries : List Entry) (e : Entry) :
    let before := registerAll entries
    let isAccepted := (register before e).1
    let after := (register before e).2
    before.1.WellFormed entries ∧
    (isAccepted = false → after.1 = before.1 ∧ ∃ f : Finding, after.2 = before.2 ++ [f] ∧
      f.toDiagnostic.code ∈ ["TRAIT001", "TRAIT004", "TRAIT015"]) ∧
    (isAccepted = true →
      after.1.traits.entries =
        before.1.traits.entries ++ e.trait?.toList.map (fun t => (t.name, t)) ∧
      (∀ trait, after.1.implementations trait =
        before.1.implementations trait ++
          e.impl?.toList.filter fun i => i.traitName = some trait) ∧
      after.1.inherent =
        before.1.inherent ++ e.impl?.toList.filter fun i => i.traitName = none) := by
  intro before isAccepted after
  refine ⟨?_, fun hrefused => ?_, fun haccepted => ?_⟩
  · have hfst : before.1 = ofEntries entries := registerAll_fst entries
    rw [hfst]
    exact wellFormed_ofEntries entries
  · rcases before.1.add_refused_or_accepted e with h | h
    · obtain ⟨f, hf, hcode⟩ := h.findings
      refine ⟨h.registry, f, congrArg (before.2 ++ ·) hf, ?_⟩
      exact List.mem_map_of_mem (f := Code.text) hcode
    · cases h.isAccepted.symm.trans hrefused
  · rcases before.1.add_refused_or_accepted e with h | h
    · cases h.isAccepted.symm.trans haccepted
    · exact ⟨h.traits, h.implementations, h.inherent⟩

end Registry

end UnitAnalysis

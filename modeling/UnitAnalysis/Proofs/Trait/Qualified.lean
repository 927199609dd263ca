import Mathlib.Data.List.Induction
import UnitAnalysis.Proofs.Trait.Departures

/-!
# Plain and qualified calls

Someone whose plain call `receiver.method()` is ambiguous is told to write
`receiver.Trait::method()` instead. The two kinds of calls search on their own: a plain call asks
every trait for an offer, and falls back on the signature of the trait where an implementation lacks
the method, while a qualified call asks one trait only, and reports such an implementation.

The main result says that these are the only differences. A qualified call of a trait that makes an
offer finds what was offered or reports that the implementation lacks the method, and then a missing
method was reported when an implementation of that trait was registered.
-/

set_option autoImplicit false

namespace UnitAnalysis

namespace Registry

/-- In a run of registrations, one of an implementation of a trait reported a missing method. -/
def ReportedMissing (entries : List Entry) (trait : String) : Prop :=
  ∃ before i after, entries = before ++ .ofImpl i :: after ∧ i.traitName = some trait ∧
    "TRAIT005" ∈ ((ofEntries before).addImpl i).findings.map fun f => f.toDiagnostic.code

/-! ## Implementations and their registration -/

/-- The last registration. -/
theorem ofEntries_append_singleton (entries : List Entry) (e : Entry) :
    ofEntries (entries ++ [e]) = ((ofEntries entries).add e).registry := by
  simp [ofEntries]

/-- An implementation that is there was accepted when it came. -/
theorem exists_accepted_of_mem {entries : List Entry} {i : Implementation}
    {trait : String} (h : i ∈ (ofEntries entries).implementations trait) :
    ∃ before after, entries = before ++ .ofImpl i :: after ∧
      ((ofEntries before).addImpl i).isAccepted = true := by
  induction entries using List.reverseRecOn with
  | nil => cases h
  | append_singleton entries e ih =>
    have hearlier (hold : i ∈ (ofEntries entries).implementations trait) :
        ∃ before after, entries ++ [e] = before ++ .ofImpl i :: after ∧
          ((ofEntries before).addImpl i).isAccepted = true := by
      obtain ⟨before, after, heq, haccepted⟩ := ih hold
      exact ⟨before, after ++ [e], by simp [heq], haccepted⟩
    rw [ofEntries_append_singleton] at h
    rcases (ofEntries entries).add_refused_or_accepted e with hrefused | haccepted
    · rw [hrefused.registry] at h
      exact hearlier h
    · rw [haccepted.implementations] at h
      rcases List.mem_append.1 h with hold | hnew
      · exact hearlier hold
      · cases e with
        | ofTrait t => cases hnew
        | ofImpl j =>
          obtain rfl : i = j := List.mem_singleton.1 (List.mem_of_mem_filter hnew)
          exact ⟨entries, [], rfl, haccepted.isAccepted⟩

/-- A trait that is there stays there. -/
theorem get?_ofEntries_append {before : List Entry} {trait : String} {t : Trait}
    (h : (ofEntries before).get? trait = some t) (after : List Entry) :
    (ofEntries (before ++ after)).get? trait = some t := by
  rw [get?_ofEntries] at h ⊢
  rw [List.filterMap_append, List.find?_append, h]
  rfl

/-- An implementation that lacks a method of its trait was reported for it. -/
theorem reportedMissing_of_lacks {entries : List Entry} {i : Implementation} {trait method : String}
    {t : Trait} (hi : i ∈ (ofEntries entries).implementations trait)
    (ht : (ofEntries entries).get? trait = some t) (hdeclared : (t.method? method).isSome)
    (hlacks : i.method? method = none) : ReportedMissing entries trait := by
  have htrait : i.traitName = some trait := ((wellFormed_ofEntries entries).known trait i hi).1
  obtain ⟨before, after, heq, haccepted⟩ := exists_accepted_of_mem hi
  refine ⟨before, i, after, heq, htrait, ?_⟩
  rcases (ofEntries before).addImpl_cases i with ⟨-, -, hadmits⟩ | ⟨hrefused, -⟩
  · obtain ⟨hknown, hnew⟩ := hadmits trait htrait
    obtain ⟨first, hfirst⟩ := Option.isSome_iff_exists.1 hknown
    have hlater := get?_ofEntries_append hfirst (.ofImpl i :: after)
    obtain rfl : t = first := by
      rw [← heq, ht] at hlater
      exact Option.some.inj hlater
    have hmissing : Code.missingMethod ∈ (Conformance.findings t i).map Finding.code := by
      rw [← List.count_pos_iff, Conformance.count_missingMethod, List.countP_pos_iff]
      obtain ⟨m, hm⟩ := Option.isSome_iff_exists.1 hdeclared
      have hmname : m.name = method :=
        of_decide_eq_true (List.find?_some (p := fun s : Signature => s.name = method) hm)
      refine ⟨m, List.mem_of_find?_eq_some hm, decide_eq_true ?_⟩
      rw [hmname]
      exact Signature.ofName?_eq_none_iff.1 hlacks
    rw [findings_addImpl htrait hfirst hnew]
    have htext := List.mem_map_of_mem (f := Code.text) hmissing
    rwa [List.map_map] at htext
  · rw [haccepted] at hrefused
    cases hrefused

/-! ## What is offered and what is found -/

/-- A trait that makes an offer to a plain call is found by a qualified one, with the same
signature, unless the implementation lacks the method. -/
theorem resolveQualified_of_mem_offers {r : Registry} (hkeyed : r.KeyedByName) {receiver : Ty}
    (hknown : receiver ≠ .any) {trait method : String} {s : Signature}
    (h : (trait, s) ∈ r.offers receiver method) :
    r.resolveQualified receiver trait method = .ok s ∨
      r.resolveQualified receiver trait method =
        .error (.noConcreteMethod trait method receiver) ∧
      ∃ t i, r.get? trait = some t ∧ (t.method? method).isSome ∧ i ∈ r.implementations trait ∧
        i.method? method = none := by
  rw [resolveQualified_eq]
  by_cases hparam : ∃ name bounds, receiver = .param name bounds
  · obtain ⟨name, bounds, rfl⟩ := hparam
    obtain ⟨hbound, t, declared, ht, hdeclared, rfl⟩ := mem_offers_param_iff.1 h
    have hgranted : isGranted (.param name bounds) trait = true := decide_eq_true hbound
    left
    simp only [ht, hdeclared, hgranted, if_true]
  · have hne : ∀ name bounds, receiver ≠ .param name bounds :=
      fun name bounds heq => hparam ⟨name, bounds, heq⟩
    have hgranted : isGranted receiver trait = false := by
      unfold isGranted
      split
      · exact absurd rfl hknown
      · next name bounds => exact absurd rfl (hne name bounds)
      · rfl
    obtain ⟨t, declared, answer, ht, hdeclared, hanswer, rfl⟩ := (mem_offers_iff hkeyed hne).1 h
    simp only [ht, hdeclared, hgranted, Bool.false_eq_true, if_false, hanswer]
    cases answer with
    | some s => exact .inl rfl
    | none =>
      obtain ⟨i, hi, hlacks⟩ := Option.map_eq_some_iff.1 hanswer
      refine .inr ⟨rfl, t, i, rfl, by rw [hdeclared]; rfl, List.mem_of_find?_eq_some hi, ?_⟩
      exact Option.map_eq_none_iff.1 hlacks

/-- **Qualified and plain calls agree.** After any sequence of registrations, in whatever order the
table shows the traits, and on every receiver of known type: when a plain call finds the method of a
trait, a qualified call of that trait finds the same signature without a report, or finds nothing
and reports only that the implementation lacks the method, which was reported before when an
implementation of the trait was registered. When a plain call is ambiguous, a qualified call of each
of the traits gets as far as an implementation. Whatever the receiver, a qualified call that finds
nothing makes one report, and one that finds a signature makes none. -/
theorem qualified_calls_agree_with_plain_calls (entries : List Entry) (traits : Table String Trait)
    (horder : traits.entries.Perm (ofEntries entries).traits.entries) (receiver : Ty)
    (method : String) (span : Span) :
    let r : Registry := { ofEntries entries with traits }
    let qualified := fun trait => r.qualifiedOutcome receiver trait method span
    (receiver ≠ .any →
      (∀ trait s, r.resolveMethod receiver method = .ofTrait trait s →
        qualified trait = (some s, []) ∨
        (∃ f, qualified trait = (none, [f]) ∧ f.toDiagnostic.code = "TRAIT012") ∧
          ReportedMissing entries trait) ∧
      (∀ names, r.resolveMethod receiver method = .ambiguous names → ∀ trait ∈ names,
        (∃ s, qualified trait = (some s, [])) ∨
        ∃ f, qualified trait = (none, [f]) ∧ f.toDiagnostic.code = "TRAIT012")) ∧
    ∀ trait, (∃ f, qualified trait = (none, [f])) ∨ ∃ s, qualified trait = (some s, []) := by
  intro r qualified
  have hkeyed : r.KeyedByName := (keyedByName_ofEntries entries).reorder horder
  have hget : ∀ trait, r.get? trait = (ofEntries entries).get? trait :=
    (keyedByName_ofEntries entries).get?_reorder horder
  -- a lone offer and one of several are treated alike: both are offers
  have hoffer (hknown : receiver ≠ .any) {trait : String} {s : Signature}
      (h : (trait, s) ∈ r.offers receiver method) :
      qualified trait = (some s, []) ∨
        (∃ f, qualified trait = (none, [f]) ∧ f.toDiagnostic.code = "TRAIT012") ∧
          ReportedMissing entries trait := by
    rcases resolveQualified_of_mem_offers hkeyed hknown h with
      hfound | ⟨hlacking, t, i, ht, hdeclared, hi, hlacks⟩
    · left
      simp only [qualified, qualifiedOutcome, hfound]
    · right
      refine ⟨⟨⟨.noConcreteMethod trait method receiver, span⟩, ?_, rfl⟩, ?_⟩
      · simp only [qualified, qualifiedOutcome, hlacking]
      · rw [hget] at ht
        exact reportedMissing_of_lacks hi ht hdeclared hlacks
  refine ⟨fun hknown => ⟨fun trait s hplain => ?_, fun names hplain trait htrait => ?_⟩, ?_⟩
  · rw [resolveMethod_eq] at hplain
    split at hplain
    · cases hplain
    · have hlone := Resolution.ofOffers_eq_ofTrait hplain
      exact hoffer hknown (hlone ▸ List.mem_singleton_self _)
  · rw [resolveMethod_eq] at hplain
    split at hplain
    · cases hplain
    · obtain ⟨-, rfl⟩ := Resolution.ofOffers_eq_ambiguous_iff.1 hplain
      obtain ⟨⟨_, s⟩, hmem, rfl⟩ := List.mem_map.1 (List.mem_mergeSort.1 htrait)
      exact (hoffer hknown hmem).imp (fun h => ⟨s, h⟩) fun h => h.1
  · intro trait
    simp only [qualified, qualifiedOutcome]
    cases r.resolveQualified receiver trait method with
    | ok s => exact .inr ⟨s, rfl⟩
    | error problem => exact .inl ⟨_, rfl⟩

/-- Calls on packets, whose codec lacks the method `reset` and has the method `like`. -/
theorem qualified_calls_agree_packetCodec :
    let entries := [Entry.ofTrait codecTrait, .ofImpl packetCodec]
    let r := ofEntries entries
    r.traits.entries.Perm r.traits.entries ∧ Ty.named "Packet" ≠ .any ∧
      r.resolveMethod (.named "Packet") "reset" =
        .ofTrait "Codec" { name := "reset", origin := ⟨3⟩ } ∧
      r.qualifiedOutcome (.named "Packet") "Codec" "reset" {} =
        (none, [⟨.noConcreteMethod "Codec" "reset" (.named "Packet"), {}⟩]) ∧
      ReportedMissing entries "Codec" ∧
      ∀ s, r.resolveMethod (.named "Packet") "like" = .ofTrait "Codec" s →
        r.qualifiedOutcome (.named "Packet") "Codec" "like" {} = (some s, []) := by
  intro entries r
  have hknown : Ty.named "Packet" ≠ .any := nofun
  have hplain : r.resolveMethod (.named "Packet") "reset" =
      .ofTrait "Codec" { name := "reset", origin := ⟨3⟩ } := by rfl
  have hlacking : r.qualifiedOutcome (.named "Packet") "Codec" "reset" {} =
      (none, [⟨.noConcreteMethod "Codec" "reset" (.named "Packet"), {}⟩]) := by rfl
  refine ⟨.refl _, hknown, hplain, hlacking, ?_, fun s hlike => ?_⟩
  · have hagree := qualified_calls_agree_with_plain_calls entries r.traits (.refl _)
      (.named "Packet") "reset" {}
    rcases (hagree.1 hknown).1 "Codec" _ hplain with hfound | ⟨-, hreported⟩
    · cases hlacking.symm.trans hfound
    · exact hreported
  · have hagree := qualified_calls_agree_with_plain_calls entries r.traits (.refl _)
      (.named "Packet") "like" {}
    rcases (hagree.1 hknown).1 "Codec" s hlike with hfound | ⟨⟨f, hnone, -⟩, -⟩
    · exact hfound
    · cases hnone

end Registry

end UnitAnalysis

import Mathlib.Data.List.Pairwise
import UnitAnalysis.Proofs.Trait.Order

/-!
# Registering everything in another order

Traits of different names are all accepted, and of implementations that never apply to the same
values all are accepted whose trait is there. So the order in which they come decides neither what
is registered (`ofLists_permuted`) nor, on a receiver of known type, what a call finds
(`Permuted.sameAnswers`).
-/

set_option autoImplicit false

namespace UnitAnalysis

/-- Two implementations apply to the same values of some known type. To values of unknown type every
implementation applies. -/
def Implementation.Overlap (i j : Implementation) : Prop :=
  ∃ receiver, receiver ≠ Ty.any ∧ i.appliesTo receiver = true ∧ j.appliesTo receiver = true

theorem Implementation.Overlap.symm {i j : Implementation} (h : i.Overlap j) : j.Overlap i := by
  obtain ⟨receiver, hknown, hi, hj⟩ := h
  exact ⟨receiver, hknown, hj, hi⟩

/-- An implementation applies to values of its own target, and one for `Any` to all values. -/
theorem Implementation.overlap_of_target_eq {i j : Implementation} (h : i.target = j.target) :
    i.Overlap j := by
  have hself : ∀ k : Implementation, k.appliesTo k.target = true := by
    intro k
    unfold appliesTo
    cases k.target.nominalName? with
    | none => exact k.target.compatible_refl
    | some name => exact beq_self_eq_true name
  by_cases hany : i.target = .any
  · have hall : ∀ k : Implementation, k.target = .any → k.appliesTo .int = true := by
      intro k hk
      unfold appliesTo
      rw [hk]
      exact Ty.any_compatible _
    exact ⟨.int, nofun, hall i hany, hall j (h ▸ hany)⟩
  · exact ⟨i.target, hany, hself i, h ▸ hself j⟩

/-- Implementations for types of different names have no receiver in common. -/
theorem Implementation.not_overlap_of_named {i j : Implementation} {m n : String}
    (hi : i.target = .named m) (hj : j.target = .named n) (hne : m ≠ n) : ¬ i.Overlap j := by
  rintro ⟨receiver, hknown, happlies, happlies'⟩
  have hname : ∀ {k : Implementation} {name : String}, k.target = .named name →
      k.appliesTo receiver = true → name = receiver.nominalName?.getD receiver.name := by
    intro k name hk happlies
    unfold appliesTo at happlies
    rw [hk] at happlies
    cases receiver with
    | prim p =>
      cases p with
      | any => exact absurd rfl hknown
      | _ => exact eq_of_beq happlies
    | _ => exact eq_of_beq happlies
  exact hne ((hname hi happlies).trans (hname hj happlies').symm)

namespace Registry

/-- No call on a receiver of known type has a choice between two of the implementations: those of a
registered trait do not overlap, and those on their own that do have no method in common. -/
structure Unambiguous (r : Registry) (impls : List Implementation) : Prop where
  ofTrait : ∀ trait t, r.get? trait = some t →
    (impls.filter fun i => i.traitName = some trait).Pairwise fun i j => ¬ i.Overlap j
  inherent : (impls.filter fun i => i.traitName = none).Pairwise fun i j =>
    i.Overlap j → ∀ method, ¬ ((i.method? method).isSome ∧ (j.method? method).isSome)

theorem Unambiguous.perm {r r' : Registry} {impls impls' : List Implementation}
    (h : r.Unambiguous impls) (hget : ∀ trait, r.get? trait = r'.get? trait)
    (hp : impls.Perm impls') : r'.Unambiguous impls' where
  ofTrait trait t ht := (hp.filter _).pairwise (h.ofTrait trait t (hget trait ▸ ht))
    fun hij hji => hij hji.symm
  inherent := (hp.filter _).pairwise h.inherent
    fun hij hji method hboth => hij hji.symm method ⟨hboth.2, hboth.1⟩

variable {impls : List Implementation} {r : Registry} {traits : List Trait}

/-- Implementations for types of different names leave no choice. -/
theorem unambiguous_of_named (r : Registry) {names : List String}
    (htargets : impls.map Implementation.target = names.map Ty.named) (hnodup : names.Nodup) :
    r.Unambiguous impls := by
  have hdiffer : (impls.map Implementation.target).Pairwise fun s t =>
      ∃ m n, s = Ty.named m ∧ t = Ty.named n ∧ m ≠ n := by
    rw [htargets, List.pairwise_map]
    exact hnodup.imp fun hne => ⟨_, _, rfl, rfl, hne⟩
  have hapart : impls.Pairwise fun i j => ¬ i.Overlap j := by
    refine (List.pairwise_map.1 hdiffer).imp ?_
    rintro i j ⟨m, n, hi, hj, hne⟩
    exact Implementation.not_overlap_of_named hi hj hne
  exact ⟨fun _ _ _ => hapart.filter _, (hapart.filter _).imp fun hnot hoverlap =>
    absurd hoverlap hnot⟩

/-! ## Registered traits -/

theorem get?_addTrait (r : Registry) (t : Trait) (name : String) :
    (r.addTrait t).registry.get? name =
      (r.get? name).or (if t.name = name then some t else none) := by
  unfold addTrait
  by_cases hname : t.name = name
  · subst hname
    cases ht : r.get? t.name with
    | some first => simp [ht]
    | none =>
      simp only [Option.none_or, if_true]
      exact Table.get?_insert_self _ _ _
  · cases ht : r.get? t.name with
    | some first => simp [hname]
    | none =>
      rw [if_neg hname, Option.or_none]
      exact Table.get?_insert_of_ne _ hname _

/-- The first trait of a name is the one that is registered. -/
theorem get?_ofTraits (traits : List Trait) (name : String) :
    (ofTraits traits).get? name = traits.find? fun t => t.name = name := by
  have hfold : ∀ r : Registry,
      (traits.foldl (fun r t => (r.addTrait t).registry) r).get? name =
        (r.get? name).or (traits.find? fun t => t.name = name) := by
    induction traits with
    | nil => exact fun r => (Option.or_none).symm
    | cons t traits ih =>
      intro r
      rw [List.foldl_cons, ih, get?_addTrait, Option.or_assoc]
      by_cases hname : t.name = name <;> simp [hname]
  exact hfold {}

/-- Where names differ, the order of traits does not decide what is found under a name. -/
theorem get?_ofTraits_perm {traits traits' : List Trait} (hp : traits.Perm traits')
    (hnodup : (traits.map Trait.name).Nodup) (name : String) :
    (ofTraits traits).get? name = (ofTraits traits').get? name := by
  rw [get?_ofTraits, get?_ofTraits]
  have hsame := map_find?_eq_of_perm hp (p := fun t => decide (t.name = name)) (f := id)
    fun t ht t' ht' hname hname' => List.inj_on_of_nodup_map hnodup ht ht'
      ((of_decide_eq_true hname).trans (of_decide_eq_true hname').symm)
  simpa using hsame

/-- What was found wrong stays on the list. -/
theorem subset_foldl_findings {ι : Type} (step : Registry → ι → Registration) (steps : List ι)
    (acc : Judged Registry) :
    acc.2 ⊆ (steps.foldl (fun (acc : Judged Registry) a =>
      ((step acc.1 a).registry, acc.2 ++ (step acc.1 a).findings)) acc).2 := by
  induction steps generalizing acc with
  | nil => exact List.Subset.refl _
  | cons a steps ih => exact fun f hf => ih _ (List.mem_append_left _ hf)

theorem addTrait_of_none {t : Trait} (h : r.get? t.name = none) :
    r.addTrait t =
      ⟨true, { r with traits := r.traits.insert t.name t }, methodFindings t.name [] t.methods⟩ := by
  simp only [addTrait, h]

/-- Traits of different names are all accepted. -/
theorem foldl_addTrait (r : Registry) (found : List Finding)
    (hnew : ∀ t ∈ traits, r.get? t.name = none) (hnodup : (traits.map Trait.name).Nodup) :
    traits.foldl (fun (acc : Judged Registry) t =>
        ((acc.1.addTrait t).registry, acc.2 ++ (acc.1.addTrait t).findings)) (r, found) =
      (traits.foldl (fun r t => (r.addTrait t).registry) r,
        found ++ traits.flatMap fun t => methodFindings t.name [] t.methods) := by
  induction traits generalizing r found with
  | nil => simp
  | cons t traits ih =>
    obtain ⟨ht, hrest⟩ := List.nodup_cons.1 hnodup
    have hfree := hnew t List.mem_cons_self
    have hnext : ∀ t' ∈ traits, (r.addTrait t).registry.get? t'.name = none := by
      intro t' ht'
      have hne : t.name ≠ t'.name := fun heq => ht (heq ▸ List.mem_map_of_mem ht')
      rw [get?_addTrait, hnew t' (List.mem_cons_of_mem _ ht'), if_neg hne]
      rfl
    rw [List.foldl_cons, List.foldl_cons, ih _ _ hnext hrest, List.flatMap_cons,
      ← List.append_assoc]
    simp only [addTrait_of_none hfree]

/-- Traits of which none is refused have different names. -/
theorem nodup_of_foldl_addTrait (r : Registry) (found : List Finding)
    (h : ∀ f ∈ (traits.foldl (fun (acc : Judged Registry) t =>
        ((acc.1.addTrait t).registry, acc.2 ++ (acc.1.addTrait t).findings)) (r, found)).2,
      f.problem.code ≠ .duplicateTrait) :
    (∀ t ∈ traits, r.get? t.name = none) ∧ (traits.map Trait.name).Nodup := by
  induction traits generalizing r found with
  | nil => simp
  | cons t traits ih =>
    rw [List.foldl_cons] at h
    obtain ⟨hrest, hnodup⟩ := ih _ _ h
    have hfree : r.get? t.name = none := by
      cases ht : r.get? t.name with
      | none => rfl
      | some first =>
        have hfound : (r.addTrait t).findings =
            [⟨.duplicateTrait t.name first.span, t.span⟩] := by
          simp only [addTrait, ht]
        refine absurd rfl (h ⟨.duplicateTrait t.name first.span, t.span⟩
          (subset_foldl_findings addTrait traits _ ?_))
        rw [hfound]
        exact List.mem_append_right _ (List.mem_singleton_self _)
    have hothers : ∀ t' ∈ traits, r.get? t'.name = none ∧ t.name ≠ t'.name := by
      intro t' ht'
      have hnone := hrest t' ht'
      rw [get?_addTrait, Option.or_eq_none_iff] at hnone
      refine ⟨hnone.1, fun heq => ?_⟩
      rw [if_pos heq] at hnone
      exact Option.some_ne_none _ hnone.2
    refine ⟨List.forall_mem_cons.2 ⟨hfree, fun t' ht' => (hothers t' ht').1⟩, ?_⟩
    rw [List.map_cons, List.nodup_cons]
    refine ⟨fun hmem => ?_, hnodup⟩
    obtain ⟨t', ht', heq⟩ := List.mem_map.1 hmem
    exact (hothers t' ht').2 heq.symm

/-! ## Registered implementations -/

/-- Whether the trait of an implementation is there, if it has one. -/
def knows (r : Registry) (i : Implementation) : Bool :=
  match i.traitName with
  | none => true
  | some trait => (r.get? trait).isSome

/-- What is wrong with an implementation by itself. -/
def implFindings (r : Registry) (i : Implementation) : List Finding :=
  match i.traitName with
  | none => []
  | some trait =>
    match r.get? trait with
    | none => [⟨.unknownImplTrait trait, i.span⟩]
    | some t => Conformance.findings t i

/-- What is known, and what is wrong with an implementation, depends on the traits alone. -/
theorem knows_and_implFindings_eq {r r' : Registry} (h : ∀ name, r.get? name = r'.get? name) :
    r.knows = r'.knows ∧ r.implFindings = r'.implFindings := by
  constructor
  · funext i
    unfold knows
    split
    · rfl
    · rw [h]
  · funext i
    unfold implFindings
    split
    · rfl
    · rw [h]

/-- An implementation whose trait is there is accepted, unless another one stands in its way. -/
theorem addImpl_of_apart {before : List Implementation} (hholds : r.Holds before)
    {i : Implementation} (h : r.knows i = true → ∀ j ∈ before, Apart j i) :
    (r.addImpl i).registry = r.pushAll ([i].filter r.knows) ∧
      (r.addImpl i).findings = r.implFindings i := by
  cases htrait : i.traitName with
  | none => simp [addImpl, implFindings, knows, pushAll, htrait]
  | some trait =>
    cases hget : r.get? trait with
    | none => simp [addImpl, implFindings, knows, pushAll, htrait, hget]
    | some t =>
      have hknows : r.knows i = true := by simp [knows, htrait, hget]
      have hdup : ¬ ((r.implementations trait).any fun other => other.target = i.target) := by
        intro hany
        obtain ⟨j, hj, htarget⟩ := List.any_eq_true.1 hany
        obtain ⟨hmem, hname⟩ := hholds.mem_implementations_iff.1 hj
        exact h hknows j hmem trait hname htrait (of_decide_eq_true htarget)
      simp [addImpl, implFindings, pushAll, htrait, hget, hdup, hknows]

/-- Of implementations that are apart all are accepted whose trait is there. -/
theorem foldl_addImpl {impls before : List Implementation} (hholds : r.Holds before)
    (found : List Finding) (h : (before ++ impls.filter r.knows).Pairwise Apart) :
    impls.foldl (fun (acc : Judged Registry) i =>
        ((acc.1.addImpl i).registry, acc.2 ++ (acc.1.addImpl i).findings)) (r, found) =
      (r.pushAll (impls.filter r.knows), found ++ impls.flatMap r.implFindings) := by
  induction impls generalizing r found before with
  | nil => simp [pushAll]
  | cons i impls ih =>
    have hsplit : (i :: impls).filter r.knows = [i].filter r.knows ++ impls.filter r.knows :=
      List.filter_append [i] impls
    have hapart : r.knows i = true → ∀ j ∈ before, Apart j i := by
      intro hknows j hj
      exact (List.pairwise_append.1 h).2.2 j hj i (List.mem_filter.2 ⟨List.mem_cons_self, hknows⟩)
    obtain ⟨hregistry, hfindings⟩ := addImpl_of_apart hholds hapart
    obtain ⟨hknows, himpl⟩ := knows_and_implFindings_eq (get?_pushAll r ([i].filter r.knows))
    rw [hsplit, ← List.append_assoc] at h
    rw [List.foldl_cons, hregistry, hfindings, ih (hholds.pushAll _) _ (by rwa [hknows]), hknows,
      himpl, hsplit, List.flatMap_cons, ← List.append_assoc, pushAll, pushAll, pushAll,
      List.foldl_append]

/-- Implementations that no call has a choice between do not stand in each other's way. -/
theorem Unambiguous.pairwise_apart
    (h : r.Unambiguous impls) : (impls.filter r.knows).Pairwise Apart := by
  rw [List.pairwise_iff_forall_sublist]
  intro i j hsub trait hi hj htarget
  have hknows : r.knows i = true :=
    (List.mem_filter.1 (hsub.subset List.mem_cons_self)).2
  obtain ⟨t, ht⟩ : ∃ t, r.get? trait = some t := by
    rw [knows, hi] at hknows
    exact Option.isSome_iff_exists.1 hknows
  have hboth : [i, j].Sublist (impls.filter fun i => i.traitName = some trait) := by
    have hfilter := (hsub.trans List.filter_sublist).filter fun i => i.traitName = some trait
    simpa [hi, hj] using hfilter
  exact List.pairwise_iff_forall_sublist.1 (h.ofTrait trait t ht) hboth
    (Implementation.overlap_of_target_eq htarget)

theorem ofLists_eq (hnodup : (traits.map Trait.name).Nodup)
    (h : (impls.filter (ofTraits traits).knows).Pairwise Apart) :
    ofLists traits impls =
      ((ofTraits traits).pushAll (impls.filter (ofTraits traits).knows),
        (traits.flatMap fun t => methodFindings t.name [] t.methods) ++
          impls.flatMap (ofTraits traits).implFindings) := by
  have htraits := foldl_addTrait {} [] (fun _ _ => rfl) hnodup
  have himpls := foldl_addImpl (holds_ofTraits traits)
    (traits.flatMap fun t => methodFindings t.name [] t.methods) h
  rw [List.nil_append] at htraits
  unfold ofLists
  simp only [htraits]
  exact himpls

/-- Traits that were registered without a complaint have different names. -/
theorem nodup_of_ofLists (h : ∀ f ∈ (ofLists traits impls).2, f.problem.code ≠ .duplicateTrait) :
    (traits.map Trait.name).Nodup :=
  (nodup_of_foldl_addTrait {} [] fun f hf =>
    h f (subset_foldl_findings addImpl impls _ hf)).2

theorem traits_addImpl (r : Registry) (i : Implementation) :
    (r.addImpl i).registry.traits = r.traits := by
  unfold addImpl
  repeat' split
  all_goals first | rfl | exact traits_push r i

/-- Implementations do not change which traits there are. -/
theorem get?_ofLists (traits : List Trait) (impls : List Implementation) (name : String) :
    (ofLists traits impls).1.get? name = (ofTraits traits).get? name := by
  have htraits : (ofLists traits impls).1.traits = (ofTraits traits).traits := by
    unfold ofLists
    refine List.foldlRecOn impls _
      (motive := fun acc : Judged Registry => acc.1.traits = (ofTraits traits).traits) ?_ ?_
    · exact congrArg Registry.traits (List.foldl_hom Prod.fst fun _ _ => rfl).symm
    · intro acc hacc i _
      exact (traits_addImpl acc.1 i).trans hacc
  unfold get?
  rw [htraits]

/-- Two registries hold the same traits and implementations, in some order, and no call on a
receiver of known type has a choice between these. -/
structure Permuted (r r' : Registry) : Prop where
  get? : ∀ name, r.get? name = r'.get? name
  lists : r.Rearranged r'
  keyed : r.KeyedByName
  keyed' : r'.KeyedByName
  unambiguous : ∃ impls, r.Holds impls ∧ r.Unambiguous impls

theorem Unambiguous.filter (h : r.Unambiguous impls)
    (p : Implementation → Bool) : r.Unambiguous (impls.filter p) where
  ofTrait trait t ht := (h.ofTrait trait t ht).sublist (List.filter_sublist.filter _)
  inherent := h.inherent.sublist (List.filter_sublist.filter _)

/-- What is registered does not depend on any order, and neither does what is found wrong. -/
theorem ofLists_permuted {traits traits' : List Trait} {impls impls' : List Implementation}
    (htraits : traits.Perm traits') (himpls : impls.Perm impls')
    (hnodup : (traits.map Trait.name).Nodup) (h : (ofTraits traits).Unambiguous impls) :
    Permuted (ofLists traits impls).1 (ofLists traits' impls').1 ∧
      (ofLists traits impls).2.Perm (ofLists traits' impls').2 := by
  have hget : ∀ name, (ofTraits traits).get? name = (ofTraits traits').get? name :=
    get?_ofTraits_perm htraits hnodup
  obtain ⟨hknows, hfindings⟩ := knows_and_implFindings_eq hget
  rw [ofLists_eq hnodup h.pairwise_apart,
    ofLists_eq ((htraits.map Trait.name).nodup_iff.1 hnodup) (h.perm hget himpls).pairwise_apart,
    ← hknows, ← hfindings]
  set known := impls.filter (ofTraits traits).knows
  set known' := impls'.filter (ofTraits traits).knows
  have hholds : ((ofTraits traits).pushAll known).Holds known :=
    (holds_ofTraits traits).pushAll known
  have hholds' : ((ofTraits traits').pushAll known').Holds known' :=
    (holds_ofTraits traits').pushAll known'
  have hget' : ∀ name, ((ofTraits traits).pushAll known).get? name =
      ((ofTraits traits').pushAll known').get? name := by simpa using hget
  refine ⟨⟨hget', hholds.rearranged hholds' (himpls.filter _),
    (keyedByName_ofTraits traits).of_traits (traits_pushAll _ _),
    (keyedByName_ofTraits traits').of_traits (traits_pushAll _ _),
    known, hholds, (h.filter _).perm (by simp) (.refl _)⟩, ?_⟩
  exact (htraits.flatMap_right _).append (himpls.flatMap_right _)

/-! ## What a call finds -/

end Registry

theorem pairwise_le_mergeSort (names : List String) :
    (names.mergeSort fun a b => decide (a ≤ b)).Pairwise fun a b => a ≤ b := by
  have htrans : ∀ a b c : String, decide (a ≤ b) = true → decide (b ≤ c) = true →
      decide (a ≤ c) = true := by
    intro a b c hab hbc
    exact decide_eq_true (String.le_trans (of_decide_eq_true hab) (of_decide_eq_true hbc))
  have htotal : ∀ a b : String, (decide (a ≤ b) || decide (b ≤ a)) = true := by
    intro a b
    simpa using String.le_total a b
  exact (List.pairwise_mergeSort htrans htotal names).imp of_decide_eq_true

/-- Names in increasing order do not tell in which order they came. -/
theorem mergeSort_eq_of_perm {names names' : List String} (h : names.Perm names') :
    (names.mergeSort fun a b => decide (a ≤ b)) = names'.mergeSort fun a b => decide (a ≤ b) := by
  have hperm : (names.mergeSort fun a b => decide (a ≤ b)).Perm
      (names'.mergeSort fun a b => decide (a ≤ b)) :=
    (List.mergeSort_perm names _).trans (h.trans (List.mergeSort_perm names' _).symm)
  exact hperm.eq_of_pairwise (fun _ _ _ _ => String.le_antisymm) (pairwise_le_mergeSort names)
    (pairwise_le_mergeSort names')

/-- Offers in another order lead to the same, because several traits are listed in increasing
order. -/
theorem Resolution.ofOffers_perm {l l' : List (String × Signature)} (h : l.Perm l') :
    ofOffers l = ofOffers l' := by
  match l, l' with
  | [], l' => rw [List.nil_perm.1 h]
  | [offer], l' => rw [List.singleton_perm.1 h]
  | _ :: _ :: _, [] | _ :: _ :: _, [_] => exact absurd h.length_eq (by simp)
  | _ :: _ :: _, _ :: _ :: _ =>
    exact congrArg Resolution.ambiguous (mergeSort_eq_of_perm (h.map Prod.fst))

namespace Registry

namespace Permuted

variable {r r' : Registry} {receiver : Ty}

variable (h : Permuted r r')

include h

theorem implements_eq (t : Ty) (trait : String) : r.implements t trait = r'.implements t trait :=
  h.lists.implements_eq t trait

/-- The implementations that apply to a receiver of known type give the same answers, as there is no
more than one of a kind. -/
theorem answersAgree (hknown : receiver ≠ .any) (method : String) :
    r.AnswersAgree receiver method where
  inherent i hi j hj happlies happlies' hmethod hmethod' := by
    by_cases heq : i = j
    · rw [heq]
    · have hsymm : Std.Symm fun i j : Implementation => i.Overlap j → ∀ method,
          ¬ ((i.method? method).isSome ∧ (j.method? method).isSome) :=
        ⟨fun i j hij hji method hboth => hij hji.symm method ⟨hboth.2, hboth.1⟩⟩
      have hoverlap : i.Overlap j := ⟨receiver, hknown, happlies, happlies'⟩
      obtain ⟨impls, hholds, hunambiguous⟩ := h.unambiguous
      rw [hholds.inherent] at hi hj
      exact absurd ⟨hmethod, hmethod'⟩ (hunambiguous.inherent.forall hi hj heq hoverlap method)
  ofTrait trait t ht _ _ i hi j hj happlies happlies' := by
    by_cases heq : i = j
    · rw [heq]
    · have hsymm : Std.Symm fun i j : Implementation => ¬ i.Overlap j :=
        ⟨fun i j hij hji => hij hji.symm⟩
      have hoverlap : i.Overlap j := ⟨receiver, hknown, happlies, happlies'⟩
      obtain ⟨impls, hholds, hunambiguous⟩ := h.unambiguous
      rw [hholds.implementations] at hi hj
      exact absurd hoverlap ((hunambiguous.ofTrait trait t ht).forall hi hj heq)
  unknown hany := absurd hany hknown

theorem resolveQualified_eq (receiver : Ty) (trait method : String) :
    r.resolveQualified receiver trait method = r'.resolveQualified receiver trait method := by
  refine resolveQualified_congr (h.get? trait) fun t ht hmethod hgranted => ?_
  have hknown : receiver ≠ .any := by
    rintro rfl
    cases hgranted
  exact (h.answersAgree hknown method).traitAnswer?_eq h.lists ht hmethod hgranted

/-- Traits in another order offer the same. -/
theorem offers_reorder (receiver : Ty) (method : String) :
    (Registry.offers { r' with traits := r.traits } receiver method).Perm
      (r'.offers receiver method) := by
  by_cases hparam : ∃ name bounds, receiver = .param name bounds
  · obtain ⟨name, bounds, rfl⟩ := hparam
    have hget : ∀ name, Registry.get? { r' with traits := r.traits } name = r'.get? name := h.get?
    simp only [offers, candidates, hget]
    exact .refl _
  · have hne : ∀ name bounds, receiver ≠ .param name bounds :=
      fun name bounds heq => hparam ⟨name, bounds, heq⟩
    have hvalues : r.traits.values.Perm r'.traits.values :=
      (Table.entries_perm h.keyed.nodup h.keyed'.nodup h.get?).map Prod.snd
    rw [offers_eq_filterMap _ method hne, offers_eq_filterMap r' method hne]
    exact hvalues.filterMap _

theorem resolveMethod_eq (hknown : receiver ≠ .any) (method : String) :
    r.resolveMethod receiver method = r'.resolveMethod receiver method := by
  -- First the implementations are put into the other order, then the traits.
  have himpls : r.resolveMethod receiver method =
      Registry.resolveMethod { r' with traits := r.traits } receiver method :=
    (h.answersAgree hknown method).resolveMethod_eq h.keyed rfl
      ⟨h.lists.implementations, h.lists.inherent⟩
  rw [himpls, Registry.resolveMethod_eq, Registry.resolveMethod_eq,
    Resolution.ofOffers_perm (h.offers_reorder receiver method)]
  rfl

end Permuted

/-- Every question that a call asks has the same answer. A call on a receiver of unknown type asks
none. -/
structure SameAnswers (r r' : Registry) : Prop where
  implements : ∀ t trait, r.implements t trait = r'.implements t trait
  qualified : ∀ receiver trait method,
    r.resolveQualified receiver trait method = r'.resolveQualified receiver trait method
  plain : ∀ receiver method, receiver ≠ .any →
    r.resolveMethod receiver method = r'.resolveMethod receiver method

theorem SameAnswers.refl (r : Registry) : SameAnswers r r :=
  ⟨fun _ _ => rfl, fun _ _ _ => rfl, fun _ _ _ => rfl⟩

theorem Permuted.sameAnswers {r r' : Registry} (h : Permuted r r') : SameAnswers r r' :=
  ⟨h.implements_eq, h.resolveQualified_eq, fun _ method hknown => h.resolveMethod_eq hknown method⟩

end Registry

end UnitAnalysis

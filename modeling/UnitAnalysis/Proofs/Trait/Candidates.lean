import Mathlib.Data.Set.Subsingleton
import UnitAnalysis.Proofs.Trait.Permuted

/-!
# Candidates of a plain call

A plain call looks at the traits one by one, in whatever order the table of traits shows them, and
collects offers. Which traits can offer a method can be said without that: a trait is a candidate
when it is registered, declares the method, and belongs to the receiver, by its bounds when the
receiver is a type parameter and by an implementation that applies otherwise.

The main result says that the answer of a plain call is read off the set of candidates. It rests on
what every registration keeps, that a trait stands under its own name and under no other.
-/

set_option autoImplicit false

namespace UnitAnalysis

namespace Registry

/-! ## Registrations -/

/-- Something to register. -/
inductive Entry where
  | ofTrait (t : Trait)
  | ofImpl (i : Implementation)

/-- Registers something. -/
def add (r : Registry) : Entry → Registration
  | .ofTrait t => r.addTrait t
  | .ofImpl i => r.addImpl i

/-- The registry after a sequence of registrations, some of which may have been refused. -/
def ofEntries (entries : List Entry) : Registry :=
  entries.foldl (fun r e => (r.add e).registry) {}

/-- Registrations keep the keys. -/
theorem KeyedByName.add {r : Registry} (h : r.KeyedByName) (e : Entry) :
    (r.add e).registry.KeyedByName := by
  cases e with
  | ofTrait t => exact h.addTrait t
  | ofImpl i =>
    have htraits : (r.add (.ofImpl i)).registry.traits = r.traits := traits_addImpl r i
    exact ⟨by rw [htraits]; exact h.name, by rw [htraits]; exact h.nodup⟩

/-- All of them do. -/
theorem keyedByName_ofEntries (entries : List Entry) : (ofEntries entries).KeyedByName := by
  unfold ofEntries
  refine List.foldlRecOn entries _ (motive := KeyedByName) ⟨?_, List.nodup_nil⟩ ?_
  · intro k t hmem
    cases hmem
  · intro r hr e _
    exact hr.add e

/-- The order in which a table shows the traits has no part in how they are stored. -/
theorem KeyedByName.reorder {r : Registry} (h : r.KeyedByName) {traits : Table String Trait}
    (horder : traits.entries.Perm r.traits.entries) : KeyedByName { r with traits } where
  name k t hmem := h.name k t (horder.mem_iff.1 hmem)
  nodup := (horder.map Prod.fst).nodup_iff.2 h.nodup

/-- The order of the table is not seen. -/
theorem KeyedByName.get?_reorder {r : Registry} (h : r.KeyedByName) {traits : Table String Trait}
    (horder : traits.entries.Perm r.traits.entries) (trait : String) :
    get? { r with traits } trait = r.get? trait := by
  refine Option.ext fun t => ?_
  exact (Table.find_eq_some_iff (h.reorder horder).nodup).trans
    (horder.mem_iff.trans (Table.find_eq_some_iff h.nodup).symm)

/-! ## Candidates -/

/-- Whether a method is provided by an implementation on its own that applies to the receiver. -/
def HasInherent (r : Registry) (receiver : Ty) (method : String) : Prop :=
  ∃ i ∈ r.inherent, i.appliesTo receiver = true ∧ (i.method? method).isSome

/-- Whether a receiver has a trait, as far as plain calls go. -/
def Bears (r : Registry) (receiver : Ty) (trait : String) : Prop :=
  match receiver with
  | .param _ bounds => trait ∈ bounds
  | _ => ∃ i ∈ r.implementations trait, i.appliesTo receiver = true

/-- The names of the traits that are registered, declare the method and belong to the receiver. -/
def candidateSet (r : Registry) (receiver : Ty) (method : String) : Set String :=
  fun trait => (∃ t, r.get? trait = some t ∧ (t.method? method).isSome) ∧ r.Bears receiver trait

section Candidates

variable {r : Registry} {receiver : Ty} {method trait : String}

/-- Implementations bear a trait. -/
theorem bears_iff (hparam : ∀ name bounds, receiver ≠ .param name bounds) :
    r.Bears receiver trait ↔ ∃ i ∈ r.implementations trait, i.appliesTo receiver = true := by
  unfold Bears
  split
  · next name bounds => exact absurd rfl (hparam name bounds)
  · exact Iff.rfl

/-- The candidates are the same in whatever order the traits are shown. -/
theorem candidateSet_reorder (h : r.KeyedByName) {traits : Table String Trait}
    (horder : traits.entries.Perm r.traits.entries) (receiver : Ty) (method : String) :
    candidateSet { r with traits } receiver method = r.candidateSet receiver method := by
  funext trait
  simp only [candidateSet, h.get?_reorder horder]
  rfl

/-- A method on its own is found just when there is one. -/
theorem inherentAnswer?_isSome_iff :
    (r.inherentAnswer? receiver method).isSome ↔ r.HasInherent receiver method := by
  rw [← map_inherentMethod?, Option.isSome_map, inherentMethod?, List.findSome?_isSome_iff]
  simp only [List.mem_filter, HasInherent, and_assoc]

/-! ## Offers -/

/-- The traits that offer a method to a type parameter. -/
theorem mem_offers_param_iff {name : String} {bounds : NameSet} {s : Signature} :
    (trait, s) ∈ r.offers (.param name bounds) method ↔
      trait ∈ bounds ∧ ∃ t declared, r.get? trait = some t ∧ t.method? method = some declared ∧
        s = declared.forReceiver (.param name bounds) := by
  unfold offers candidates
  rw [List.mem_map]
  constructor
  · rintro ⟨⟨other, declared⟩, hmem, hpair⟩
    obtain ⟨rfl, rfl⟩ := Prod.mk.inj hpair
    obtain ⟨bound, hbound, hoffer⟩ := List.mem_filterMap.1 hmem
    obtain ⟨t, ht, hmethod⟩ := Option.bind_eq_some_iff.1 hoffer
    obtain ⟨_, hdeclared, hpure⟩ := Option.bind_eq_some_iff.1 hmethod
    cases hpure
    exact ⟨hbound, t, declared, ht, hdeclared, rfl⟩
  · rintro ⟨hbound, t, declared, ht, hdeclared, rfl⟩
    refine ⟨(trait, declared), List.mem_filterMap.2 ⟨trait, hbound, ?_⟩, rfl⟩
    simp [ht, hdeclared]

/-- A call collects offers of the candidates and of no other traits. -/
theorem mem_map_fst_offers_iff (hkeyed : r.KeyedByName) :
    trait ∈ (r.offers receiver method).map Prod.fst ↔ trait ∈ r.candidateSet receiver method := by
  have hmap : trait ∈ (r.offers receiver method).map Prod.fst ↔
      ∃ s, (trait, s) ∈ r.offers receiver method := by
    simp
  rw [hmap]
  by_cases hparam : ∃ name bounds, receiver = .param name bounds
  · obtain ⟨name, bounds, rfl⟩ := hparam
    constructor
    · rintro ⟨s, hs⟩
      obtain ⟨hbound, t, declared, ht, hdeclared, -⟩ := mem_offers_param_iff.1 hs
      exact ⟨⟨t, ht, by rw [hdeclared]; rfl⟩, hbound⟩
    · rintro ⟨⟨t, ht, hmethod⟩, hbound⟩
      obtain ⟨declared, hdeclared⟩ := Option.isSome_iff_exists.1 hmethod
      exact ⟨_, mem_offers_param_iff.2 ⟨hbound, t, declared, ht, hdeclared, rfl⟩⟩
  · have hne : ∀ name bounds, receiver ≠ .param name bounds :=
      fun name bounds heq => hparam ⟨name, bounds, heq⟩
    constructor
    · rintro ⟨s, hs⟩
      obtain ⟨t, declared, answer, ht, hdeclared, hanswer, -⟩ := (mem_offers_iff hkeyed hne).1 hs
      obtain ⟨i, hi, -⟩ := Option.map_eq_some_iff.1 hanswer
      have happlies : i.appliesTo receiver = true :=
        List.find?_some (p := fun i : Implementation => i.appliesTo receiver) hi
      exact ⟨⟨t, ht, by rw [hdeclared]; rfl⟩,
        (bears_iff hne).2 ⟨i, List.mem_of_find?_eq_some hi, happlies⟩⟩
    · rintro ⟨⟨t, ht, hmethod⟩, hbears⟩
      obtain ⟨declared, hdeclared⟩ := Option.isSome_iff_exists.1 hmethod
      obtain ⟨i, hi⟩ := Option.isSome_iff_exists.1
        (List.find?_isSome.2 ((bears_iff hne).1 hbears))
      have hanswer : r.traitAnswer? receiver trait method = some (i.answer receiver method) := by
        rw [traitAnswer?, hi]
        rfl
      exact ⟨_, (mem_offers_iff hkeyed hne).2 ⟨t, declared, _, ht, hdeclared, hanswer, rfl⟩⟩

end Candidates

/-- What is picked from a list with a key has its keys in the order of the list. -/
theorem map_fst_filterMap_sublist {ι γ κ : Type} (key : ι → κ) (pick : ι → Option γ) (l : List ι) :
    ((l.filterMap fun x => (pick x).map fun v => (key x, v)).map Prod.fst).Sublist (l.map key) := by
  induction l with
  | nil => exact .slnil
  | cons x l ih =>
    cases hx : pick x with
    | none => simpa [hx] using ih.cons (key x)
    | some v => simpa [hx] using ih.cons_cons (key x)

/-- No trait makes two offers to one call. -/
theorem nodup_map_fst_offers {r : Registry} (hkeyed : r.KeyedByName) (receiver : Ty)
    (method : String) : ((r.offers receiver method).map Prod.fst).Nodup := by
  by_cases hparam : ∃ name bounds, receiver = .param name bounds
  · obtain ⟨name, bounds, rfl⟩ := hparam
    have hbounds : bounds.names.Nodup := bounds.increasing.imp fun h => String.ne_of_lt h
    have hoffers : r.offers (.param name bounds) method = bounds.names.filterMap fun bound =>
        (((r.get? bound).bind fun t => t.method? method).map fun s =>
          s.forReceiver (.param name bounds)).map fun s => (bound, s) := by
      unfold offers candidates
      rw [List.map_filterMap]
      refine List.filterMap_congr fun bound _ => ?_
      cases r.get? bound with
      | none => rfl
      | some t => cases ht : t.method? method <;> simp [ht]
    rw [hoffers]
    have hsub := map_fst_filterMap_sublist id (fun bound => ((r.get? bound).bind fun t =>
      t.method? method).map fun s => s.forReceiver (.param name bounds)) bounds.names
    rw [List.map_id] at hsub
    exact hbounds.sublist hsub
  · have hne : ∀ name bounds, receiver ≠ .param name bounds :=
      fun name bounds heq => hparam ⟨name, bounds, heq⟩
    have hnames : r.traits.values.map Trait.name = r.traits.keys := by
      unfold Table.values Table.keys
      rw [List.map_map]
      exact List.map_congr_left fun e he => hkeyed.name e.1 e.2 he
    rw [offers_eq_filterMap r method hne]
    refine List.Nodup.sublist (map_fst_filterMap_sublist Trait.name _ _) ?_
    rw [hnames]
    exact hkeyed.nodup

end Registry

/-! ## The answer to a call -/

namespace Resolution

variable {l : List (String × Signature)}

/-- No offer. -/
theorem ofOffers_eq_unresolved_iff : ofOffers l = .unresolved ↔ l.map Prod.fst = [] := by
  match l with
  | [] | [_] | _ :: _ :: _ => simp [ofOffers]

/-- One offer. -/
theorem exists_ofOffers_eq_ofTrait_iff {trait : String} :
    (∃ s, ofOffers l = .ofTrait trait s) ↔ l.map Prod.fst = [trait] := by
  match l with
  | [] | [(other, s)] | _ :: _ :: _ => simp [ofOffers]

/-- Several offers. -/
theorem ofOffers_eq_ambiguous_iff {names : List String} :
    ofOffers l = .ambiguous names ↔ 2 ≤ (l.map Prod.fst).length ∧
      (l.map Prod.fst).mergeSort (fun a b => decide (a ≤ b)) = names := by
  match l with
  | [] | [_] | _ :: _ :: _ => simp [ofOffers]

end Resolution

/-- Different names in order are a strictly increasing list, and there is only one such list of the
same names. -/
theorem mergeSort_eq_iff {names sorted : List String} (hnodup : names.Nodup) :
    names.mergeSort (fun a b => decide (a ≤ b)) = sorted ↔
      sorted.Pairwise (· < ·) ∧ ∀ name, name ∈ sorted ↔ name ∈ names := by
  have hperm := List.mergeSort_perm names fun a b => decide (a ≤ b)
  have hstrict : (names.mergeSort fun a b => decide (a ≤ b)).Pairwise (· < ·) :=
    ((pairwise_le_mergeSort names).and (hperm.nodup_iff.2 hnodup)).imp fun h =>
      Std.lt_of_le_of_ne h.1 h.2
  constructor
  · rintro rfl
    exact ⟨hstrict, fun name => hperm.mem_iff⟩
  · rintro ⟨hsorted, hmem⟩
    have hsame : (names.mergeSort fun a b => decide (a ≤ b)).Perm sorted := by
      refine (List.perm_ext_iff_of_nodup (hperm.nodup_iff.2 hnodup)
        (hsorted.imp fun h => String.ne_of_lt h)).2 fun name => ?_
      rw [hperm.mem_iff, hmem]
    exact hsame.eq_of_pairwise (fun _ _ _ _ hab hba => absurd hba (String.lt_asymm hab)) hstrict
      hsorted

/-- Names without repetitions are one name when they have it as their only member. -/
theorem eq_singleton_iff_of_nodup {names : List String} (hnodup : names.Nodup) {name : String} :
    names = [name] ↔ {other | other ∈ names} = {name} := by
  rw [← List.perm_singleton, List.perm_ext_iff_of_nodup hnodup (List.nodup_singleton name),
    Set.ext_iff]
  simp only [List.mem_singleton, Set.mem_ofPred_eq, Set.mem_singleton_iff]

/-- Names without repetitions are at least two when they have two members. -/
theorem two_le_length_iff_of_nodup {names : List String} (hnodup : names.Nodup) :
    2 ≤ names.length ↔ Set.Nontrivial {name | name ∈ names} := by
  match names with
  | [] => simp [Set.Nontrivial]
  | [name] => simp [Set.Nontrivial]
  | first :: second :: rest =>
    have hne : first ≠ second := by
      rintro rfl
      simp at hnodup
    simp only [List.length_cons, Nat.le_add_left, true_iff]
    exact ⟨first, by simp, second, by simp, hne⟩

namespace Registry

/-- **A plain call reports exactly the candidates.** After any sequence of registrations, and in
whatever order the table shows the traits, a call takes a method that an implementation on its own
provides whenever one that applies does. Otherwise it is unresolved when there is no candidate,
finds the trait that is the only one, and lists the candidates in strictly increasing order when
there are several. -/
theorem resolveMethod_reports_candidates (entries : List Entry) (traits : Table String Trait)
    (horder : traits.entries.Perm (ofEntries entries).traits.entries) (receiver : Ty)
    (method : String) :
    let r := ofEntries entries
    let found := resolveMethod { r with traits } receiver method
    let candidates := r.candidateSet receiver method
    ((∃ s, found = .inherent s) ↔ r.HasInherent receiver method) ∧
    (¬ r.HasInherent receiver method →
      (found = .unresolved ↔ candidates = ∅) ∧
      (∀ trait, (∃ s, found = .ofTrait trait s) ↔ candidates = {trait}) ∧
      (∀ names, found = .ambiguous names ↔ candidates.Nontrivial ∧ names.Pairwise (· < ·) ∧
        {name | name ∈ names} = candidates)) := by
  intro r found candidates
  have hstored := keyedByName_ofEntries entries
  have hkeyed : KeyedByName { r with traits } := hstored.reorder horder
  have hnodup := nodup_map_fst_offers hkeyed receiver method
  have hset : {name | name ∈ (offers { r with traits } receiver method).map Prod.fst} =
      candidates :=
    (Set.ext fun _ => mem_map_fst_offers_iff hkeyed).trans
      (candidateSet_reorder hstored horder receiver method)
  have hinherent : (inherentAnswer? { r with traits } receiver method).isSome ↔
      r.HasInherent receiver method := inherentAnswer?_isSome_iff
  have hfound : found = _ := resolveMethod_eq { r with traits } receiver method
  cases hanswer : inherentAnswer? { r with traits } receiver method with
  | some s =>
    rw [hanswer] at hfound hinherent
    refine ⟨⟨fun _ => hinherent.1 rfl, fun _ => ⟨s, hfound⟩⟩, fun hnone => ?_⟩
    exact absurd (hinherent.1 rfl) hnone
  | none =>
    rw [hanswer] at hfound hinherent
    have hnone : ¬ r.HasInherent receiver method := fun h => by simpa using hinherent.2 h
    simp only at hfound
    refine ⟨⟨?_, fun h => absurd h hnone⟩, fun _ => ⟨?_, fun trait => ?_, fun names => ?_⟩⟩
    · rintro ⟨s, hs⟩
      rw [hfound] at hs
      unfold Resolution.ofOffers at hs
      split at hs <;> cases hs
    · rw [hfound, Resolution.ofOffers_eq_unresolved_iff, ← hset, List.eq_nil_iff_forall_not_mem,
        Set.eq_empty_iff_forall_notMem]
      rfl
    · rw [hfound, Resolution.exists_ofOffers_eq_ofTrait_iff, eq_singleton_iff_of_nodup hnodup,
        hset]
    · rw [hfound, Resolution.ofOffers_eq_ambiguous_iff, two_le_length_iff_of_nodup hnodup,
        mergeSort_eq_iff hnodup, hset, ← hset, Set.ext_iff]
      rfl

/-- Two traits that both declare `show` and are both implemented for counters, and a third one that
is not. The last trait is refused, as its name is taken. -/
def shownTwice : List Entry :=
  [.ofTrait showTrait, .ofTrait { showTrait with name := "Print" },
    .ofImpl (showAs (.named "Counter") .int), .ofTrait { showTrait with name := "Debug" },
    .ofImpl { showAs (.named "Counter") .string with traitName := some "Print" },
    .ofTrait { showTrait with methods := [] }]

/-- The traits of this registry, shown in the opposite order. -/
def shownBackwards : Table String Trait :=
  ⟨(ofEntries shownTwice).traits.entries.reverse⟩

/-- Two traits show a counter. -/
theorem resolveMethod_reports_candidates_counter :
    shownBackwards.entries.Perm (ofEntries shownTwice).traits.entries ∧
      ¬ (ofEntries shownTwice).HasInherent (.named "Counter") "show" ∧
      resolveMethod { ofEntries shownTwice with traits := shownBackwards } (.named "Counter") "show" =
        .ambiguous ["Print", "Show"] ∧
      ((ofEntries shownTwice).candidateSet (.named "Counter") "show").Nontrivial ∧
      {name | name ∈ ["Print", "Show"]} =
        (ofEntries shownTwice).candidateSet (.named "Counter") "show" := by
  have horder : shownBackwards.entries.Perm (ofEntries shownTwice).traits.entries :=
    List.reverse_perm _
  have hnone : ¬ (ofEntries shownTwice).HasInherent (.named "Counter") "show" := by
    rintro ⟨i, hi, -⟩
    cases hi
  have hinherent : inherentAnswer? { ofEntries shownTwice with traits := shownBackwards }
      (.named "Counter") "show" = none := rfl
  have hoffers : (offers { ofEntries shownTwice with traits := shownBackwards } (.named "Counter")
      "show").map Prod.fst = ["Print", "Show"] := by decide +kernel
  have hfound : resolveMethod { ofEntries shownTwice with traits := shownBackwards }
      (.named "Counter") "show" = .ambiguous ["Print", "Show"] := by
    rw [resolveMethod_eq, hinherent]
    refine Resolution.ofOffers_eq_ambiguous_iff.2 ?_
    rw [hoffers, mergeSort_eq_iff (by decide)]
    exact ⟨by decide, by decide, fun _ => Iff.rfl⟩
  have hreport :=
    resolveMethod_reports_candidates shownTwice shownBackwards horder (.named "Counter") "show"
  obtain ⟨hseveral, -, hset⟩ := ((hreport.2 hnone).2.2 ["Print", "Show"]).1 hfound
  exact ⟨horder, hnone, hfound, hseveral, hset⟩

end Registry

end UnitAnalysis

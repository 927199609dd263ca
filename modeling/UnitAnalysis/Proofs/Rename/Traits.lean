import UnitAnalysis.Proofs.Rename.State
import UnitAnalysis.Trait.Conformance
import UnitAnalysis.Trait.Dispatch

/-!
# Traits do not depend on identities

What is asked of a registry has the same answer when all nodes are renamed, and what is wrong with
traits and implementations is the same. A signature in an answer comes from the renamed node; types,
names and problems do not mention nodes.
-/

set_option autoImplicit false

namespace UnitAnalysis

open Conformance

variable (f : NodeId → NodeId)

/-! ## Traits and implementations -/

@[simp] theorem Signature.forReceiver_rename (s : Signature) (receiver : Ty) :
    (s.rename f).forReceiver receiver = (s.forReceiver receiver).rename f := rfl

@[simp] theorem Signature.ofName?_rename (ms : List Signature) (name : String) :
    Signature.ofName? (ms.map (Signature.rename f)) name =
      (Signature.ofName? ms name).map (Signature.rename f) :=
  List.find?_map

@[simp] theorem Trait.method?_rename (t : Trait) (name : String) :
    (t.rename f).method? name = (t.method? name).map (Signature.rename f) :=
  Signature.ofName?_rename f t.methods name

@[simp] theorem Implementation.method?_rename (i : Implementation) (name : String) :
    (i.rename f).method? name = (i.method? name).map (Signature.rename f) :=
  Signature.ofName?_rename f i.methods name

@[simp] theorem Implementation.appliesTo_rename (i : Implementation) (receiver : Ty) :
    (i.rename f).appliesTo receiver = i.appliesTo receiver := rfl

/-- What a plain call finds, with the signature renamed. -/
def Resolution.rename : Resolution → Resolution
  | inherent s => .inherent (s.rename f)
  | ofTrait trait s => .ofTrait trait (s.rename f)
  | ambiguous traits => .ambiguous traits
  | unresolved => .unresolved

/-- What came of a registration, with the registry renamed. -/
def Registration.rename (step : Registration) : Registration :=
  { step with registry := step.registry.rename f }

namespace Registry

variable (r : Registry)

@[simp] theorem get?_rename (name : String) :
    (r.rename f).get? name = (r.get? name).map (Trait.rename f) :=
  Table.get?_mapValues _ r.traits name

@[simp] theorem implementations_rename (trait : String) :
    (r.rename f).implementations trait =
      (r.implementations trait).map (Implementation.rename f) := by
  have hget : (r.rename f).byTrait.get? trait =
      (r.byTrait.get? trait).map (List.map (Implementation.rename f)) :=
    Table.get?_mapValues _ r.byTrait trait
  rw [implementations, implementations, hget]
  cases r.byTrait.get? trait <;> rfl

@[simp] theorem inherent_rename :
    (r.rename f).inherent = r.inherent.map (Implementation.rename f) := rfl

/-- Listing an implementation. -/
theorem push_rename (i : Implementation) :
    (r.rename f).push (i.rename f) = (r.push i).rename f := by
  have htrait : (i.rename f).traitName = i.traitName := rfl
  simp only [push, htrait, implementations_rename]
  cases i.traitName with
  | none => simp [rename]
  | some name => simp [rename, Table.mapValues_insert]

/-- Which types implement a trait. -/
theorem implements_rename (t : Ty) (trait : String) :
    (r.rename f).implements t trait = r.implements t trait := by
  unfold implements
  split
  · rfl
  · rfl
  · simp [Function.comp_def]

/-- Inherent methods. -/
theorem inherentMethod?_rename (receiver : Ty) (method : String) :
    (r.rename f).inherentMethod? receiver method =
      (r.inherentMethod? receiver method).map (Signature.rename f) := by
  simp [inherentMethod?, List.filter_map, List.findSome?_map, Function.comp_def,
    List.map_findSome?]

/-- What a trait offers. -/
theorem offer?_rename (receiver : Ty) (method : String) (t : Trait) :
    (r.rename f).offer? receiver method (t.rename f) =
      (r.offer? receiver method t).map (Signature.rename f) := by
  have hname : (t.rename f).name = t.name := rfl
  simp only [offer?, Trait.method?_rename, implementations_rename, hname, List.find?_map,
    Function.comp_def, Implementation.appliesTo_rename]
  cases t.method? method with
  | none => rfl
  | some declared =>
    cases (r.implementations t.name).find? fun i => i.appliesTo receiver with
    | none => rfl
    | some i => cases h : i.method? method <;> simp [h]

/-- All that traits offer. -/
theorem candidates_rename (receiver : Ty) (method : String) :
    (r.rename f).candidates receiver method =
      (r.candidates receiver method).map fun c => (c.1, c.2.rename f) := by
  unfold candidates
  split
  · rw [List.map_filterMap]
    congr 1
    funext bound
    simp only [get?_rename]
    cases r.get? bound with
    | none => rfl
    | some t => cases h : t.method? method <;> simp [h]
  · have hvalues : (r.rename f).traits.values = r.traits.values.map (Trait.rename f) :=
      Table.values_mapValues _ r.traits
    rw [hvalues, List.filterMap_map, List.map_filterMap]
    congr 1
    funext t
    simp only [Function.comp_apply, offer?_rename]
    cases r.offer? receiver method t <;> rfl

/-- How a method call is resolved. -/
theorem resolveMethod_rename (receiver : Ty) (method : String) :
    (r.rename f).resolveMethod receiver method = (r.resolveMethod receiver method).rename f := by
  simp only [resolveMethod, inherentMethod?_rename, candidates_rename]
  cases r.inherentMethod? receiver method with
  | some s => rfl
  | none =>
    match r.candidates receiver method with
    | [] => rfl
    | [(trait, s)] => rfl
    | first :: second :: rest => simp [Resolution.rename, Function.comp_def]

/-- How a qualified call is resolved. -/
theorem resolveQualified_rename (receiver : Ty) (trait method : String) :
    (r.rename f).resolveQualified receiver trait method =
      (r.resolveQualified receiver trait method).map (Signature.rename f) := by
  simp only [resolveQualified, get?_rename]
  cases r.get? trait with
  | none => rfl
  | some t =>
    simp only [Option.map_some, Trait.method?_rename]
    cases t.method? method with
    | none => rfl
    | some declared =>
      simp only [Option.map_some]
      split
      · rfl
      · simp only [implementations_rename, List.find?_map, Function.comp_def,
          Implementation.appliesTo_rename]
        cases (r.implementations trait).find? fun i => i.appliesTo receiver with
        | none => rfl
        | some i =>
          simp only [Option.map_some, Implementation.method?_rename]
          cases i.method? method <;> rfl

/-! Registration -/

/-- Mismatches of parameters carry no ids. -/
theorem parameterFindings_rename (s : Subst) (trait : String) (provided : Signature)
    (position : Nat) (required actual : List (String × Ty)) :
    parameterFindings s trait (provided.rename f) position required actual =
      parameterFindings s trait provided position required actual := by
  induction required generalizing position actual with
  | nil => rfl
  | cons r required ih =>
    cases actual with
    | nil => rfl
    | cons p actual =>
      simp only [parameterFindings, ih]
      rfl

/-- Nor do those of a required method. -/
theorem requiredFindings_rename (t : Trait) (i : Implementation) (required : Signature) :
    requiredFindings (t.rename f) (i.rename f) (required.rename f) =
      requiredFindings t i required := by
  have hname : (required.rename f).name = required.name := rfl
  simp only [requiredFindings, Implementation.method?_rename, hname]
  cases i.method? required.name with
  | none => rfl
  | some provided =>
    simp only [Option.map_some, parameterFindings_rename]
    rfl

/-- Nor those of an implementation. -/
theorem conformanceFindings_rename (t : Trait) (i : Implementation) :
    findings (t.rename f) (i.rename f) = findings t i := by
  have hprovided : ∀ m : Signature, providedFindings (t.rename f) (m.rename f) =
      providedFindings t m := by
    intro m
    have hname : (m.rename f).name = m.name := rfl
    simp only [providedFindings, Trait.method?_rename, Option.isSome_map, hname]
    rfl
  have hmethods : (t.rename f).methods = t.methods.map (Signature.rename f) := rfl
  have hmethods' : (i.rename f).methods = i.methods.map (Signature.rename f) := rfl
  simp only [findings, hmethods, hmethods', List.flatMap_map,
    requiredFindings_rename, hprovided]

/-- Nor those of a trait's methods. -/
theorem methodFindings_rename (trait : String) (seen : List String) (ms : List Signature) :
    methodFindings trait seen (ms.map (Signature.rename f)) = methodFindings trait seen ms := by
  induction ms generalizing seen with
  | nil => rfl
  | cons m ms ih =>
    simp only [List.map_cons, methodFindings, ih]
    rfl

/-- Registering a trait. -/
theorem addTrait_rename (t : Trait) :
    (r.rename f).addTrait (t.rename f) = (r.addTrait t).rename f := by
  have hname : (t.rename f).name = t.name := rfl
  have hmethods : (t.rename f).methods = t.methods.map (Signature.rename f) := rfl
  simp only [addTrait, get?_rename, hname, hmethods, methodFindings_rename]
  cases r.get? t.name with
  | some first => rfl
  | none => simp [rename, Registration.rename, Table.mapValues_insert]

/-- Registering an implementation. -/
theorem addImpl_rename (i : Implementation) :
    (r.rename f).addImpl (i.rename f) = (r.addImpl i).rename f := by
  have htrait : (i.rename f).traitName = i.traitName := rfl
  simp only [addImpl, htrait]
  cases i.traitName with
  | none => simp [push_rename, Registration.rename]
  | some name =>
    simp only [get?_rename]
    cases r.get? name with
    | none => rfl
    | some t =>
      have hany : ((r.rename f).implementations name).any
          (fun other => decide (other.target = (i.rename f).target)) =
          (r.implementations name).any fun other => decide (other.target = i.target) := by
        rw [implementations_rename, List.any_map]
        rfl
      simp only [Option.map_some, hany, conformanceFindings_rename]
      split
      · rfl
      · simp [push_rename, Registration.rename]

/-- Registering one thing after the other, by steps that commute with the renaming. -/
theorem foldl_rename {ι : Type} (add add' : Registry → ι → Registration)
    (h : ∀ r x, add' (r.rename f) x = (add r x).rename f) (xs : List ι) (acc : Judged Registry) :
    xs.foldl (fun (acc : Judged Registry) x =>
        ((add' acc.1 x).registry, acc.2 ++ (add' acc.1 x).findings)) (acc.map (rename f) id) =
      (xs.foldl (fun (acc : Judged Registry) x =>
        ((add acc.1 x).registry, acc.2 ++ (add acc.1 x).findings)) acc).map (rename f) id := by
  induction xs generalizing acc with
  | nil => rfl
  | cons x xs ih =>
    simp only [List.foldl_cons, Prod.map_fst, Prod.map_snd, h]
    exact ih ((add acc.1 x).registry, acc.2 ++ (add acc.1 x).findings)

/-- Registering all of them. -/
theorem ofLists_rename (traits : List Trait) (impls : List Implementation) :
    ofLists (traits.map (Trait.rename f)) (impls.map (Implementation.rename f)) =
      (ofLists traits impls).map (rename f) id := by
  have htraits := foldl_rename f (fun r t => r.addTrait t) (fun r t => r.addTrait (t.rename f))
    (addTrait_rename f) traits ({}, [])
  have hempty : Prod.map (rename f) id (({}, []) : Judged Registry) = ({}, []) := rfl
  rw [hempty] at htraits
  simp only [ofLists, List.foldl_map, htraits]
  exact foldl_rename f (fun r i => r.addImpl i) (fun r i => r.addImpl (i.rename f))
    (addImpl_rename f) impls _

end Registry

end UnitAnalysis

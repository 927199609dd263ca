import UnitAnalysis.Trait.Registry

/-!
# Conformance

An implementation conforms to its trait when it has every method that the trait asks for, with
equally many parameters of compatible types and a compatible result, and no method that the trait
does not know. The trait is read with the target in place of `Self` and the arguments of the
implementation in place of its type parameters. Every departure is reported by itself.
-/

set_option autoImplicit false

namespace UnitAnalysis

/-- How an implementation reads its trait. -/
def Implementation.reading (t : Trait) (i : Implementation) : Subst :=
  Subst.ofList (("Self", i.target) :: DeclaredType.pairParams t.typeParams i.traitArgs)

namespace Conformance

/-- The parameters of a method against those of the trait, from the given position on. -/
def parameterFindings (s : Subst) (trait : String) (provided : Signature) (position : Nat) :
    (required actual : List (String × Ty)) → List Finding
  | (_, expected) :: required, (name, actual) :: rest =>
    let expected := s.apply expected
    (if expected.compatible actual then []
      else [⟨.parameterType position name provided.name trait actual expected, provided.span⟩])
      ++ parameterFindings s trait provided (position + 1) required rest
  | _, _ => []

/-- The result of a method against that of the trait. -/
def resultFindings (s : Subst) (trait : String) (required provided : Signature) : List Finding :=
  let expected := s.apply required.returnType
  if expected.compatible provided.returnType then []
  else [⟨.resultType provided.name trait provided.returnType expected, provided.span⟩]

/-- One method of the trait against the implementation. -/
def requiredFindings (t : Trait) (i : Implementation) (required : Signature) : List Finding :=
  match i.method? required.name with
  | none => [⟨.missingMethod required.name t.name i.target required.span, i.span⟩]
  | some provided =>
    if provided.params.length = required.params.length then
      parameterFindings (i.reading t) t.name provided 1 required.params provided.params
        ++ resultFindings (i.reading t) t.name required provided
    else
      [⟨.parameterCount provided.name t.name provided.params.length required.params.length,
        provided.span⟩]

/-- One method of the implementation against the trait. -/
def providedFindings (t : Trait) (provided : Signature) : List Finding :=
  if (t.method? provided.name).isSome then []
  else [⟨.methodNotInTrait provided.name t.name, provided.span⟩]

/-- All departures of an implementation from its trait. -/
def findings (t : Trait) (i : Implementation) : List Finding :=
  t.methods.flatMap (requiredFindings t i) ++ i.methods.flatMap (providedFindings t)

end Conformance

/-- Registers an implementation. -/
def Registry.addImpl (r : Registry) (i : Implementation) : Registration :=
  match i.traitName with
  | none => ⟨true, r.push i, []⟩
  | some name =>
    match r.get? name with
    | none => ⟨false, r, [⟨.unknownImplTrait name, i.span⟩]⟩
    | some t =>
      if (r.implementations name).any fun other => other.target = i.target then
        ⟨false, r, [⟨.duplicateImpl name i.target, i.span⟩]⟩
      else ⟨true, r.push i, Conformance.findings t i⟩

/-- Registers traits and then implementations, one after the other. -/
def Registry.ofLists (traits : List Trait) (impls : List Implementation) : Judged Registry :=
  let withTraits := traits.foldl (fun (acc : Judged Registry) t =>
    let step := acc.1.addTrait t
    (step.registry, acc.2 ++ step.findings)) ({}, [])
  impls.foldl (fun (acc : Judged Registry) i =>
    let step := acc.1.addImpl i
    (step.registry, acc.2 ++ step.findings)) withTraits

end UnitAnalysis

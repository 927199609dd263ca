import UnitAnalysis.Declared.Index
import UnitAnalysis.Diagnostic.Problem

/-!
# Traits and their implementations

A `Registry` holds the traits of a unit by name, the implementations of each trait under its name,
and apart from them the implementations on their own, each list in the order in which they came. A
trait whose name is taken is refused, and so is an implementation of a trait that is not there or
that the same type has already; what is refused leaves the registry as it was. An implementation
that does not conform to its trait is reported and kept all the same, so that calls can see what it
has.
-/

set_option autoImplicit false

namespace UnitAnalysis

/-- A trait or interface. In its signatures `Self` is a type parameter. -/
structure Trait where
  /-- The name. -/
  name : String
  /-- The type parameters, with their bounds. -/
  typeParams : List Ty := []
  /-- The methods that it asks for. -/
  methods : List Signature := []
  /-- Whether it is declared as an interface. -/
  isInterface : Bool := false
  /-- The place of the declaration. -/
  span : Span := {}
  /-- The declaration. -/
  origin : NodeId
  deriving DecidableEq, Repr

/-- An implementation: methods for a type, on behalf of a trait or on its own. -/
structure Implementation where
  /-- The trait, if there is one. -/
  traitName : Option String := none
  /-- The arguments of the trait. -/
  traitArgs : List Ty := []
  /-- The type that gets the methods. -/
  target : Ty
  /-- The type parameters, with their bounds. -/
  typeParams : List Ty := []
  /-- The methods. -/
  methods : List Signature := []
  /-- The place of the declaration. -/
  span : Span := {}
  /-- The declaration. -/
  origin : NodeId
  deriving DecidableEq, Repr

/-- The first signature of a name. -/
def Signature.ofName? (signatures : List Signature) (name : String) : Option Signature :=
  signatures.find? fun s => s.name = name

/-- The method of a trait. -/
def Trait.method? (t : Trait) (name : String) : Option Signature :=
  Signature.ofName? t.methods name

namespace Implementation

/-- The method of an implementation. -/
def method? (i : Implementation) (name : String) : Option Signature :=
  Signature.ofName? i.methods name

/-- Whether an implementation is for values of type `receiver`: by name where both types have one,
and by compatibility otherwise. -/
def appliesTo (i : Implementation) (receiver : Ty) : Bool :=
  match i.target.nominalName?, receiver.nominalName? with
  | some target, some receiver => target == receiver
  | _, _ => i.target.compatible receiver

end Implementation

/-- The traits and implementations of a unit. -/
structure Registry where
  /-- The traits, by name. -/
  traits : Table String Trait := {}
  /-- The implementations of traits, by the name of the trait, first registered first. -/
  byTrait : Table String (List Implementation) := {}
  /-- The implementations on their own, first registered first. -/
  inherent : List Implementation := []
  deriving Repr

/-- What came of a registration. -/
structure Registration where
  /-- Whether it was accepted. -/
  isAccepted : Bool
  /-- The registry after it. -/
  registry : Registry
  /-- What was found wrong. -/
  findings : List Finding

namespace Registry

instance : Inhabited Registry := ⟨{}⟩

/-- The trait of a name. -/
def get? (r : Registry) (name : String) : Option Trait :=
  r.traits.get? name

/-- The implementations of a trait. -/
def implementations (r : Registry) (trait : String) : List Implementation :=
  (r.byTrait.get? trait).getD []

/-- The number of traits. -/
def traitCount (r : Registry) : Nat :=
  r.traits.size

/-- The number of implementations of both kinds. -/
def implCount (r : Registry) : Nat :=
  r.byTrait.values.flatten.length + r.inherent.length

/-- Puts an implementation at the end of its list: that of its trait, or of those on their own. -/
def push (r : Registry) (i : Implementation) : Registry :=
  match i.traitName with
  | none => { r with inherent := r.inherent ++ [i] }
  | some trait => { r with byTrait := r.byTrait.insert trait (r.implementations trait ++ [i]) }

@[simp] theorem traits_push (r : Registry) (i : Implementation) : (r.push i).traits = r.traits := by
  unfold push
  split <;> rfl

/-- The list of a trait grows by an implementation of that trait only. -/
theorem implementations_push (r : Registry) (i : Implementation) (trait : String) :
    (r.push i).implementations trait =
      r.implementations trait ++ [i].filter fun i => i.traitName = some trait := by
  cases hname : i.traitName with
  | none => simp [push, implementations, hname]
  | some name =>
    by_cases heq : name = trait
    · subst heq
      simp [push, implementations, hname]
    · simp [push, implementations, hname, heq, Table.get?_insert_of_ne]

/-- The list of those on their own grows by an implementation without a trait only. -/
theorem inherent_push (r : Registry) (i : Implementation) :
    (r.push i).inherent = r.inherent ++ [i].filter fun i => i.traitName = none := by
  cases hname : i.traitName <;> simp [push, hname]

/-- What is wrong with the methods of a trait: names that were seen before and missing results. -/
def methodFindings (trait : String) (seen : List String) : List Signature → List Finding
  | [] => []
  | m :: ms =>
    if m.name ∈ seen then
      ⟨.duplicateTraitMethod trait m.name, m.span⟩ :: methodFindings trait seen ms
    else
      (if m.ret.isNone then [⟨.missingReturnType trait m.name, m.span⟩] else [])
        ++ methodFindings trait (m.name :: seen) ms

/-- Registers a trait. -/
def addTrait (r : Registry) (t : Trait) : Registration :=
  match r.get? t.name with
  | some first => ⟨false, r, [⟨.duplicateTrait t.name first.span, t.span⟩]⟩
  | none =>
    ⟨true, { r with traits := r.traits.insert t.name t }, methodFindings t.name [] t.methods⟩

end Registry

end UnitAnalysis

import UnitAnalysis.Trait.Registry

/-!
# Finding methods

A plain call `receiver.method()` takes the method of an implementation on its own, if one applies to
the receiver, and otherwise the method of the only trait that offers one. Several traits are an
ambiguity; the order in which they were registered never decides. A qualified call
`receiver.Trait::method()` asks one trait only.
-/

set_option autoImplicit false

namespace UnitAnalysis

/-- What a plain call finds. -/
inductive Resolution where
  /-- A method of an implementation on its own. -/
  | inherent (signature : Signature)
  /-- The method of the only trait that offers one. -/
  | ofTrait (trait : String) (signature : Signature)
  /-- The traits that offer one, in increasing order. -/
  | ambiguous (traits : List String)
  | unresolved
  deriving DecidableEq, Repr

/-- A signature with the receiver in place of `Self`. -/
def Signature.forReceiver (s : Signature) (receiver : Ty) : Signature :=
  s.mapTypes (Subst.ofList [("Self", receiver)]).apply

namespace Registry

/-- Whether a type implements a trait. `Any` implements all, and a type parameter its bounds. -/
def implements (r : Registry) (t : Ty) (trait : String) : Bool :=
  match t with
  | .prim .any => true
  | .param _ bounds => trait ∈ bounds
  | t => (r.implementations trait).any fun i => i.appliesTo t

/-- The first method of an implementation on its own that applies to the receiver. -/
def inherentMethod? (r : Registry) (receiver : Ty) (method : String) : Option Signature :=
  (r.inherent.filter fun i => i.appliesTo receiver).findSome? fun i => i.method? method

/-- What a trait offers to a receiver: the method of the first implementation that applies or, when
that lacks it, of the trait itself. -/
def offer? (r : Registry) (receiver : Ty) (method : String) (t : Trait) : Option Signature := do
  let declared ← t.method? method
  let i ← (r.implementations t.name).find? fun i => i.appliesTo receiver
  return (i.method? method).getD declared

/-- The traits that offer a method to a receiver, with what they offer. A type parameter has the
methods of its bounds. -/
def candidates (r : Registry) (receiver : Ty) (method : String) : List (String × Signature) :=
  match receiver with
  | .param _ bounds =>
    bounds.names.filterMap fun bound => do
      let s ← (← r.get? bound).method? method
      return (bound, s)
  | _ => r.traits.values.filterMap fun t => (r.offer? receiver method t).map fun s => (t.name, s)

/-- What a plain call of `method` on `receiver` finds. -/
def resolveMethod (r : Registry) (receiver : Ty) (method : String) : Resolution :=
  match r.inherentMethod? receiver method with
  | some s => .inherent (s.forReceiver receiver)
  | none =>
    match r.candidates receiver method with
    | [] => .unresolved
    | [(trait, s)] => .ofTrait trait (s.forReceiver receiver)
    | many => .ambiguous ((many.map Prod.fst).mergeSort fun a b => decide (a ≤ b))

/-- Whether a receiver has the methods of a trait without an implementation: `Any` does, and a type
parameter with that bound. -/
def isGranted (receiver : Ty) (trait : String) : Bool :=
  match receiver with
  | .prim .any => true
  | .param _ bounds => trait ∈ bounds
  | _ => false

/-- What a qualified call of `method` on `receiver` finds, or the first thing that is wrong with it.
-/
def resolveQualified (r : Registry) (receiver : Ty) (trait method : String) :
    Except Problem Signature :=
  match r.get? trait with
  | none => .error (.unknownTrait trait)
  | some t =>
    match t.method? method with
    | none => .error (.traitLacksMethod trait method)
    | some declared =>
      if isGranted receiver trait then .ok (declared.forReceiver receiver)
      else
        match (r.implementations trait).find? fun i => i.appliesTo receiver with
        | none => .error (.notImplemented receiver trait)
        | some i =>
          match i.method? method with
          | some s => .ok (s.forReceiver receiver)
          | none => .error (.noConcreteMethod trait method receiver)

/-- What a qualified call gives back, and what it reports at its place. -/
def qualifiedOutcome (r : Registry) (receiver : Ty) (trait method : String) (span : Span) :
    Judged (Option Signature) :=
  match r.resolveQualified receiver trait method with
  | .ok s => (some s, [])
  | .error problem => (none, [⟨problem, span⟩])

end Registry

end UnitAnalysis

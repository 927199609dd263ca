import UnitAnalysis.Check.Unit
import UnitAnalysis.Proofs.Check.Calls
import UnitAnalysis.Proofs.Declared.Alike
import UnitAnalysis.Proofs.Rename.Traits

/-!
# What a check can see, by look-up

A check reads its context through look-ups and through the questions that calls ask the registry.
`Context.Renames` says that all of these have the same answers in two contexts, with nodes renamed,
whatever the order in which tables and registries were filled. What the tables have for single nodes
of bodies is left out: a unit in another order has the same scopes under other numbers, and a unit
with another body has other annotations in it. The options of the two contexts may differ.
-/

set_option autoImplicit false

namespace UnitAnalysis

open Check

/-- Every question that a call asks has the same answer, with nodes renamed. A call on a receiver of
unknown type asks none. -/
structure Registry.Renames (f : NodeId → NodeId) (r r' : Registry) : Prop where
  implements : ∀ t trait, r'.implements t trait = r.implements t trait
  qualified : ∀ receiver trait method, r'.resolveQualified receiver trait method =
    (r.resolveQualified receiver trait method).map (Signature.rename f)
  plain : ∀ receiver method, receiver ≠ .any →
    r'.resolveMethod receiver method = (r.resolveMethod receiver method).rename f

/-- Every look-up but those of the scope and the annotation of a node finds the same in both
contexts, with nodes renamed. -/
structure Context.Renames (f : NodeId → NodeId) (ctx ctx' : Context) : Prop where
  decls : ctx.decls.Renames f ctx'.decls
  functions : ∀ id, ctx'.table.functions.get? (f id) =
    (ctx.table.functions.get? id).map (Signature.rename f)
  intrinsics : ∀ name, ctx'.table.intrinsics.get? name = ctx.table.intrinsics.get? name
  registry : ctx.registry.Renames f ctx'.registry

namespace Check

variable {r r' : Registry}

/-- Closing parameters asks a registry only what is implemented. -/
theorem closeParams_congr (h : ∀ t trait, r.implements t trait = r'.implements t trait)
    (callee : String) (span : Span) (s : Subst) (typeParams : List Ty) :
    closeParams r callee span s typeParams = closeParams r' callee span s typeParams := by
  fun_induction closeParams r callee span s typeParams with
  | case1 s => rfl
  | case2 s name bounds rest found hfound s' more hrest ih =>
    simp only [closeParams, boundFindings, hfound, h, ← ih, hrest]
  | case3 s name bounds rest hnone ih => simp only [closeParams, hnone, ih]
  | case4 s t rest hparam ih => rw [closeParams.eq_3 _ _ _ _ _ _ hparam, ih]

/-- A call asks a registry only which bounds are met. -/
theorem applyTarget_congr (h : ∀ t trait, r.implements t trait = r'.implements t trait)
    (target : CallTarget) (args : List Argument) (span : Span) :
    applyTarget r target args span = applyTarget r' target args span := by
  simp only [applyTarget, closeParams_congr h]

end Check

namespace Context.Renames

variable {f : NodeId → NodeId} {ctx ctx' : Context} (h : ctx.Renames f ctx')

include h

/-- Calls of a target. -/
theorem applyTarget (target : CallTarget) (args : List Argument) (span : Span) :
    applyTarget ctx'.registry target args span =
      applyTarget ctx.registry target args span :=
  applyTarget_congr h.registry.implements target args span

/-- Calls of a method. -/
theorem callMethod (receiver : Ty) (qualifier : Option String) (method : String)
    (args : List Argument) (span : Span) :
    callMethod ctx' receiver qualifier method args span =
      callMethod ctx receiver qualifier method args span := by
  -- a call takes from a signature what does not mention its node
  have htarget : ∀ s : Signature, (s.rename f).callTarget = s.callTarget := fun _ => rfl
  cases qualifier with
  | some trait =>
    simp only [Check.callMethod, Registry.qualifiedOutcome, h.applyTarget, h.registry.qualified]
    cases ctx.registry.resolveQualified receiver trait method <;> rfl
  | none =>
    by_cases hany : receiver = .any
    · subst hany
      rfl
    have htrait : callTraitMethod ctx' receiver method args span =
        callTraitMethod ctx receiver method args span := by
      simp only [callTraitMethod, h.applyTarget, h.registry.plain receiver method hany]
      cases ctx.registry.resolveMethod receiver method <;> rfl
    simp only [Check.callMethod, h.applyTarget, htrait, h.decls.methodOf]
    split
    · rfl
    · cases ctx.decls.methodOf receiver method with
      | none => rfl
      | some s => simp only [Option.map_some, htarget]

/-- Of the scope that binds a called name it only matters whether it is the global one. -/
theorem callSymbol {owner owner' : ScopeId} (howner : owner = .global ↔ owner' = .global)
    (symbol : Symbol) (args : List Argument) (span : Span) :
    callSymbol ctx' owner' (symbol.rename f) args span =
      callSymbol ctx owner symbol args span := by
  have hname : (symbol.rename f).name = symbol.name := rfl
  have hkind : (symbol.rename f).kind = symbol.kind := rfl
  have hintrinsic : intrinsicType? ctx'.table owner' (symbol.rename f) =
      intrinsicType? ctx.table owner symbol := by
    simp only [intrinsicType?, Symbol.rename, howner, Option.map_eq_none_iff, h.intrinsics]
  have hparams : symbolTypeParams ctx'.table (symbol.rename f) =
      symbolTypeParams ctx.table symbol := by
    simp only [symbolTypeParams, Symbol.rename]
    cases symbol.origin with
    | none => rfl
    | some id =>
      simp only [Option.map_some, Option.bind_some, h.functions]
      cases ctx.table.functions.get? id <;> rfl
  simp only [Check.callSymbol, hintrinsic, hparams, hname, hkind, Symbol.ty_rename, h.applyTarget]

/-- What a function promises. -/
theorem frameOf (d : FunctionDecl) :
    Check.frameOf ctx'.table (d.rename f) = Check.frameOf ctx.table d := by
  have hsignature : ctx'.table.functions.get? (d.rename f).node.id =
      (ctx.table.functions.get? d.node.id).map (Signature.rename f) := h.functions d.node.id
  simp only [Check.frameOf, hsignature]
  cases ctx.table.functions.get? d.node.id <;> rfl

end Context.Renames

end UnitAnalysis

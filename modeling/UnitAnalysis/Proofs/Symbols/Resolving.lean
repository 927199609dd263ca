import UnitAnalysis.Proofs.Declared.Resolution
import UnitAnalysis.Proofs.Meets
import UnitAnalysis.Symbols.Declare

/-!
# Steps that resolve

Parameters, fields and signatures are put together by steps that resolve written types. `Resolves`
says what such steps do besides, so whatever minds none of this is shown for all of them at once.

Where every written type resolves to a type of some kind, so do the types of parameters, fields and
methods. The steps that resolve them keep every invariant that does not mind reports and notes.
-/

set_option autoImplicit false

namespace UnitAnalysis

/-- A condition on type parameters that all entries in force meet is met after resolving. -/
theorem TypeExpr.params_resolve {g : Generics} {allowed : String × NameSet → Prop}
    (hg : ∀ layer ∈ g.layers, ∀ p ∈ layer.2.params, allowed p) (ix : DeclIndex) (e : TypeExpr) :
    ∀ p ∈ (e.resolve ix g).1.params, allowed p := by
  intro p hp
  obtain ⟨name, entry, ⟨inner, outer, hlayers, -⟩, hentry⟩ := (madeOf_resolve e).mem_params p hp
  exact hg (name, entry) (by rw [hlayers]; simp) p hentry

namespace Build

/-! ## What is done -/

/-- A step resolves written types. Besides, it reports second members of a name, and it makes notes:
types of the nodes that are `noted`, signatures of those that are `signed`. -/
inductive Resolves (noted signed : NodeId → Prop) : {α : Type} → Build α → Prop
  | pure {α : Type} (a : α) : Resolves noted signed (Pure.pure a)
  | bind {α β : Type} {x : Build α} {f : α → Build β} (hx : Resolves noted signed x)
      (hf : ∀ a, Resolves noted signed (f a)) : Resolves noted signed (x >>= f)
  | resolve (g : Generics) (e : TypeExpr) : Resolves noted signed (Build.resolve g e)
  | duplicate (owner name : String) (site : Span) :
      Resolves noted signed (report [⟨.duplicateMember owner name, site⟩])
  | annotate {id : NodeId} (hid : noted id) (t : Ty) : Resolves noted signed (Build.annotate id t)
  | sign {s : Signature} (hs : signed s.origin) : Resolves noted signed (recordSignature s)

section Resolves

variable {noted signed : NodeId → Prop} {g : Generics}

theorem resolves_resolveAll (es : List TypeExpr) : Resolves noted signed (resolveAll g es) := by
  induction es with
  | nil => exact .pure _
  | cons e es ih => exact .bind (.resolve g e) fun _ => .bind ih fun _ => .pure _

theorem resolves_resolveOption (e : Option TypeExpr) :
    Resolves noted signed (resolveOption g e) := by
  cases e with
  | none => exact .pure _
  | some e => exact .bind (.resolve g e) fun _ => .pure _

theorem resolves_resolveIntrinsics (extra : List (String × TypeExpr)) :
    Resolves noted signed (resolveIntrinsics extra) := by
  induction extra with
  | nil => exact .pure _
  | cons p rest ih => exact .bind (.resolve {} p.2) fun _ => .bind ih fun _ => .pure _

theorem resolves_resolveParams (params : List Param) :
    Resolves noted signed (resolveParams g params) := by
  induction params with
  | nil => exact .pure _
  | cons p ps ih => exact .bind (.resolve g p.ty) fun _ => .bind ih fun _ => .pure _

theorem resolves_methodSignature (m : MethodSig) :
    Resolves noted signed (methodSignature g m) :=
  .bind (resolves_resolveParams _) fun _ => .bind (resolves_resolveOption _) fun _ => .pure _

theorem resolves_methodSignatures (ms : List MethodSig) :
    Resolves noted signed (methodSignatures g ms) := by
  induction ms with
  | nil => exact .pure _
  | cons m ms ih => exact .bind (resolves_methodSignature m) fun _ => .bind ih fun _ => .pure _

theorem resolves_functionSignature {f : FunctionDecl} (hf : signed f.node.id) :
    Resolves noted signed (functionSignature g f) := by
  -- The signature has the identity of the function only once it is put together.
  unfold functionSignature methodSignature
  simp only [bind_assoc, pure_bind]
  refine .bind (resolves_resolveParams _) fun _ => .bind (resolves_resolveOption _) fun _ => ?_
  exact .bind (.sign hf) fun _ => .pure _

theorem resolves_functionSignatures {fs : List FunctionDecl} (hfs : ∀ f ∈ fs, signed f.node.id) :
    Resolves noted signed (functionSignatures g fs) := by
  induction fs with
  | nil => exact .pure _
  | cons f fs ih =>
    obtain ⟨hf, hrest⟩ := List.forall_mem_cons.1 hfs
    exact .bind (resolves_functionSignature hf) fun _ => .bind (ih hrest) fun _ => .pure _

theorem resolves_resolveFields {owner : String} {isFrozen : Bool} {before : List Field}
    {fields : List FieldDecl} (hfields : ∀ f ∈ fields, noted f.node.id) :
    Resolves noted signed (resolveFields owner isFrozen g before fields) := by
  induction fields generalizing before with
  | nil => exact .pure _
  | cons f fs ih =>
    obtain ⟨hf, hrest⟩ := List.forall_mem_cons.1 hfields
    unfold resolveFields
    refine .bind (.resolve g f.ty) fun ty => .bind (.annotate hf ty) fun _ => ?_
    split
    · exact .bind (.duplicate ..) fun _ => ih hrest
    · exact ih hrest

theorem resolves_collectMethods {owner : String} {fields : List Field}
    {before : Table String Signature} {methods : List FunctionDecl}
    (hmethods : ∀ f ∈ methods, signed f.node.id) :
    Resolves noted signed (collectMethods owner fields g before methods) := by
  induction methods generalizing before with
  | nil => exact .pure _
  | cons m ms ih =>
    obtain ⟨hm, hrest⟩ := List.forall_mem_cons.1 hmethods
    unfold collectMethods
    refine .bind (resolves_functionSignature hm) fun s => ?_
    split
    · exact .bind (.duplicate ..) fun _ => ih hrest
    · exact ih hrest

end Resolves

/-! ## What is given -/

variable {I : Builder → Prop} {V : Ty → Prop} {g : Generics}
  (hreport : ∀ found, Keeps I (report found))

section Types

variable (hg : ∀ ix (e : TypeExpr), V (e.resolve ix g).1)

include hreport hg

theorem gives_resolve (e : TypeExpr) : Gives I V (resolve g e) :=
  Gives.look fun b _ => (hreport _).bind fun _ => Gives.pure (hg b.table.decls e)

theorem gives_resolveAll (es : List TypeExpr) :
    Gives I (fun ts => ∀ t ∈ ts, V t) (resolveAll g es) := by
  induction es with
  | nil => exact Gives.pure (by simp)
  | cons e es ih =>
    exact (gives_resolve hreport hg e).bind fun t ht => ih.bind fun ts hts =>
      Gives.pure (List.forall_mem_cons.2 ⟨ht, hts⟩)

theorem gives_resolveOption (e : Option TypeExpr) :
    Gives I (fun o => ∀ t ∈ o, V t) (resolveOption g e) := by
  cases e with
  | none => exact Gives.pure (by simp)
  | some e =>
    refine (gives_resolve hreport hg e).bind fun t ht => Gives.pure fun u hu => ?_
    cases hu
    exact ht

theorem gives_resolveParams (ps : List Param) :
    Gives I (fun ts => ∀ p ∈ ts, V p.2) (resolveParams g ps) := by
  induction ps with
  | nil => exact Gives.pure (by simp)
  | cons p ps ih =>
    exact (gives_resolve hreport hg p.ty).bind fun t ht => ih.bind fun ts hts =>
      Gives.pure (List.forall_mem_cons.2 ⟨ht, hts⟩)

/-- Fields have names of their own. -/
theorem gives_resolveFields (hannotate : ∀ id t, V t → Keeps I (annotate id t)) (owner : String)
    (isFrozen : Bool) (fs : List FieldDecl) {before : List Field}
    (hbefore : (∀ f ∈ before, V f.ty) ∧ (before.map fun f => f.name).Nodup) :
    Gives I (fun fields => (∀ f ∈ fields, V f.ty) ∧ (fields.map fun f => f.name).Nodup)
      (resolveFields owner isFrozen g before fs) := by
  induction fs generalizing before with
  | nil => exact Gives.pure hbefore
  | cons f fs ih =>
    refine (gives_resolve hreport hg f.ty).bind fun t ht => (hannotate _ _ ht).bind fun _ => ?_
    split
    · exact (hreport _).bind fun _ => ih hbefore
    · next hnew =>
        refine ih ⟨List.forall_mem_append.2 ⟨hbefore.1, List.forall_mem_singleton.2 ht⟩, ?_⟩
        rw [List.map_append, List.nodup_append]
        refine ⟨hbefore.2, by simp, ?_⟩
        simpa using hnew

end Types

include hreport

theorem gives_collectMethods {W : Signature → Prop} (owner : String) (fields : List Field)
    {ms : List FunctionDecl} (hms : ∀ m ∈ ms, Gives I W (functionSignature g m))
    {before : Table String Signature} (hbefore : ∀ name s, before.get? name = some s → W s) :
    Gives I (fun methods => ∀ name s, methods.get? name = some s → W s)
      (collectMethods owner fields g before ms) := by
  induction ms generalizing before with
  | nil => exact Gives.pure hbefore
  | cons m ms ih =>
    obtain ⟨hm, hrest⟩ := List.forall_mem_cons.1 hms
    refine hm.bind fun s hs => ?_
    split
    · exact (hreport _).bind fun _ => ih hrest hbefore
    · exact ih hrest (Table.forall_get?_insert hs hbefore)

end Build

end UnitAnalysis

import UnitAnalysis.Proofs.Order.Fill

/-!
# Names of bodies

The constructs of a body give names to the scopes that they open: parameters, the names of patterns,
the fields and methods of a class. Which names these are depends on the construct, on what is shown
for its own nodes and on the declared types, so each of these steps fills the scopes of two
constructions in the same way, whatever numbers the scopes have.
-/

set_option autoImplicit false

namespace UnitAnalysis

/-- The keys of declared types. -/
def Key.index : Set Key :=
  fun
    | .declared _ => True
    | .type _ => True
    | .node _ => False
    | .global _ => False

/-- Constructions that agree on the declared types have the same of them. -/
theorem Builder.AgreeOn.alike {b b' : Builder} (h : AgreeOn Key.index b b') :
    b.table.decls.Alike b'.table.decls where
  get? name := congrArg Prod.fst (h (.type name) trivial)
  variant? name := congrArg Prod.snd (h (.type name) trivial)

/-- Steps annotate some nodes only. -/
def AnnotatesWithin (ids : List NodeId) (steps : List BindStep) : Prop :=
  ∀ id t, .annotate id t ∈ steps → id ∈ ids

/-- The steps of a pattern annotate nodes of the pattern. -/
theorem Pattern.annotatesWithin_steps (ix : DeclIndex) (g : Generics) (declared : Option Ty)
    (p : Pattern) : AnnotatesWithin p.ids (p.steps ix g declared) := by
  intro id t ht
  cases p.possible_steps ix g declared _ ht with
  | annotate ty hid => exact hid

namespace Build

open Builder

variable {W : Set Key}

theorem declared_mem_index (name : String) : .declared name ∈ Key.index :=
  trivial

variable {owner : Option NodeId} {scope scope' : ScopeId} {ids : List NodeId}

variable (howner : ∀ name, symbolKey owner name ∈ W)

include howner

/-- Carrying out steps gives names to a scope and types to nodes. -/
theorem fills_runSteps (isMutable : Bool) (site : Span)
    {steps : List BindStep} (hsteps : AnnotatesWithin ids steps) (hids : ∀ id ∈ ids, .node id ∈ W)
    (seen : List String) :
    Fills W Key.index owner scope scope' (runSteps scope isMutable site seen steps)
      (runSteps scope' isMutable site seen steps) := by
  induction steps generalizing seen with
  | nil => exact .pure _
  | cons step rest ih =>
    have hrest := ih fun id t ht => hsteps id t (List.mem_cons_of_mem _ ht)
    cases step with
    | report finding => exact (fills_report _).bind fun _ => hrest seen
    | annotate id t =>
      have hid : .node id ∈ W := hids id (hsteps id t List.mem_cons_self)
      exact (fills_annotate hid t).bind fun _ => hrest seen
    | bind name node declared =>
      unfold runSteps
      split
      · exact (fills_report _).bind fun _ => hrest seen
      · exact (fills_define (howner _) site).bind fun _ => hrest (name :: seen)

theorem fills_definePattern (g : Generics)
    (isMutable : Bool) (declared : Option Ty) (site : Span) {p : Pattern}
    (hids : ∀ id ∈ p.ids, .node id ∈ W) :
    Fills W Key.index owner scope scope' (definePattern g scope isMutable declared site p)
      (definePattern g scope' isMutable declared site p) := by
  unfold definePattern
  refine (fills_visitAll _ _).bind fun _ => .get_bind fun b b' _ hindex => ?_
  rw [hindex.alike.steps g declared p]
  exact fills_runSteps howner isMutable site (p.annotatesWithin_steps _ g declared) hids []

theorem fills_defineLet (g : Generics) {node : Node}
    {p : Pattern} (ty : Option TypeExpr) (isMutable : Bool) (hid : .node node.id ∈ W)
    (hids : ∀ id ∈ p.ids, .node id ∈ W) :
    Fills W Key.index owner scope scope' (defineLet g scope node p ty isMutable)
      (defineLet g scope' node p ty isMutable) := by
  unfold defineLet
  refine (fills_resolveOption declared_mem_index g ty).bind fun declared => ?_
  have hpattern : Fills W Key.index owner scope scope'
      (definePattern g scope isMutable declared node.span p)
      (definePattern g scope' isMutable declared node.span p) :=
    fills_definePattern howner g isMutable declared node.span hids
  cases declared with
  | none => exact hpattern
  | some t => exact (fills_annotate hid t).bind fun _ => hpattern

theorem fills_defineLambdaParams (g : Generics) (site : Span) {params : List LambdaParam}
    (hids : ∀ id ∈ params.map fun p => p.node.id, .node id ∈ W) :
    Fills W Key.index owner scope scope' (defineLambdaParams g scope site params)
      (defineLambdaParams g scope' site params) := by
  induction params with
  | nil => exact .pure _
  | cons p ps ih =>
    unfold defineLambdaParams
    refine (fills_resolveOption declared_mem_index g p.ty).bind fun declared => ?_
    have hrest := ih fun id hid => hids id (List.mem_cons_of_mem _ hid)
    cases declared with
    | none => exact (fills_define (howner _) site).bind fun _ => hrest
    | some t =>
      refine (fills_annotate (hids p.node.id List.mem_cons_self) t).bind fun _ => ?_
      exact (fills_define (howner _) site).bind fun _ => hrest

theorem fills_defineException (g : Generics)
    {node : Node} (name : String) (ty : Option TypeExpr) (hid : .node node.id ∈ W) :
    Fills W Key.index owner scope scope' (defineException g scope node name ty)
      (defineException g scope' node name ty) := by
  unfold defineException
  refine (fills_resolveOption declared_mem_index g ty).bind fun t => ?_
  refine (fills_annotate hid _).bind fun _ => ?_
  exact (fills_define (howner _) _).bind fun _ => .pure _

theorem fills_defineConcurrent (bindings : List ConcurrentBinding) :
    Fills W Key.index owner scope scope' (defineConcurrent scope bindings)
      (defineConcurrent scope' bindings) := by
  induction bindings with
  | nil => exact .pure _
  | cons b bs ih => exact (fills_tryDefine (howner _)).bind fun _ => ih

theorem fills_defineParams (site : Span)
    {params : List Param} (hids : ∀ id ∈ params.map fun p => p.node.id, .node id ∈ W)
    (types : List Ty) :
    Fills W Key.index owner scope scope' (defineParams scope site params types)
      (defineParams scope' site params types) := by
  induction params generalizing types with
  | nil => exact .pure _
  | cons p ps ih =>
    unfold defineParams
    refine (fills_annotate (hids p.node.id List.mem_cons_self) _).bind fun _ => ?_
    refine (fills_define (howner _) site).bind fun _ => ?_
    exact ih (fun id hid => hids id (List.mem_cons_of_mem _ hid)) types.tail

theorem fills_defineFields {fields : List FieldDecl} (hids : ∀ f ∈ fields, .node f.node.id ∈ W) :
    Fills W Key.index owner scope scope' (defineFields scope fields)
      (defineFields scope' fields) := by
  induction fields with
  | nil => exact .pure _
  | cons f fs ih =>
    unfold defineFields
    refine .get_bind fun b b' hW _ => ?_
    have htype : b.table.annotations.get? f.node.id = b'.table.annotations.get? f.node.id :=
      congrArg NodeRecord.annotation (hW _ (hids f List.mem_cons_self))
    rw [htype]
    refine (fills_tryDefine (howner _)).bind fun _ => ?_
    exact ih fun f hf => hids f (List.mem_cons_of_mem _ hf)

theorem fills_defineMethods
    {methods : List FunctionDecl} (hids : ∀ f ∈ methods, .node f.node.id ∈ W) :
    Fills W Key.index owner scope scope' (defineMethods scope methods)
      (defineMethods scope' methods) := by
  induction methods with
  | nil => exact .pure _
  | cons f fs ih =>
    unfold defineMethods
    refine .get_bind fun b b' hW _ => ?_
    have hsignature : b.table.functions.get? f.node.id = b'.table.functions.get? f.node.id :=
      congrArg NodeRecord.signature (hW _ (hids f List.mem_cons_self))
    rw [hsignature]
    refine (fills_tryDefine (howner _)).bind fun _ => ?_
    exact ih fun f hf => hids f (List.mem_cons_of_mem _ hf)

end Build

end UnitAnalysis

import UnitAnalysis.Analysis
import UnitAnalysis.Proofs.Symbols.Globals

/-!
# A unit without the body of a function

A `Gap` is a unit in which the body of one function or method is left out, and `Gap.fill` puts a
body there. Every function of a unit leaves such a gap (`SourceUnit.exists_gap`).

The analysis of a unit comes by the function twice: once when the construction of the symbol table
walks through the bodies, and once when the bodies are checked. `Gap.unit_eq` and `Gap.check_eq` cut
the two ways there. What comes before the first walk through the body does not depend on the body,
because declarations are read by their heads (`Gap.upToVisit_eq`).
-/

set_option autoImplicit false

namespace UnitAnalysis

/-! ## Functions and their places -/

/-- The function with a given head and body. -/
def MethodSig.withBody (m : MethodSig) (body : Block) : FunctionDecl :=
  { node := m.node, name := m.name, typeParams := m.typeParams, params := m.params,
    returnType := m.returnType, isAsync := m.isAsync, body }

/-- A function without its body. -/
def FunctionDecl.head (f : FunctionDecl) : MethodSig :=
  { node := f.node, name := f.name, typeParams := f.typeParams, params := f.params,
    returnType := f.returnType, isAsync := f.isAsync }

/-- Where a function stands: on its own, or among methods. A class or implementation is given here
with the methods before the function, and the methods after it follow. -/
inductive Holder where
  | alone
  | classLike (c : ClassDecl) (later : List FunctionDecl)
  | impl (i : ImplDecl) (later : List FunctionDecl)

namespace Holder

/-- The methods before the function. -/
def earlier : Holder → List FunctionDecl
  | alone => []
  | classLike c _ => c.methods
  | impl i _ => i.methods

/-- The methods after the function. -/
def later : Holder → List FunctionDecl
  | alone => []
  | classLike _ later => later
  | impl _ later => later

/-- The declaration with the function in it. -/
def decl (f : FunctionDecl) : Holder → Decl
  | alone => .function f
  | classLike c later => .classLike { c with methods := c.methods ++ f :: later }
  | impl i later => .impl { i with methods := i.methods ++ f :: later }

/-- What there is of the declaration without the function. -/
def others : Holder → List Decl
  | alone => []
  | classLike c later => [.classLike { c with methods := c.methods ++ later }]
  | impl i later => [.impl { i with methods := i.methods ++ later }]

theorem ids_decl (h : Holder) (f : FunctionDecl) :
    (h.decl f).ids.Perm (f.ids ++ h.others.flatMap Decl.ids) := by
  rw [List.perm_iff_count]
  intro id
  cases h <;>
    simp [decl, others, Decl.ids, List.flatMap_append, List.count_cons] <;> omega

end Holder

theorem Decl.exists_holder {d : Decl} {f : FunctionDecl} (hf : f ∈ d.functions) :
    ∃ h : Holder, h.decl f = d := by
  cases d with
  | function f' =>
    obtain rfl := List.mem_singleton.1 hf
    exact ⟨.alone, rfl⟩
  | classLike c =>
    obtain ⟨earlier, later, hmethods⟩ := List.append_of_mem hf
    refine ⟨.classLike { c with methods := earlier } later, ?_⟩
    change Decl.classLike { c with methods := earlier ++ f :: later } = .classLike c
    rw [← hmethods]
    rfl
  | impl i =>
    obtain ⟨earlier, later, hmethods⟩ := List.append_of_mem hf
    refine ⟨.impl { i with methods := earlier } later, ?_⟩
    change Decl.impl { i with methods := earlier ++ f :: later } = .impl i
    rw [← hmethods]
    rfl
  | _ => exact absurd hf (List.not_mem_nil)

/-- A unit in which the body of a function is left out. -/
structure Gap where
  /-- The unit with the declarations before the one of the function. -/
  unit : SourceUnit
  /-- The place of the function in its declaration. -/
  holder : Holder
  /-- The function without its body. -/
  head : MethodSig
  /-- The declarations after the one of the function. -/
  after : List Decl

namespace Gap

variable (g : Gap) (body : Block)

/-- The function with a body. -/
def function : FunctionDecl :=
  g.head.withBody body

/-- The unit with a body for the function. -/
def fill : SourceUnit :=
  { g.unit with decls := g.unit.decls ++ g.holder.decl (g.function body) :: g.after }

/-- The declarations without the function. -/
def others : List Decl :=
  g.unit.decls ++ (g.holder.others ++ g.after)

/-- The identities of the nodes of the unit, without those of the body. -/
def ids : List NodeId :=
  g.unit.node.id :: (g.head.ids ++ g.others.flatMap Decl.ids)

theorem ids_function : (g.function body).ids = g.head.ids ++ body.ids := rfl

/-- A unit has the nodes of the gap and those of the body. -/
theorem ids_fill : (g.fill body).ids.Perm (g.ids ++ body.ids) := by
  have hdecl := List.perm_iff_count.1 (g.holder.ids_decl (g.function body))
  rw [List.perm_iff_count]
  intro id
  have hcount := hdecl id
  rw [ids_function] at hcount
  simp only [fill, SourceUnit.ids, ids, others, List.flatMap_append, List.flatMap_cons,
    List.count_append, List.count_cons] at hcount ⊢
  omega

end Gap

/-- Every function of a unit leaves a gap when its body is taken out. -/
theorem SourceUnit.exists_gap {u : SourceUnit} {f : FunctionDecl} (hf : f ∈ u.functions) :
    ∃ g : Gap, g.fill f.body = u ∧ g.function f.body = f := by
  obtain ⟨d, hd, hfd⟩ := List.mem_flatMap.1 hf
  obtain ⟨before, after, hdecls⟩ := List.append_of_mem hd
  obtain ⟨h, rfl⟩ := Decl.exists_holder hfd
  refine ⟨⟨{ u with decls := before }, h, f.head, after⟩, ?_, rfl⟩
  change { u with decls := before ++ h.decl f :: after } = u
  rw [← hdecls]

/-! ## The construction, cut at the function -/

/-- What the walk through a function starts from. -/
structure Entrance where
  /-- The type parameters around the function, and the meaning of `Self`. -/
  generics : Generics := {}
  /-- The scope around the function. -/
  scope : ScopeId := .global
  /-- The type of `self` in a method. -/
  self : Option Ty := none

namespace Build

/-- The walk through a function from where it stands. -/
def visitFrom (e : Entrance) (f : FunctionDecl) : Build Unit :=
  visitFunction e.generics e.scope e.self f

/-- The walk as far as the methods of a declaration, one of which is given. -/
def enterHolder (f : FunctionDecl) : Holder → Build Entrance
  | .alone => return {}
  | .classLike c later => do
    let ix := (← get).table.decls
    let g := typeGenerics ix c.name c.typeParams
    let scope ← enter .global .classBody c.node.id
    defineFields scope c.fields
    defineMethods scope (c.methods ++ f :: later)
    visitInitializers g scope c.fields
    return ⟨g, scope, some (selfType ix c.name)⟩
  | .impl i _ => do
    let target := match (← get).impls.find? fun impl => impl.origin = i.node.id with
      | some impl => impl.target
      | none => .any
    return ⟨(Generics.extend {} i.typeParams).withAlias "Self" target, .global, some target⟩

theorem visitMethods_eq (g : Generics) (parent : ScopeId) (self : Ty) (fs : List FunctionDecl) :
    visitMethods g parent self fs = fs.forM (visitFrom ⟨g, parent, some self⟩) := by
  induction fs with
  | nil => rfl
  | cons f fs ih => exact bind_congr fun _ => ih

/-- A declaration is walked through as far as its methods, and then method by method. -/
theorem visitDecl_decl (h : Holder) (f : FunctionDecl) :
    visitDecl (h.decl f) =
      enterHolder f h >>= fun e => (h.earlier ++ f :: h.later).forM (visitFrom e) := by
  cases h with
  | alone =>
    simp only [enterHolder, pure_bind]
    exact (bind_pure _).symm
  | classLike c later =>
    simp only [enterHolder, bind_assoc, pure_bind]
    exact bind_congr fun _ => bind_congr fun _ => bind_congr fun _ => bind_congr fun _ =>
      bind_congr fun _ => visitMethods_eq _ _ _ _
  | impl i later =>
    simp only [enterHolder, bind_assoc, pure_bind]
    exact bind_congr fun _ => visitMethods_eq _ _ _ _

end Build

namespace Gap

variable (g : Gap) (intrinsics : List (String × TypeExpr)) (body : Block)

/-- The walk through the bodies as far as the function. -/
def lead : Build Entrance := do
  g.unit.decls.forM Build.visitDecl
  let e ← Build.enterHolder (g.function body) g.holder
  g.holder.earlier.forM (Build.visitFrom e)
  return e

/-- The construction up to the walk through the function. -/
def upToVisit : Build Entrance := do
  Build.declare intrinsics (g.fill body)
  g.lead body

/-- The construction after the walk through the function. -/
def afterVisit (e : Entrance) : Build Unit := do
  g.holder.later.forM (Build.visitFrom e)
  g.after.forM Build.visitDecl

/-- The construction is cut at the walk through the function. -/
theorem unit_eq :
    Build.unit intrinsics (g.fill body) =
      g.upToVisit intrinsics body >>= fun e =>
        Build.visitFrom e (g.function body) >>= fun _ => g.afterVisit e := by
  simp only [Build.unit_eq, upToVisit, lead, afterVisit, bind_assoc, pure_bind]
  congr 1
  funext _
  simp only [fill, List.forM_eq_forM, List.forM_append, List.forM_cons, Build.visitDecl_decl,
    bind_assoc]

end Gap

/-! ## What is read of a body that is not looked into -/

namespace Build

variable (m : MethodSig) (body body' : Block) (earlier later : List FunctionDecl)

theorem functionSignatures_withBody (g : Generics) :
    functionSignatures g (earlier ++ m.withBody body :: later) =
      functionSignatures g (earlier ++ m.withBody body' :: later) := by
  induction earlier with
  | nil => rfl
  | cons f fs ih => simp only [List.cons_append, functionSignatures, ih]

theorem collectMethods_withBody (owner : String) (fields : List Field) (g : Generics)
    (before : Table String Signature) :
    collectMethods owner fields g before (earlier ++ m.withBody body :: later) =
      collectMethods owner fields g before (earlier ++ m.withBody body' :: later) := by
  induction earlier generalizing before with
  | nil => rfl
  | cons f fs ih => simp only [List.cons_append, collectMethods, ih]

theorem defineMethods_withBody (scope : ScopeId) :
    defineMethods scope (earlier ++ m.withBody body :: later) =
      defineMethods scope (earlier ++ m.withBody body' :: later) := by
  induction earlier with
  | nil => rfl
  | cons f fs ih => simp only [List.cons_append, defineMethods, ih]

variable (h : Holder)

theorem declareType_withBody :
    declareType (h.decl (m.withBody body)) = declareType (h.decl (m.withBody body')) := by
  cases h <;> rfl

theorem declareMembers_withBody :
    declareMembers (h.decl (m.withBody body)) = declareMembers (h.decl (m.withBody body')) := by
  cases h with
  | alone => rfl
  | classLike c later =>
    simp only [Holder.decl, declareMembers, declareClass, collectMethods_withBody m body body']
  | impl i later =>
    simp only [Holder.decl, declareMembers, declareImpl, functionSignatures_withBody m body body']

theorem enterHolder_withBody :
    enterHolder (m.withBody body) h = enterHolder (m.withBody body') h := by
  cases h with
  | alone => rfl
  | classLike c later => simp only [enterHolder, defineMethods_withBody m body body']
  | impl i later => rfl

end Build

/-- The construction is the same for all bodies until it walks through the body. -/
theorem Gap.upToVisit_eq (g : Gap) (intrinsics : List (String × TypeExpr)) (body body' : Block) :
    g.upToVisit intrinsics body = g.upToVisit intrinsics body' := by
  simp only [upToVisit, lead, Build.declare, fill, function, List.forM_eq_forM, List.forM_append,
    List.forM_cons, Build.declareType_withBody g.head body body',
    Build.declareMembers_withBody g.head body body', Build.enterHolder_withBody g.head body body']

/-! ## The check, cut at the function -/

namespace Holder

/-- The scope around the function. -/
def place (t : SymbolTable) : Holder → ScopeId
  | classLike c _ => t.scopeFor c.node.id .global
  | alone | impl _ _ => .global

/-- The fields that are checked before the methods. -/
def checkFields (ctx : Context) : Holder → Check Unit
  | classLike c _ =>
    c.fields.forM (Check.initializer ctx (ctx.table.scopeFor c.node.id .global) c.name)
  | alone | impl _ _ => return ()

theorem declScript_decl (ctx : Context) (h : Holder) (f : FunctionDecl) :
    Check.declScript ctx (h.decl f) = return () := by
  cases h <;> rfl

/-- The fields of a declaration are checked first, and then method by method. -/
theorem declBodies_decl (ctx : Context) (h : Holder) (f : FunctionDecl) :
    Check.declBodies ctx (h.decl f) =
      h.checkFields ctx >>= fun _ =>
        (h.earlier ++ f :: h.later).forM (Check.function ctx (h.place ctx.table)) := by
  cases h with
  | alone =>
    simp only [checkFields, pure_bind]
    exact (bind_pure _).symm
  | classLike c later => rfl
  | impl i later =>
    simp only [checkFields, pure_bind]
    rfl

end Holder

namespace Gap

variable (g : Gap) (ctx : Context)

/-- The check up to the function. -/
def upToCheck : Check Unit := do
  g.unit.decls.forM (Check.declScript ctx)
  g.after.forM (Check.declScript ctx)
  g.unit.decls.forM (Check.declBodies ctx)
  g.holder.checkFields ctx
  g.holder.earlier.forM (Check.function ctx (g.holder.place ctx.table))

/-- The check after the function. -/
def afterCheck : Check Unit := do
  g.holder.later.forM (Check.function ctx (g.holder.place ctx.table))
  g.after.forM (Check.declBodies ctx)

/-- The check is cut at the function. -/
theorem check_eq (body : Block) :
    Check.unit ctx (g.fill body) =
      g.upToCheck ctx >>= fun _ =>
        Check.function ctx (g.holder.place ctx.table) (g.function body) >>= fun _ =>
          g.afterCheck ctx := by
  have hrounds (u : SourceUnit) : Check.unit ctx u =
      u.decls.forM (Check.declScript ctx) >>= fun _ => u.decls.forM (Check.declBodies ctx) := rfl
  simp only [hrounds, fill, upToCheck, afterCheck, List.forM_eq_forM, List.forM_append,
    List.forM_cons, Holder.declScript_decl, Holder.declBodies_decl, bind_assoc, pure_bind]

end Gap

end UnitAnalysis

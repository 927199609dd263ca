import UnitAnalysis.Check.Unit
import UnitAnalysis.Proofs.Generic.Declare

/-!
# Type parameters in the types of bodies

A check finds for the nodes of a function only types with the type parameters of the function, and
those that may occur everywhere. A call puts the type parameters of what is called away: each takes
its type from an argument or becomes `Any`.
-/

set_option autoImplicit false

namespace UnitAnalysis

variable {P : Provenance} {around : ScopeId → List String} {params : List String}

/-! ## Symbols -/

namespace Symbol.Obeys

variable {functions : Table NodeId Signature} {s : Symbol}

/-- More parameters may be allowed. -/
theorem mono (h : s.Obeys P functions params) {more : List String} (hsub : params ⊆ more) :
    s.Obeys P functions more := by
  refine ⟨fun hkind => (h.value hkind).mono ?_, h.typed, h.function, h.named⟩
  exact List.append_subset.2 ⟨fun name hname => List.mem_append_left _ (hsub hname),
    List.subset_append_right _ _⟩

/-- A name without a type may receive one that may occur where it is. Functions have a type. -/
theorem resolve (h : s.Obeys P functions params) {t : Ty} (ht : t.Within (params ++ P.free)) :
    Symbol.Obeys P functions params { s with declaredType := s.declaredType.or (some t) } := by
  cases hdeclared : s.declaredType with
  | some u =>
    have hsame : { s with declaredType := some u } = s := by rw [← hdeclared]
    rw [Option.some_or, hsame]
    exact h
  | none =>
    refine .of_value (fun hkind => ?_) ht
    have htyped := h.typed hkind
    rw [hdeclared] at htyped
    cases htyped

/-- A name that stands for a value has a type that may occur where it is seen. -/
theorem within_of_named (h : s.Obeys P functions params) (hnamed : s.name ∈ P.named) :
    s.ty.Within (params ++ P.free) := by
  by_cases hkind : s.kind = .function
  · exact (h.named hkind hnamed).mono (List.subset_append_right _ _)
  · exact h.value hkind

end Symbol.Obeys

namespace Arena.Obeys

variable {functions : Table NodeId Signature} {a : Arena}

/-- A symbol that is seen from a scope obeys the provenance there. -/
theorem lookupWithScope (h : a.Obeys P functions around) {scope owner : ScopeId} {name : String}
    {s : Symbol} (hs : a.lookupWithScope scope name = some (owner, s)) :
    s.name = name ∧ s.Obeys P functions (around scope) := by
  obtain ⟨i, hi, hlocal⟩ := List.exists_of_findSome?_eq_some hs
  obtain ⟨s', hs', heq⟩ := Option.map_eq_some_iff.1 hlocal
  cases heq
  obtain ⟨hname, hobeys⟩ := h.symbols owner name s hs'
  refine ⟨hname, hobeys.mono ?_⟩
  rcases List.mem_cons.1 hi with rfl | henclosing
  · exact List.Subset.refl _
  · exact (h.nested scope owner henclosing).2

/-- Giving a name a type in bounds. -/
theorem resolveType (h : a.Obeys P functions around) {scope : ScopeId} {t : Ty}
    (ht : t.Within (around scope ++ P.free)) (name : String) :
    (a.resolveType scope name t).Obeys P functions around := by
  have hdefines := a.defines_resolveType scope name t
  refine ⟨fun i other s hs => ?_, fun i j hj => ?_⟩
  · unfold Arena.resolveType at hs
    rw [lookupLocal_modifySymbols] at hs
    split at hs
    · next hi =>
        subst hi
        obtain ⟨entry, hentry, hget⟩ := Option.bind_eq_some_iff.1 hs
        have hlocal (u : Symbol) (hu : entry.symbols.get? other = some u) :
            a.lookupLocal i other = some u := by
          rw [lookupLocal, hentry]
          exact hu
        rw [Table.get?_modify] at hget
        split at hget
        · obtain ⟨old, hold, rfl⟩ := Option.map_eq_some_iff.1 hget
          obtain ⟨hname, hobeys⟩ := h.symbols i other old (hlocal old hold)
          exact ⟨hname, hobeys.resolve ht⟩
        · exact h.symbols i other s (hlocal s hget)
    · exact h.symbols i other s hs
  · rw [hdefines.enclosing] at hj
    rw [hdefines.size]
    exact h.nested i j hj

end Arena.Obeys

/-! ## Steps -/

/-- What a check can see obeys a provenance. -/
structure Context.Obeys (P : Provenance) (around : ScopeId → List String) (ctx : Context) :
    Prop where
  table : ctx.table.Obeys P around
  registry : ctx.registry.Within P.free

/-- A check obeys a provenance. The type of a name that is only called has no bounds. -/
def Session.Obeys (P : Provenance) (functions : Table NodeId Signature)
    (around : ScopeId → List String) (s : Session) : Prop :=
  s.scopes.Obeys P functions around ∧
    ∀ id t, s.types.get? id = some t → id ∉ P.callees → t.Within (P.own id ++ P.free)

namespace Check

variable {functions : Table NodeId Signature} {α : Type}

/-- A step keeps to a provenance. -/
abbrev Keeps (P : Provenance) (functions : Table NodeId Signature) (around : ScopeId → List String)
    (x : Check α) : Prop :=
  UnitAnalysis.Keeps (Session.Obeys P functions around) x

/-- A step keeps to a provenance and gives a value of some kind. -/
abbrev Gives (P : Provenance) (functions : Table NodeId Signature) (around : ScopeId → List String)
    (V : α → Prop) (x : Check α) : Prop :=
  UnitAnalysis.Gives (Session.Obeys P functions around) V x

/-- Reporting. -/
theorem keeps_report (found : List Finding) : Keeps P functions around (report found) :=
  Meets.modify fun _ h => h

/-- Logging a visit. -/
theorem keeps_visit (v : Visit) : Keeps P functions around (visit v) :=
  Meets.modify fun _ h => h

/-- Logging visits. -/
theorem keeps_visitAll (vs : List Visit) : Keeps P functions around (visitAll vs) :=
  Meets.modify fun _ h => h

/-- Asking for an async function. -/
theorem keeps_requireAsync (form : AsyncForm) (span : Span) :
    Keeps P functions around (requireAsync form span) :=
  Keeps.look fun _ _ => keeps_report _

/-- Checking a return. -/
theorem keeps_checkReturn (options : Options) (found : Ty) (span : Span) :
    Keeps P functions around (checkReturn options found span) :=
  Keeps.look fun _ _ => keeps_report _

/-- A judgement gives its value. -/
theorem gives_judge {V : α → Prop} {j : Judged α} (hj : V j.1) :
    Gives P functions around V (judge j) :=
  (keeps_report j.2).bind fun _ => Gives.pure hj

/-- Recording a type within the node's own parameters, unless it is a callee. -/
theorem keeps_record {id : NodeId} {t : Ty}
    (ht : id ∉ P.callees → t.Within (P.own id ++ P.free)) :
    Keeps P functions around (record id t) :=
  Meets.modify fun _ ⟨hscopes, htypes⟩ => ⟨hscopes, Table.forall_get?_insert ht htypes⟩

/-- A type that is found again is in bounds by the record. -/
theorem gives_memo {v : Visit} (hid : v.id ∉ P.callees) (hown : P.own v.id = params)
    {infer : Check Ty} (hinfer : Gives P functions around (Ty.Within (params ++ P.free)) infer) :
    Gives P functions around (Ty.Within (params ++ P.free)) (memo direct v infer) := by
  refine (keeps_visit v).bind fun _ => Gives.look fun s hs => ?_
  split
  · next t ht =>
      have hwithin := hs.2 v.id t ht hid
      rw [hown] at hwithin
      exact Gives.pure hwithin
  · exact hinfer.bind fun t ht => (keeps_record fun _ => hown ▸ ht).bind fun _ => Gives.pure ht

/-- A node that is called on may have any type, when the node is only called. -/
theorem keeps_memo_of_mem {v : Visit} (hid : v.id ∈ P.callees) {infer : Check Ty}
    (hinfer : Keeps P functions around infer) : Keeps P functions around (memo direct v infer) := by
  refine (keeps_visit v).bind fun _ => Keeps.look fun s _ => ?_
  split
  · exact Keeps.pure _
  · exact hinfer.bind fun t => (keeps_record fun h => absurd hid h).bind fun _ => Keeps.pure t

/-- A change of surroundings. -/
theorem gives_inside {V : α → Prop} (enter : Surroundings → Surroundings) {x : Check α}
    (hx : Gives P functions around V x) : Gives P functions around V (inside direct enter x) := by
  have hmodify (f : Session → Surroundings) :
      Keeps P functions around (modify fun s => { s with around := f s }) :=
    Meets.modify fun _ h => h
  refine Gives.look fun s _ => ?_
  refine (hmodify fun s => enter s.around).bind fun _ => hx.bind fun v hv => ?_
  exact (hmodify fun t => t.around.leave s.around.asyncDepth).bind fun _ => Gives.pure hv

section Names

variable {scope : ScopeId} (hscope : around scope = params)

include hscope

/-- Giving a name its type. -/
theorem keeps_resolveName (name : String) {t : Ty} (ht : t.Within (params ++ P.free)) :
    Keeps P functions around (resolveName scope name t) := by
  subst hscope
  exact Meets.modify fun s ⟨hscopes, htypes⟩ => ⟨hscopes.resolveType ht name, htypes⟩

/-- Giving names their types. -/
theorem keeps_resolveNames {names : List (String × Ty)}
    (h : ∀ b ∈ names, b.2.Within (params ++ P.free)) :
    Keeps P functions around (resolveNames scope names) := by
  induction names with
  | nil => exact Keeps.pure ()
  | cons b rest ih =>
    obtain ⟨hb, hrest⟩ := List.forall_mem_cons.1 h
    exact (keeps_resolveName hscope b.1 hb).bind fun _ => ih hrest

/-- The type of a name that stands for a value. -/
theorem within_nameType {scopes : Arena} (h : scopes.Obeys P functions around) {name : String}
    (hname : name ∈ P.named) (span : Span) :
    (nameType (scopes.lookupWithScope scope name) name span).1.Within (params ++ P.free) := by
  unfold nameType
  split
  · next owner s hlookup =>
      obtain ⟨rfl, hobeys⟩ := h.lookupWithScope hlookup
      rw [hscope] at hobeys
      exact hobeys.within_of_named hname
  · exact Ty.within_prim _

end Names

/-! ## Calls of names -/

/-- A symbol's type parameters are its own. -/
theorem filterMap_symbolTypeParams (table : SymbolTable) (s : Symbol) :
    (symbolTypeParams table s).filterMap Ty.paramName? = s.own table.functions := by
  unfold symbolTypeParams Symbol.own
  cases s.origin.bind table.functions.get? with
  | none => rfl
  | some f => rfl

/-- A call of a name puts the type parameters of the function away. -/
theorem within_callSymbol {ctx : Context} (hctx : ctx.Obeys P around) (owner : ScopeId)
    {s : Symbol} (hs : s.Obeys P ctx.table.functions params) {args : List Argument}
    (hargs : ∀ a ∈ args, a.ty.Within (params ++ P.free)) (span : Span) :
    (callSymbol ctx owner s args span).1.Within (params ++ P.free) := by
  unfold callSymbol
  split
  · next ret hret =>
      unfold intrinsicType? at hret
      split at hret
      · exact (hctx.table.intrinsics _ _ hret).mono (List.subset_append_right _ _)
      · cases hret
  · split
    · next ps ret hkind hty =>
        have hfunction := hs.function hkind
        rw [hty] at hfunction
        refine within_applyTarget ((Ty.within_function.1 hfunction).2.mono ?_) hargs
        rw [filterMap_symbolTypeParams]
        exact List.append_subset.2 ⟨List.subset_append_left _ _, fun name hname =>
          List.mem_append_right _ (List.mem_append_right _ hname)⟩
    · next hkind => exact hs.value (by simp [hkind])
    · next hkind => exact hs.value (by simp [hkind])
    · next hother =>
        -- What is left of the functions has a type that is none, and then the call gives `Any`.
        by_cases hkind : s.kind = .function
        · unfold callValue
          split
          · next ps ret hty => exact (hother ps ret hkind hty).elim
          · exact Ty.within_prim _
          · exact Ty.within_prim _
        · exact within_callValue (hs.value hkind)

/-! ## Bodies -/

section Bodies

variable {ctx : Context} (hctx : ctx.Obeys P around)

include hctx

variable {scope : ScopeId}

/-- The scope of a node of a function lies inside the function. -/
theorem around_scopeFor (hscope : around scope = params) {id : NodeId}
    (hown : P.own id = params) : around (ctx.table.scopeFor id scope) = params := by
  unfold SymbolTable.scopeFor
  cases hget : ctx.table.scopeMap.get? id with
  | none => exact hscope
  | some i => exact (hctx.table.remembered id i hget).2.trans hown

/-- Declared types are in bounds everywhere. -/
theorem within_decls : ctx.decls.Within (params ++ P.free) :=
  hctx.table.decls.mono (List.subset_append_right _ _)

/-- An annotation is in bounds where it is written. -/
theorem within_annotation {id : NodeId} (hown : P.own id = params) :
    ∀ t ∈ ctx.table.annotations.get? id, t.Within (params ++ P.free) :=
  fun t ht => hown ▸ hctx.table.annotations id t ht

/-- So are the parameters of a lambda. -/
theorem within_lambdaParamTypes {ps : List LambdaParam}
    (hown : ∀ p ∈ ps, P.own p.node.id = params) :
    ∀ t ∈ lambdaParamTypes ctx.table ps, t.Within (params ++ P.free) := by
  intro t ht
  obtain ⟨p, hp, rfl⟩ := List.mem_map.1 ht
  cases hget : ctx.table.annotations.get? p.node.id with
  | none => exact Ty.within_prim _
  | some u => exact within_annotation hctx (hown p hp) u hget

/-- Binding a pattern. -/
theorem keeps_bindPattern (hscope : around scope = params) (p : Pattern) {t : Ty}
    (ht : t.Within (params ++ P.free)) :
    Keeps P ctx.table.functions around (bindPattern ctx scope p t) :=
  (keeps_visitAll _).bind fun _ =>
    keeps_resolveNames hscope (p.within_typings (within_decls hctx) ht)

/-- Binding a `let`. -/
theorem keeps_bindLet (hscope : around scope = params) {node : Node}
    (hown : P.own node.id = params) (p : Pattern) {value : Ty}
    (hvalue : value.Within (params ++ P.free)) (span : Span) :
    Keeps P ctx.table.functions around (bindLet ctx scope node p value span) := by
  refine UnitAnalysis.Gives.bind (gives_judge (V := Ty.Within (params ++ P.free)) ?_) fun t ht =>
    keeps_bindPattern hctx hscope p ht
  unfold boundType
  split
  · next t ht => exact within_annotation hctx hown t ht
  · exact hvalue

omit hctx in
/-- A name that is called without standing for anything leaves the bounds as they are. -/
theorem keeps_inferName (hscope : around scope = params) {node : Node}
    {name : String} (hallows : P.Allows params (.expr () (.ident node name))) :
    Keeps P functions around (inferExpr ctx scope (.ident node name)) := by
  unfold inferExpr walkExpr
  by_cases hid : node.id ∈ P.callees
  · exact keeps_memo_of_mem hid (Keeps.look fun s _ => (keeps_report _).bind fun _ => Keeps.pure _)
  · have hnamed := hallows.called node.id List.mem_cons_self hid name rfl
    refine (gives_memo hid (hallows.own node.id List.mem_cons_self) ?_).keeps
    exact Gives.look fun s hs => gives_judge (within_nameType hscope hs.1 hnamed node.span)

/-- A call of a name, after its arguments. -/
theorem gives_callName (hscope : around scope = params) {node : Node}
    {name : String} (hallows : P.Allows params (.expr () (.ident node name))) {args : List Argument}
    (hargs : ∀ a ∈ args, a.ty.Within (params ++ P.free)) (span : Span) :
    Gives P ctx.table.functions around (Ty.Within (params ++ P.free)) (do
      match ← direct.search scope name with
      | some (owner, symbol) =>
        record node.id symbol.ty
        judge (callSymbol ctx owner symbol args span)
      | none =>
        let _ ← inferExpr ctx scope (.ident node name)
        return .any) := by
  refine Gives.look fun s hs => ?_
  split
  · next owner symbol hlookup =>
      obtain ⟨hname, hobeys⟩ := hs.1.lookupWithScope hlookup
      rw [hscope] at hobeys
      refine (keeps_record fun hid => ?_).bind fun _ =>
        gives_judge (within_callSymbol hctx owner hobeys hargs span)
      -- The name is not only called, so the type of the symbol may occur everywhere.
      have hnamed := hallows.called node.id List.mem_cons_self hid name rfl
      rw [hallows.own node.id List.mem_cons_self]
      exact hobeys.within_of_named (hname ▸ hnamed)
  · exact (keeps_inferName hscope hallows).bind fun _ => Gives.pure (Ty.within_prim _)

/-- The scope after a statement of a block lies inside the function of the block. -/
theorem around_scopeAfter (hscope : around scope = params) (s : Stmt)
    {rest : List Stmt} (hc : P.Covers params (Stmt.sitesAll blindRules () (s :: rest))) :
    around (scopeAfter ctx.table scope s) = params := by
  match s, hc with
  | .letBind node pattern ty isMutable value, hc =>
    exact around_scopeFor hctx hscope hc.right.opening
  | .expr node value, hc =>
    unfold scopeAfter
    split
    · next heq => cases heq
    · next node' bindings heq =>
        cases heq
        exact around_scopeFor hctx hscope (hc.left.expr.own node'.id List.mem_cons_self)
    · exact hscope

end Bodies

section Inference

variable {ctx : Context} (hctx : ctx.Obeys P around)

include hctx

-- The theorems on lists use the hypothesis through the others alone.
set_option linter.unusedSectionVars false

mutual

/-- Expressions. -/
theorem gives_inferExpr {scope : ScopeId}
    (hscope : around scope = params) (e : Expr) (hread : P.Reads e)
    (hc : P.Covers params (e.sites blindRules ())) :
    Gives P ctx.table.functions around (Ty.Within (params ++ P.free)) (inferExpr ctx scope e) := by
  unfold inferExpr walkExpr
  refine gives_memo (hread.not_mem_callees hc.expr) (hc.expr.own e.id List.mem_cons_self) ?_
  match e, hread, hc with
  | .literal _ value, _, _ => exact Gives.pure (within_literalType value)
  | .ident node name, hread, _ =>
    exact Gives.look fun s hs => gives_judge (within_nameType hscope hs.1 (hread name rfl) _)
  | .binary node op left right, _, hc =>
    refine (gives_inferExpr hscope left hc.operand hc.tail.left).bind fun l _ => ?_
    refine (gives_inferExpr hscope right hc.operand hc.tail.right).bind fun r _ => ?_
    exact gives_judge (within_binaryType _ op l r node.span)
  | .unary node op operand, _, hc =>
    exact (gives_inferExpr hscope operand hc.operand hc.tail).bind fun t ht =>
      gives_judge (within_unaryType op ht node.span)
  | .call node callee args, _, hc =>
    have hread : ∀ a ∈ args, P.Reads a := by
      intro a ha
      exact hc.operand (by cases callee <;> simp [Expr.operands, ha])
    have hvalue (h : P.Reads callee) :
        Gives P ctx.table.functions around (Ty.Within (params ++ P.free)) (do
          let t ← inferExpr ctx scope callee
          judge (callValue t node.span)) :=
      (gives_inferExpr hscope callee h hc.tail.left).bind fun t ht =>
        gives_judge (within_callValue ht)
    refine (gives_walkArgs hscope args hread hc.tail.right).bind fun args hargs => ?_
    cases callee with
    | ident calleeNode name => exact gives_callName hctx hscope hc.tail.left.expr hargs node.span
    | _ => exact hvalue hc.operand
  | .methodCall node receiver qualifier method args, _, hc =>
    refine (gives_inferExpr hscope receiver hc.operand hc.tail.left).bind fun t ht => ?_
    refine (gives_walkArgs hscope args
      (fun a ha => hc.operand (by simp [Expr.operands, ha])) hc.tail.right).bind fun args hargs => ?_
    exact gives_judge (within_callMethod (within_decls hctx)
      (hctx.registry.mono (List.subset_append_right _ _)) ht hargs qualifier method node.span)
  | .fieldAccess node object field, _, hc =>
    exact (gives_inferExpr hscope object hc.operand hc.tail).bind fun t ht =>
      gives_judge (within_fieldType (within_decls hctx) ht field node.span)
  | .index node object position, _, hc =>
    refine (gives_inferExpr hscope object hc.operand hc.tail.left).bind fun t ht => ?_
    exact (gives_inferExpr hscope position hc.operand hc.tail.right).bind fun _ _ =>
      gives_judge (within_indexType ht node.span)
  | .ifElse _ cond thenBranch none, _, hc =>
    refine (gives_inferExpr hscope cond hc.operand hc.tail.left).bind fun c _ =>
      (keeps_report _).bind fun _ => ?_
    exact (gives_inferBlock hscope .block thenBranch hc.tail.right).bind fun t ht =>
      Gives.pure ht
  | .ifElse _ cond thenBranch (some other), _, hc =>
    refine (gives_inferExpr hscope cond hc.operand hc.tail.left).bind fun c _ =>
      (keeps_report _).bind fun _ => ?_
    refine (gives_inferBlock hscope .block thenBranch hc.tail.right.left).bind fun t ht => ?_
    exact (gives_inferExpr hscope other hc.operand hc.tail.right.right).bind fun u hu =>
      Gives.pure (within_branchType ht hu)
  | .matchOn node scrutinee arms, _, hc =>
    refine (gives_inferExpr hscope scrutinee hc.operand hc.tail.left).bind fun t ht => ?_
    refine (gives_walkArms hscope ht arms (fun arm harm c hcond => hc.operand ?_)
      hc.tail.right).bind fun types htypes => (keeps_report _).bind fun _ => Gives.pure ?_
    · exact List.mem_cons_of_mem _ (List.mem_flatMap.2 ⟨arm, harm, hcond⟩)
    · cases types with
      | nil => exact Ty.within_prim _
      | cons u us => exact htypes u List.mem_cons_self
  | .block _ body, _, hc => exact gives_inferBlock hscope .block body hc.tail
  | .lambda node ps isAsync body, _, hc =>
    have hown := hc.tail.head.own
    have hinner := around_scopeFor hctx hscope (hown node.id List.mem_cons_self)
    refine (gives_inside _ (gives_inferBlock hinner .block body hc.tail.tail)).bind
      fun ret hret => Gives.pure (Ty.within_function.2 ⟨?_, hret⟩)
    exact within_lambdaParamTypes hctx fun p hp =>
      hown p.node.id (List.mem_cons_of_mem _ (List.mem_map_of_mem hp))
  | .whileLoop _ cond body, _, hc =>
    refine (gives_inferExpr hscope cond hc.operand hc.tail.left).bind fun c _ =>
      (keeps_report _).bind fun _ => ?_
    exact (gives_inferBlock hscope .loop body hc.tail.right).bind fun _ _ =>
      Gives.pure (Ty.within_prim _)
  | .forLoop node pattern iterable body, _, hc =>
    refine (gives_inferExpr hscope iterable hc.operand hc.tail.left).bind fun t ht => ?_
    refine (gives_judge (within_elementType ht node.span)).bind fun element helement => ?_
    have hinner := around_scopeFor hctx hscope hc.tail.right.opening
    refine (keeps_bindPattern hctx hinner pattern helement).bind fun _ => ?_
    exact (gives_inferBlock hinner .block body hc.tail.right.tail.tail).bind fun _ _ =>
      Gives.pure (Ty.within_prim _)
  | .breakLoop _, _, _ | .continueLoop _, _, _ => exact Gives.pure (Ty.within_prim _)
  | .ret node none, _, _ =>
    exact (keeps_checkReturn _ _ _).bind fun _ => Gives.pure (Ty.within_prim _)
  | .ret node (some value), _, hc =>
    refine (gives_inferExpr hscope value hc.operand hc.tail).bind fun t _ => ?_
    exact (keeps_checkReturn _ _ _).bind fun _ => Gives.pure (Ty.within_prim _)
  | .assign node target value, _, hc =>
    have htarget := gives_inferExpr hscope target hc.operand hc.tail.left
    refine (gives_inferExpr hscope value hc.operand hc.tail.right).bind fun v hv => ?_
    have hreport (found : List Finding) :
        Gives P ctx.table.functions around (Ty.Within (params ++ P.free))
          (report found >>= fun _ => Pure.pure v) :=
      (keeps_report found).bind fun _ => Gives.pure hv
    cases target with
    | ident _ name =>
      exact htarget.bind fun t _ => Gives.look fun s _ =>
        (keeps_report _).bind fun _ => hreport _
    | fieldAccess _ _ _ | index _ _ _ => exact htarget.bind fun t _ => hreport _
    | _ => exact hreport _
  | .arrayLit _ elements, _, hc =>
    refine (gives_walkElements hscope elements (fun e he => hc.operand he) (by simp)
      hc.tail).bind fun element helement => Gives.pure (Ty.within_array.2 ?_)
    cases element with
    | some t => exact helement t rfl
    | none =>
      rw [Option.getD_none]
      split <;> exact Ty.within_prim _
  | .tupleLit _ elements, _, hc =>
    refine (gives_walkArgs hscope elements (fun e he => hc.operand he) hc.tail).bind
      fun args hargs => Gives.pure (Ty.within_tuple.2 ?_)
    exact List.forall_mem_map.2 hargs
  | .structLit node name fields, _, hc =>
    refine (keeps_walkInits hscope fields (fun f hf => hc.operand (List.mem_map_of_mem hf))
      hc.tail).bind fun inits => ?_
    exact gives_judge (within_structType (within_decls hctx) name inits node.span)
  | .tryCatch _ body catches none, _, hc =>
    refine (gives_inferBlock hscope .block body hc.tail.left).bind fun t ht => ?_
    exact (keeps_walkCatches hscope catches hc.tail.right).bind fun _ => Gives.pure ht
  | .tryCatch _ body catches (some cleanup), _, hc =>
    refine (gives_inferBlock hscope .block body hc.tail.left).bind fun t ht => ?_
    refine (keeps_walkCatches hscope catches hc.tail.right.left).bind fun _ => ?_
    exact (gives_inferBlock hscope .block cleanup hc.tail.right.right).bind fun _ _ =>
      Gives.pure ht
  | .throw _ value, _, hc =>
    exact (gives_inferExpr hscope value hc.operand hc.tail).bind fun _ _ =>
      Gives.pure (Ty.within_prim _)
  | .await node value, _, hc =>
    exact (keeps_requireAsync _ _).bind fun _ =>
      (gives_inferExpr hscope value hc.operand hc.tail).bind
        fun t ht => Gives.pure (within_awaitedType ht)
  | .concurrent node bindings, _, hc =>
    have hinner := around_scopeFor hctx hscope hc.tail.right.opening
    refine (keeps_requireAsync _ _).bind fun _ => (keeps_walkBindings hscope hinner []
      bindings (fun b hb => hc.operand (List.mem_map_of_mem hb)) hc.tail.left).bind fun _ => ?_
    exact Gives.pure (Ty.within_prim _)
  | .race node body, _, hc =>
    exact (keeps_requireAsync _ _).bind fun _ => gives_inferBlock hscope .block body hc.tail
  | .timeout node duration body, _, hc =>
    refine (keeps_requireAsync _ _).bind fun _ =>
      (gives_inferExpr hscope duration hc.operand hc.tail.left).bind fun d _ => ?_
    exact (keeps_report _).bind fun _ =>
      (gives_inferBlock hscope .block body hc.tail.right).bind fun t ht =>
        Gives.pure (Ty.within_optional.2 ht)

/-- Arguments. -/
theorem gives_walkArgs {scope : ScopeId}
    (hscope : around scope = params) (es : List Expr) (hread : ∀ e ∈ es, P.Reads e)
    (hc : P.Covers params (Expr.sitesAll blindRules () es)) :
    Gives P ctx.table.functions around (fun args => ∀ a ∈ args, a.ty.Within (params ++ P.free))
      (walkArgs direct ctx scope es) := by
  match es, hread, hc with
  | [], _, _ => exact Gives.pure (by simp)
  | e :: es, hread, hc =>
    obtain ⟨he, hrest⟩ := List.forall_mem_cons.1 hread
    exact (gives_inferExpr hscope e he hc.left).bind fun t ht =>
      (gives_walkArgs hscope es hrest hc.right).bind fun args hargs =>
        Gives.pure (List.forall_mem_cons.2 ⟨ht, hargs⟩)

/-- Elements of an array. -/
theorem gives_walkElements {scope : ScopeId}
    (hscope : around scope = params) (es : List Expr) (hread : ∀ e ∈ es, P.Reads e)
    {expected : Option Ty} (hexpected : ∀ t ∈ expected, t.Within (params ++ P.free))
    (hc : P.Covers params (Expr.sitesAll blindRules () es)) :
    Gives P ctx.table.functions around (fun element => ∀ t ∈ element, t.Within (params ++ P.free))
      (walkElements direct ctx scope expected es) := by
  match es, hread, hc with
  | [], _, _ => exact Gives.pure hexpected
  | e :: es, hread, hc =>
    obtain ⟨he, hrest⟩ := List.forall_mem_cons.1 hread
    refine (gives_inferExpr hscope e he hc.left).bind fun t ht => ?_
    cases expected with
    | none =>
      refine gives_walkElements hscope es hrest ?_ hc.right
      split
      · simp
      · simpa using ht
    | some wanted =>
      exact (keeps_report _).bind fun _ =>
        gives_walkElements hscope es hrest hexpected hc.right

/-- Field initializers. -/
theorem keeps_walkInits {scope : ScopeId}
    (hscope : around scope = params) (fields : List FieldInit)
    (hread : ∀ f ∈ fields, P.Reads f.value)
    (hc : P.Covers params (FieldInit.sitesAll blindRules () fields)) :
    Keeps P ctx.table.functions around (walkInits direct ctx scope fields) := by
  match fields, hread, hc with
  | [], _, _ => exact Keeps.pure _
  | ⟨_, _, value⟩ :: fields, hread, hc =>
    obtain ⟨hvalue, hrest⟩ := List.forall_mem_cons.1 hread
    exact (gives_inferExpr hscope value hvalue hc.left).bind fun t _ =>
      (keeps_walkInits hscope fields hrest hc.right).bind fun _ => Keeps.pure _

/-- Match arms. -/
theorem gives_walkArms {scope : ScopeId}
    (hscope : around scope = params) {scrutinee : Ty}
    (hscrutinee : scrutinee.Within (params ++ P.free)) (arms : List MatchArm)
    (hread : ∀ arm ∈ arms, ∀ c ∈ arm.body :: arm.guard.toList, P.Reads c)
    (hc : P.Covers params (MatchArm.sitesAll blindRules () arms)) :
    Gives P ctx.table.functions around (fun types => ∀ t ∈ types, t.Within (params ++ P.free))
      (walkArms direct ctx scope scrutinee arms) := by
  match arms, hread, hc with
  | [], _, _ => exact Gives.pure (by simp)
  | ⟨node, pattern, none, body⟩ :: arms, hread, hc =>
    obtain ⟨harm, hrest⟩ := List.forall_mem_cons.1 hread
    have hinner := around_scopeFor hctx hscope hc.opening
    refine (keeps_bindPattern hctx hinner pattern hscrutinee).bind fun _ => ?_
    refine (gives_inferExpr hinner body (harm body List.mem_cons_self)
      hc.tail.tail.left).bind fun t ht => ?_
    exact (gives_walkArms hscope hscrutinee arms hrest hc.tail.tail.right).bind
      fun types htypes => Gives.pure (List.forall_mem_cons.2 ⟨ht, htypes⟩)
  | ⟨node, pattern, some cond, body⟩ :: arms, hread, hc =>
    obtain ⟨harm, hrest⟩ := List.forall_mem_cons.1 hread
    have hinner := around_scopeFor hctx hscope hc.opening
    have hparts := hc.tail.tail.left
    refine (keeps_bindPattern hctx hinner pattern hscrutinee).bind fun _ => ?_
    refine (gives_inferExpr hinner cond (harm cond (by simp)) hparts.left).bind fun c _ =>
      (keeps_report _).bind fun _ => ?_
    refine (gives_inferExpr hinner body (harm body List.mem_cons_self)
      hparts.right).bind fun t ht => ?_
    exact (gives_walkArms hscope hscrutinee arms hrest hc.tail.tail.right).bind
      fun types htypes => Gives.pure (List.forall_mem_cons.2 ⟨ht, htypes⟩)

/-- Catch clauses. -/
theorem keeps_walkCatches {scope : ScopeId}
    (hscope : around scope = params) (catches : List CatchClause)
    (hc : P.Covers params (CatchClause.sitesAll blindRules () catches)) :
    Keeps P ctx.table.functions around (walkCatches direct ctx scope catches) := by
  match catches, hc with
  | [], _ => exact Keeps.pure _
  | ⟨node, _, _, body⟩ :: catches, hc =>
    have hinner := around_scopeFor hctx hscope hc.opening
    exact (gives_inferBlock hinner .block body hc.tail.left).bind fun _ _ =>
      keeps_walkCatches hscope catches hc.tail.right

/-- Concurrent bindings. -/
theorem keeps_walkBindings {scope inner : ScopeId}
    (hscope : around scope = params) (hinner : around inner = params) (seen : List String)
    (bindings : List ConcurrentBinding) (hread : ∀ b ∈ bindings, P.Reads b.value)
    (hc : P.Covers params (ConcurrentBinding.sitesAll blindRules () bindings)) :
    Keeps P ctx.table.functions around (walkBindings direct ctx scope inner seen bindings) := by
  match bindings, hread, hc with
  | [], _, _ => exact Keeps.pure _
  | ⟨node, name, value⟩ :: bindings, hread, hc =>
    obtain ⟨hvalue, hrest⟩ := List.forall_mem_cons.1 hread
    unfold walkBindings
    refine (gives_inferExpr hscope value hvalue hc.left).bind fun t ht => ?_
    split
    · exact (keeps_report _).bind fun _ =>
        keeps_walkBindings hscope hinner seen bindings hrest hc.right
    · exact (keeps_resolveName hinner name ht).bind fun _ =>
        keeps_walkBindings hscope hinner (name :: seen) bindings hrest hc.right

/-- Blocks. -/
theorem gives_inferBlock {scope : ScopeId}
    (hscope : around scope = params) (kind : ScopeKind) (b : Block)
    (hc : P.Covers params (b.sites blindRules kind ())) :
    Gives P ctx.table.functions around (Ty.Within (params ++ P.free)) (inferBlock ctx scope b) := by
  have hid : b.id ∉ P.callees := by
    intro hmem
    obtain ⟨name, hname, -⟩ := hc.block.callee b.id List.mem_cons_self hmem
    cases hname
  unfold inferBlock walkBlock
  refine gives_memo hid (hc.block.own b.id List.mem_cons_self) ?_
  match b, hc with
  | ⟨node, stmts, none⟩, hc =>
    have hinner := around_scopeFor hctx hscope hc.tail.opening
    refine (gives_walkStmts hinner stmts (fun s hs => hc.block.operands _ ?_)
      hc.tail.tail).bind fun last _ => Gives.pure ?_
    · exact List.mem_append_left _ (List.mem_map_of_mem hs)
    · split <;> exact Ty.within_prim _
  | ⟨node, stmts, some result⟩, hc =>
    have hinner := around_scopeFor hctx hscope hc.tail.opening
    refine (gives_walkStmts hinner stmts (fun s hs => hc.block.operands _ ?_)
      hc.tail.tail.left).bind fun last hlast => ?_
    · exact List.mem_append_left _ (List.mem_map_of_mem hs)
    · exact gives_inferExpr hlast result
        (hc.block.operands result (List.mem_append_right _ List.mem_cons_self)) hc.tail.tail.right

/-- Statements, each in the scope the one before it left. -/
theorem gives_walkStmts {scope : ScopeId}
    (hscope : around scope = params) (stmts : List Stmt) (hread : ∀ s ∈ stmts, P.Reads s.value)
    (hc : P.Covers params (Stmt.sitesAll blindRules () stmts)) :
    Gives P ctx.table.functions around (fun last => around last = params)
      (walkStmts direct ctx scope stmts) := by
  match stmts, hread, hc with
  | [], _, _ => exact Gives.pure hscope
  | .letBind node pattern ty isMutable value :: rest, hread, hc =>
    obtain ⟨hvalue, hrest⟩ := List.forall_mem_cons.1 hread
    have hinner := around_scopeAfter hctx hscope _ hc
    refine (gives_inferExpr hscope value hvalue hc.left).bind fun t ht => ?_
    refine (keeps_bindLet hctx hinner hc.right.opening pattern ht value.span).bind fun _ => ?_
    exact gives_walkStmts hinner rest hrest hc.right.tail.tail
  | .expr node value :: rest, hread, hc =>
    obtain ⟨hvalue, hrest⟩ := List.forall_mem_cons.1 hread
    have hnext := around_scopeAfter hctx hscope _ hc
    exact (gives_inferExpr hscope value hvalue hc.left).bind fun _ _ =>
      gives_walkStmts hnext rest hrest hc.right

end

end Inference

end Check

end UnitAnalysis

import UnitAnalysis.Proofs.Check.TypeTable
import UnitAnalysis.Proofs.Diagnostic.Code
import UnitAnalysis.Proofs.Symbols.Signatures
import UnitAnalysis.Proofs.Ty.Compatible

/-!
# Returns

A `return` belongs to the innermost function or lambda around it, which the syntax alone tells. The
check keeps a stack of frames instead, onto which functions, methods and lambdas are put and from
which they are taken again.

The main result says that the two agree. A `return` is reported as misplaced exactly where nothing
is around it. What is returned is compared with the declared result of the function that it belongs
to, and so is what the body of each function ends in; a `return` in a lambda is compared with
nothing.
-/

set_option autoImplicit false

namespace UnitAnalysis

/-! ## What belongs to a function -/

/-- What a `return` can belong to. -/
inductive Callable where
  | function (f : FunctionDecl)
  | lambda (isAsync : Bool)

/-- What the syntax around a place says about a `return` there. -/
structure ReturnContext where
  /-- The innermost function or lambda around the place. -/
  callable : Option Callable
  /-- Whether the place is looked at; it is not inside a target that cannot be assigned to. -/
  reached : Bool

/-- Functions, methods and lambdas take the `return`s inside them. -/
def returnRules : Rules ReturnContext where
  enter c
    | .function f _ => { c with callable := some (.function f) }
    | .lambda _ _ isAsync => { c with callable := some (.lambda isAsync) }
    | _ => c
  skip c := { c with reached := false }

/-- The report on a `return` that is looked at and belongs to nothing. -/
def Site.strayReturns : Site ReturnContext → List Finding
  | expr c (.ret node _) =>
    match c with
    | ⟨none, true⟩ => [⟨.returnOutside, node.span⟩]
    | _ => []
  | _ => []

/-- The `return`s of a unit that are looked at and belong to nothing, from left to right. -/
def SourceUnit.strayReturns (u : SourceUnit) : List Finding :=
  (u.sites returnRules ⟨none, true⟩).flatMap Site.strayReturns

/-- What a function gives back at one place. -/
structure Returned where
  /-- The function. -/
  function : FunctionDecl
  /-- The node that is given back; there is none for a `return` without a value. -/
  node : Option NodeId
  /-- The place. -/
  span : Span

/-- What is given back at a site that is looked at, when it belongs to a function. -/
def Site.returned : Site ReturnContext → List Returned
  | expr c (.ret node value) =>
    match c with
    | ⟨some (.function f), true⟩ => [⟨f, value.map Expr.id, node.span⟩]
    | _ => []
  | _ => []

/-- What a function gives back at the end of its body. -/
def FunctionDecl.returned (f : FunctionDecl) : Returned :=
  ⟨f, some f.body.id, (f.body.result.map Expr.span).getD f.node.span⟩

/-- All that the functions of a unit give back, by a `return` or at the end of the body. -/
def SourceUnit.returned (u : SourceUnit) : List Returned :=
  u.functions.map FunctionDecl.returned ++
    (u.sites returnRules ⟨none, true⟩).flatMap Site.returned

namespace Returned

/-- The type of what is given back. -/
def ty? (types : Table NodeId Ty) (x : Returned) : Option Ty :=
  match x.node with
  | some id => types.get? id
  | none => some .void

/-- The report on what is given back, if its function declares a result that does not accept it. -/
def mismatch? (options : Options) (table : SymbolTable) (types : Table NodeId Ty) (x : Returned) :
    Option Finding :=
  match table.resultOf x.function, x.ty? types with
  | some declared, some found =>
    if declared.accepts found then none
    else if x.function.isAsync then
      some ⟨.asyncReturnMismatch options.asyncReturnMismatch.severity x.function.name declared
        found, x.span⟩
    else some ⟨.returnMismatch x.function.name declared found, x.span⟩
  | _, _ => none

end Returned

/-- The reports on what the functions of a unit give back, for those that are asynchronous or for
the others. -/
def Analysis.mismatches (a : Analysis) (options : Options) (u : SourceUnit) (isAsync : Bool) :
    List Finding :=
  (u.returned.filter fun x => x.function.isAsync = isAsync).filterMap
    (Returned.mismatch? options a.table a.types)

/-! ## The stack of frames -/

/-- The frame of a function or lambda. -/
def Callable.frame (table : SymbolTable) : Callable → Frame
  | function f => Check.frameOf table f
  | lambda isAsync => { name := "<lambda>", isAsync }

/-- A context tells where a check stands: what a place belongs to is at the top of the stack. -/
structure ReturnContext.Shows (table : SymbolTable) (standing : Option Standing)
    (c : ReturnContext) : Prop where
  reached : c.reached = standing.isSome
  frame : ∀ s ∈ standing, s.around.frame? = c.callable.map (Callable.frame table)

/-- What a check sees around a place is what the syntax shows. -/
theorem SourceUnit.returnContext_related (u : SourceUnit) (table : SymbolTable) :
    List.Forall₂ (Site.Related (ReturnContext.Shows table))
      (u.sites (standingRules table) (some ⟨.global, {}⟩))
      (u.sites returnRules ⟨none, true⟩) := by
  refine u.sites_related ⟨rfl, by simp [Surroundings.frame?]⟩
    ⟨fun st c hc => ⟨rfl, by simp [standingRules]⟩, fun st o _ c hc => ⟨?_, fun s hs => ?_⟩⟩
  · have hreached : (returnRules.enter c o).reached = c.reached := by cases o <;> rfl
    exact (hreached.trans hc.reached).trans Option.isSome_map.symm
  · obtain ⟨around, haround, rfl⟩ := Option.map_eq_some_iff.1 hs
    cases o with
    | function f isMethod => rfl
    | lambda node params isAsync => rfl
    | _ => exact hc.frame around haround

/-! ## The reports of a check -/

/-- The codes of the reports on what is given back. -/
def Code.ofReturns : List Code :=
  [.returnTypeMismatch, .asyncReturnTypeMismatch, .returnOutsideFunction]

/-- Whether a report is about what is given back. -/
def Finding.isOfReturn (f : Finding) : Bool :=
  f.code ∈ Code.ofReturns

/-- Findings on returns are about places. -/
theorem Finding.isPlacement_of_isOfReturn {f : Finding} (h : f.isOfReturn = true) :
    f.problem.isPlacement = true := by
  obtain ⟨problem, span⟩ := f
  have hcode : problem.code ∈ Code.ofReturns := of_decide_eq_true h
  cases problem with
  | returnOutside | returnMismatch _ _ _ | asyncReturnMismatch _ _ _ _ => rfl
  | outsideAsync form _ => rfl
  | operands op left right =>
    simp only [Problem.code] at hcode
    split at hcode <;> simp [Code.ofReturns] at hcode
  | _ => simp [Code.ofReturns] at hcode

/-- What a check finds wrong with a result is what is wrong with what is given back. A node without
a type would be accepted. -/
theorem Check.resultFindings_eq (options : Options) (table : SymbolTable) (types : Table NodeId Ty)
    (x : Returned) :
    resultFindings options (frameOf table x.function) ((x.ty? types).getD .any) x.span =
      (x.mismatch? options table types).toList := by
  have hret : (frameOf table x.function).ret = table.resultOf x.function := rfl
  rw [resultFindings, Returned.mismatch?, hret]
  cases table.resultOf x.function with
  | none => rfl
  | some declared =>
    cases x.ty? types with
    | none => exact if_pos (Ty.accepts_of_compatible declared.compatible_any)
    | some found =>
      cases haccepts : declared.accepts found with
      | true => simp [haccepts]
      | false => cases hasync : x.function.isAsync <;>
          simp [haccepts, hasync, returnProblem, frameOf]

/-- What a check finds wrong with a `return` is what is wrong with it in its context. -/
theorem Site.returnFindings_eq (ctx : Context) (types : Table NodeId Ty) {s : Standing}
    {c : ReturnContext} (hc : c.Shows ctx.table (some s)) (node : Node) (value : Option Expr) :
    Check.returnFindings ctx.options s.around (.ofReturned types value) node.span =
      (expr c (.ret node value)).strayReturns ++ (expr c (.ret node value)).returned.filterMap
        (Returned.mismatch? ctx.options ctx.table types) := by
  obtain ⟨callable, reached⟩ := c
  obtain rfl : reached = true := hc.reached
  have hframe : s.around.frame? = callable.map (Callable.frame ctx.table) := hc.frame s rfl
  rw [Check.returnFindings, hframe]
  match callable with
  | none => rfl
  | some (.lambda _) => rfl
  | some (.function f) =>
    have hty : Ty.ofReturned types value =
        (Returned.ty? types ⟨f, value.map Expr.id, node.span⟩).getD .any := by
      cases value <;> rfl
    rw [hty]
    refine (Check.resultFindings_eq ctx.options ctx.table types
      ⟨f, value.map Expr.id, node.span⟩).trans ?_
    simp only [strayReturns, returned, List.nil_append, List.filterMap_eq_flatMap_toList,
      List.flatMap_singleton]

/-- What a check finds wrong with a site, as far as it is about what is given back. -/
theorem Site.filter_placement_eq_returned (ctx : Context) (a : Arena) (types : Table NodeId Ty)
    {st : Site (Option Standing)} {site : Site ReturnContext}
    (h : Site.Related (ReturnContext.Shows ctx.table) st site) :
    (st.placement ctx a types).filter Finding.isOfReturn =
      site.strayReturns ++ site.returned.filterMap
        (Returned.mismatch? ctx.options ctx.table types) := by
  cases h with
  | @expr standing c e hc =>
    cases standing with
    | none =>
      obtain ⟨callable, reached⟩ := c
      obtain rfl : reached = false := hc.reached
      cases e <;> simp [placement, strayReturns, returned]
    | some s =>
      cases e with
      | ret node value =>
        rw [← Site.returnFindings_eq ctx types hc]
        exact (Check.reports_returnFindings ..).filter_eq_self fun _ => decide_eq_true
      | ident _ _ =>
        simp only [placement, Expr.placement]
        split <;> rfl
      | await _ _ | concurrent _ _ | race _ _ | timeout _ _ _ =>
        simp only [placement, Expr.placement, Check.asyncFindings]
        split <;> rfl
      | _ => rfl
  | _ => rfl

/-- The end of a body. -/
theorem FunctionDecl.placement_eq_returned (ctx : Context) (types : Table NodeId Ty)
    (f : FunctionDecl) :
    f.placement ctx types = (f.returned.mismatch? ctx.options ctx.table types).toList := by
  rw [← Check.resultFindings_eq]
  unfold placement Check.resultSpan returned
  cases f.body.result <;> rfl

/-- The problems of place of a unit, as far as they are about what is given back. -/
theorem SourceUnit.placement_perm_returned (u : SourceUnit) (ctx : Context) (a : Arena)
    (types : Table NodeId Ty) :
    ((u.functions.flatMap (FunctionDecl.placement ctx types)).filter Finding.isOfReturn ++
      ((u.sites (standingRules ctx.table) (some ⟨.global, {}⟩)).flatMap
        (Site.placement ctx a types)).filter Finding.isOfReturn).Perm
      (u.strayReturns ++ u.returned.filterMap
        (Returned.mismatch? ctx.options ctx.table types)) := by
  have hfunctions : (u.functions.flatMap (FunctionDecl.placement ctx types)).filter
      Finding.isOfReturn = (u.functions.map FunctionDecl.returned).filterMap
        (Returned.mismatch? ctx.options ctx.table types) := by
    refine ((reports_functions ..).filter_eq_self fun _ hf => decide_eq_true
      (List.mem_append_left [Code.returnOutsideFunction] hf)).trans ?_
    rw [List.filterMap_eq_flatMap_toList, List.flatMap_map]
    exact List.flatMap_congr fun f _ => f.placement_eq_returned ctx types
  have hsites : ((u.sites (standingRules ctx.table) (some ⟨.global, {}⟩)).flatMap
      (Site.placement ctx a types)).filter Finding.isOfReturn =
      (u.sites returnRules ⟨none, true⟩).flatMap fun site => site.strayReturns ++
        site.returned.filterMap (Returned.mismatch? ctx.options ctx.table types) :=
    filter_flatMap_of_forall₂ (fun _ _ => Site.filter_placement_eq_returned ctx a types)
      (u.returnContext_related ctx.table)
  rw [hfunctions, hsites, SourceUnit.returned, List.filterMap_append, List.filterMap_flatMap]
  refine ((List.flatMap_append_perm ..).symm.append_left _).trans ?_
  exact List.perm_append_comm_assoc ..

/-- All findings on returns. -/
theorem SourceUnit.filter_findings_returned (config : Config) (u : SourceUnit)
    (hids : u.ids.Nodup) :
    ((analyze config u).findings.filter Finding.isOfReturn).Perm (u.strayReturns ++
      u.returned.filterMap (Returned.mismatch? config.analysis (analyze config u).table
        (analyze config u).types)) := by
  have hfound := (u.prepare_follows config.analysis config.readableIntrinsics hids).2
    Finding.isOfReturn fun _ => Finding.isPlacement_of_isOfReturn
  rw [u.prepare_eq] at hfound
  rw [analyze_eq]
  generalize Builder.ofUnit config.readableIntrinsics u = b at hfound ⊢
  exact hfound.trans (u.placement_perm_returned ⟨b.table, _, config.analysis⟩ b.table.scopes _)

/-! ## Codes -/

/-- The code of the reports on wrong results. -/
def Code.ofMismatch (isAsync : Bool) : Code :=
  if isAsync then .asyncReturnTypeMismatch else .returnTypeMismatch

/-- The code of a report on a wrong result tells whether the function is asynchronous. -/
theorem Returned.code_mismatch? {options : Options} {table : SymbolTable}
    {types : Table NodeId Ty} {x : Returned} {f : Finding}
    (h : f ∈ x.mismatch? options table types) : f.code = Code.ofMismatch x.function.isAsync := by
  unfold mismatch? at h
  split at h
  · split at h
    · cases h
    · split at h <;> rename_i hasync <;> cases h <;> simp [Code.ofMismatch, hasync]
  · cases h

/-- The code of a stray return. -/
theorem SourceUnit.reports_strayReturns (u : SourceUnit) :
    Reports [.returnOutsideFunction] u.strayReturns := by
  refine .flatMap fun site _ => ?_
  unfold Site.strayReturns
  repeat' split
  all_goals first | exact .nil | exact .one List.mem_cons_self

/-- What is given back by functions that are asynchronous, or by the others, is found under the code
of its reports. -/
theorem Analysis.filter_mismatch? (a : Analysis) (options : Options) (u : SourceUnit)
    (isAsync : Bool) :
    (u.returned.filterMap (Returned.mismatch? options a.table a.types)).filter
      (fun f => f.code = Code.ofMismatch isAsync) = a.mismatches options u isAsync := by
  rw [mismatches, List.filter_filterMap, List.filterMap_filter]
  refine List.filterMap_congr fun x _ => ?_
  cases hx : x.mismatch? options a.table a.types with
  | none => simp
  | some f =>
    have hcode := Returned.code_mismatch? hx
    cases isAsync <;> cases hasync : x.function.isAsync <;>
      simp [hcode, hasync, Code.ofMismatch, Option.filter]

/-- The diagnostics with a code of returns are those that the syntax asks for. -/
theorem SourceUnit.filter_diagnostics_returned (config : Config) (u : SourceUnit)
    (hids : u.ids.Nodup) {c : Code} (hc : c ∈ Code.ofReturns) :
    ((analyze config u).diagnostics.filter fun d => d.code = c.text).Perm
      (((u.strayReturns ++ u.returned.filterMap (Returned.mismatch? config.analysis
        (analyze config u).table (analyze config u).types)).filter fun f => f.code = c).map
          Finding.toDiagnostic) := by
  have hcode : ((fun d : Diagnostic => decide (d.code = c.text)) ∘ Finding.toDiagnostic) =
      fun f => decide (f.code = c) := by
    funext f
    exact decide_eq_decide.2 f.toDiagnostic_code_eq_iff
  have hkind : ((analyze config u).findings.filter Finding.isOfReturn).filter
      (fun f => f.code = c) = (analyze config u).findings.filter fun f => f.code = c := by
    rw [List.filter_filter]
    refine List.filter_congr fun f _ => ?_
    by_cases hf : f.code = c <;> simp [hf, hc, Finding.isOfReturn]
  rw [Analysis.diagnostics, List.filter_map, hcode, ← hkind]
  exact ((u.filter_findings_returned config hids).filter _).map _

/-! ## Types -/

/-- The body of a function is looked at. -/
theorem SourceUnit.body_reached {u : SourceUnit} {f : FunctionDecl} (hf : f ∈ u.functions) :
    .block true f.body ∈ u.sites reachRules true := by
  obtain ⟨d, hd, hf⟩ := List.mem_flatMap.1 hf
  obtain ⟨c, isMethod, hc, hsub⟩ := d.sites_function reachRules true hf
  obtain rfl : c = true := by
    rcases hc with rfl | ⟨o, rfl⟩ <;> rfl
  refine List.mem_flatMap.2 ⟨d, hd, hsub (List.mem_cons_of_mem _ ?_)⟩
  unfold Block.sites
  exact List.mem_cons_self

/-- All that is given back has a type. -/
theorem SourceUnit.isSome_returned (config : Config) {u : SourceUnit} (hids : u.ids.Nodup)
    {x : Returned} (hx : x ∈ u.returned) : (x.ty? (analyze config u).types).isSome := by
  rcases List.mem_append.1 hx with hx | hx
  · obtain ⟨f, hf, rfl⟩ := List.mem_map.1 hx
    exact isSome_of_reached config hids (body_reached hf) rfl List.mem_cons_self
  · obtain ⟨site, hsite, hx⟩ := List.mem_flatMap.1 hx
    have hrelated : List.Forall₂ (Site.Related fun c isReached => c.reached = isReached)
        (u.sites returnRules ⟨none, true⟩) (u.sites reachRules true) :=
      u.sites_related rfl ⟨fun _ _ _ => rfl, fun _ o _ _ h => by cases o <;> exact h⟩
    obtain ⟨other, hother, hsame⟩ := exists_of_forall₂ hrelated hsite
    unfold Site.returned at hx
    split at hx
    next c node value =>
      split at hx
      · obtain rfl := List.mem_singleton.1 hx
        cases hsame with
        | expr hplace =>
          cases value with
          | none => rfl
          | some value =>
            exact isSome_of_reached config hids hother hplace.symm
              (List.mem_cons_of_mem _ List.mem_cons_self)
      · cases hx
    · cases hx

/-! ## The result -/

/-- **Returns are judged by what they belong to.** When no two nodes of a unit have the same
identity, a `return` that is looked at is reported as misplaced exactly where no function or lambda
is around it. The wrong results that are reported are those of the functions and methods with a
declared result that does not accept the type of what is given back, by a `return` that belongs to
the function or at the end of its body; what is given back has a type, and the result is the one
that is written. -/
theorem returns_judged_by_innermost_callable (config : Config) (u : SourceUnit)
    (hids : u.ids.Nodup) :
    let r := analyze config u
    (r.diagnostics.filter fun d => d.code = "TC032").Perm
        (u.strayReturns.map Finding.toDiagnostic) ∧
      (∀ isAsync : Bool,
        (r.diagnostics.filter fun d => d.code = if isAsync then "TC031" else "TC030").Perm
          ((r.mismatches config.analysis u isAsync).map Finding.toDiagnostic)) ∧
      (∀ x ∈ u.returned, (x.ty? r.types).isSome) ∧
      ∀ d ∈ u.decls, ∀ f ∈ d.functions,
        r.table.resultOf f = f.resultIn r.table.decls (d.generics r.table.decls) := by
  intro r
  refine ⟨?_, fun isAsync => ?_, fun x hx => SourceUnit.isSome_returned config hids hx,
    fun d hd f hf => ?_⟩
  · have hfound := u.filter_diagnostics_returned config hids
      (List.mem_append_right [_, _] (List.mem_singleton_self Code.returnOutsideFunction))
    have hnone : (u.returned.filterMap (Returned.mismatch? config.analysis r.table r.types)).filter
        (fun f => f.code = .returnOutsideFunction) = [] := by
      refine List.filter_eq_nil_iff.2 fun f hf => ?_
      obtain ⟨x, -, hx⟩ := List.mem_filterMap.1 hf
      rw [Returned.code_mismatch? hx]
      cases x.function.isAsync <;> decide
    rw [List.filter_append, hnone, List.append_nil, u.reports_strayReturns.filter_eq_self] at hfound
    · exact hfound
    · simp
  · have hcode : Code.ofMismatch isAsync ∈ Code.ofReturns := by cases isAsync <;> decide
    have htext : (Code.ofMismatch isAsync).text = if isAsync then "TC031" else "TC030" := by
      cases isAsync <;> rfl
    have hfound := u.filter_diagnostics_returned config hids hcode
    have hother : Code.ofMismatch isAsync ∉ [Code.returnOutsideFunction] := by
      cases isAsync <;> decide
    have hnone : u.strayReturns.filter (fun f => f.code = Code.ofMismatch isAsync) = [] :=
      u.reports_strayReturns.filter_eq_nil fun _ hf => of_decide_eq_true hf ▸ hother
    rw [List.filter_append, r.filter_mismatch?, htext, hnone] at hfound
    exact hfound
  · have hdeclared := Builder.resultOf_ofUnit config.readableIntrinsics hids hd hf
    unfold r
    rw [analyze_eq]
    generalize Builder.ofUnit config.readableIntrinsics u = b at hdeclared ⊢
    exact hdeclared

/-- A unit with `return`s in every kind of place. The one of the script belongs to nothing. In `f`
the first one gives back the wrong type, the target of the assignment is not looked at and the last
one belongs to a lambda, which is the wrong result of `f` itself. The method gives back nothing. -/
def manyReturns : SourceUnit :=
  let node (n : UInt64) : Node := ⟨⟨n⟩, { line := n }⟩
  let text (n : UInt64) : Expr := .literal (node n) (.string "one")
  let named (name : String) : TypeExpr := .named {} name []
  { node := node 0
    decls :=
      [.script (.expr (node 1) (.ret (node 2) (some (text 3)))),
      .function
        { node := node 4, name := "f", returnType := some (named "Int")
          body :=
            ⟨node 5,
              [.expr (node 6) (.ret (node 7) (some (text 8))),
              .expr (node 9) (.assign (node 10) (.ret (node 11) none) (text 12))],
              some (.lambda (node 13) [] false ⟨node 14, [], some (.ret (node 15) none)⟩)⟩ },
      .classLike
        { node := node 16, kind := .plain, name := "Box", typeParams := [⟨"T", []⟩]
          methods :=
            [{ node := node 17, name := "get", isAsync := true
               returnType := some (.array {} (named "T"))
               body := ⟨node 18, [], some (.ret (node 19) none)⟩ }] }] }

/-- A unit with many returns. -/
theorem returns_judged_manyReturns :
    let r := analyze {} manyReturns
    manyReturns.ids.Nodup ∧ (manyReturns.strayReturns.map fun f => f.span.line) = [2] ∧
      ((r.mismatches {} manyReturns false).map fun f => f.span.line) = [13, 7] ∧
      ((r.mismatches {} manyReturns true).map fun f => f.span.line) = [19] ∧
      (r.diagnostics.filter fun d => d.code = "TC032").Perm
        (manyReturns.strayReturns.map Finding.toDiagnostic) ∧
      ∀ isAsync : Bool,
        (r.diagnostics.filter fun d => d.code = if isAsync then "TC031" else "TC030").Perm
          ((r.mismatches {} manyReturns isAsync).map Finding.toDiagnostic) := by
  have hids : manyReturns.ids.Nodup := by decide
  obtain ⟨hstray, hmismatches, -⟩ := returns_judged_by_innermost_callable {} manyReturns hids
  exact ⟨hids, by decide +kernel, by decide +kernel, by decide +kernel, hstray, hmismatches⟩

end UnitAnalysis

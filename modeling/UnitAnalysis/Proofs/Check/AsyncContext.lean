import Mathlib.Data.List.Perm.Basic
import UnitAnalysis.Proofs.Diagnostic.Code
import UnitAnalysis.Proofs.Scope.Agreement

/-!
# Asynchronous code

Whether a place of a unit is asynchronous can be told from the syntax alone: the script and the
first values of fields are not, the body of a function is if the function is declared so, and the
body of a lambda is if the lambda is or if the place of the lambda is. The check does not go by
this. It counts how deep it is in asynchronous code, and sets the count back by hand whenever it
comes out of a function or lambda.

The main result says that the two agree: the check reports the constructs of concurrency that stand
where the code is not asynchronous, each once and at its place, and every step of the check ends in
the surroundings in which it started.
-/

set_option autoImplicit false

namespace UnitAnalysis

/-! ## Contexts -/

/-- Whether the code inside a construct runs asynchronously, given that around it. -/
def Opening.isAsync (around : Bool) : Opening → Bool
  | function f _ => f.isAsync
  | lambda _ _ isAsync => isAsync || around
  | _ => around

/-- The innermost function or lambda inside a construct, given that around it. -/
def Opening.callable (around : Option String) : Opening → Option String
  | function f _ => some f.name
  | lambda _ _ _ => some "<lambda>"
  | _ => around

/-- What the syntax around a place says about it. -/
structure AsyncContext where
  /-- Whether the code is asynchronous. -/
  isAsync : Bool
  /-- The innermost function or lambda around the place. -/
  callable : Option String
  /-- Whether the place is looked at; it is not inside a target that cannot be assigned to. -/
  reached : Bool

/-- A function says by itself whether its body is asynchronous, and a lambda that does not runs
where it is written. -/
def asyncRules : Rules AsyncContext where
  enter c o := { c with isAsync := o.isAsync c.isAsync, callable := o.callable c.callable }
  skip c := { c with reached := false }

/-- The construct of concurrency that an expression is. -/
def Expr.asyncForm? : Expr → Option AsyncForm
  | .await _ _ => some .await
  | .concurrent _ _ => some .concurrent
  | .race _ _ => some .race
  | .timeout _ _ _ => some .timeout
  | _ => none

/-- The reports on a site: that it is a construct of the given form, looked at and not in
asynchronous code. -/
def Site.outsideAsync (form : AsyncForm) : Site AsyncContext → List Finding
  | expr c e =>
    if e.asyncForm? = some form ∧ c.reached ∧ !c.isAsync then
      [⟨.outsideAsync form c.callable, e.span⟩]
    else []
  | _ => []

/-- The constructs of a form that stand in code which is not asynchronous, from left to right. -/
def SourceUnit.outsideAsync (form : AsyncForm) (u : SourceUnit) : List Finding :=
  (u.sites asyncRules ⟨false, none, true⟩).flatMap (Site.outsideAsync form)

/-- The code of the reports on a form. -/
def AsyncForm.code : AsyncForm → Code
  | await => .awaitOutsideAsync
  | concurrent => .concurrentOutsideAsync
  | race => .raceOutsideAsync
  | timeout => .timeoutOutsideAsync

/-! ## Contexts and standing -/

/-- The name of the innermost function or lambda around the code. -/
def Surroundings.callable (w : Surroundings) : Option String :=
  w.frame?.map fun f => f.name

/-- Counting how deep the code is in asynchronous code tells whether it runs asynchronously. -/
theorem Opening.isAsync_surroundings (table : SymbolTable) (w : Surroundings) (o : Opening) :
    (o.surroundings table w).isAsync = o.isAsync w.isAsync := by
  unfold surroundings isAsync Surroundings.isAsync
  cases o with
  | function f _ =>
    cases hasync : f.isAsync <;> simp [Surroundings.enterFunction, Check.frameOf, hasync]
  | lambda _ _ isAsync => cases isAsync <;> simp [Surroundings.enterLambda]
  | _ => rfl

/-- The callable around a place. -/
theorem Opening.callable_surroundings (table : SymbolTable) (w : Surroundings) (o : Opening) :
    (o.surroundings table w).callable = o.callable w.callable := by
  cases o <;> rfl

/-- A context tells where a check stands. -/
structure AsyncContext.Shows (standing : Option Standing) (c : AsyncContext) : Prop where
  reached : c.reached = standing.isSome
  isAsync : ∀ s ∈ standing, c.isAsync = s.around.isAsync
  callable : ∀ s ∈ standing, c.callable = s.around.callable

/-- What a check sees around a place is what the syntax shows. -/
theorem SourceUnit.asyncContext_related (u : SourceUnit) (table : SymbolTable) :
    List.Forall₂ (Site.Related AsyncContext.Shows)
      (u.sites (standingRules table) (some ⟨.global, {}⟩))
      (u.sites asyncRules ⟨false, none, true⟩) := by
  refine u.sites_related ⟨rfl, by simp [Surroundings.isAsync], by simp [Surroundings.callable,
    Surroundings.frame?]⟩ ⟨fun st c hc => ?_, fun st o _ c hc => ?_⟩
  · exact ⟨rfl, fun s hs => (Option.not_mem_none s hs).elim,
      fun s hs => (Option.not_mem_none s hs).elim⟩
  · refine ⟨hc.reached.trans Option.isSome_map.symm, fun s hs => ?_, fun s hs => ?_⟩
    · obtain ⟨around, haround, rfl⟩ := Option.map_eq_some_iff.1 hs
      exact (congrArg o.isAsync (hc.isAsync around haround)).trans
        (o.isAsync_surroundings table around.around).symm
    · obtain ⟨around, haround, rfl⟩ := Option.map_eq_some_iff.1 hs
      exact (congrArg o.callable (hc.callable around haround)).trans
        (o.callable_surroundings table around.around).symm

/-! ## Reports -/

/-- The code of a form. -/
theorem Problem.code_outsideAsync (form : AsyncForm) (callable : Option String) :
    (Problem.outsideAsync form callable).code = form.code := by
  cases form <;> rfl

/-- Forms have different codes. -/
theorem AsyncForm.code_injective {form other : AsyncForm} (h : form.code = other.code) :
    form = other := by
  cases form <;> cases other <;> cases h <;> rfl

/-- A construct outside asynchronous code is a problem of place. -/
theorem Problem.isPlacement_of_async_code {problem : Problem} {form : AsyncForm}
    (h : problem.code = form.code) : problem.isPlacement = true := by
  cases problem with
  | outsideAsync other callable => rfl
  | operands op left right =>
    simp only [Problem.code] at h
    split at h <;> cases form <;> cases h
  | _ => cases form <;> cases h

/-- Whether a report is about a construct of a form outside asynchronous code. -/
def Finding.isOutsideAsync (form : AsyncForm) (f : Finding) : Bool :=
  f.problem.code = form.code

/-- Who reports other codes does not report on constructs of concurrency. -/
theorem Reports.filter_isOutsideAsync {codes : List Code} {found : List Finding} {form : AsyncForm}
    (h : Reports codes found) (hcodes : form.code ∉ codes) :
    found.filter (Finding.isOutsideAsync form) = [] :=
  h.filter_eq_nil fun _ hf hmem => hcodes (of_decide_eq_true hf ▸ hmem)

/-- The report on one construct. -/
theorem Check.filter_asyncFindings (w : Surroundings) (form other : AsyncForm) (span : Span) :
    (asyncFindings w other span).filter (Finding.isOutsideAsync form) =
      if some other = some form ∧ !w.isAsync then [⟨.outsideAsync form w.callable, span⟩]
      else [] := by
  unfold asyncFindings Surroundings.callable
  cases w.isAsync with
  | true => simp
  | false =>
    by_cases h : other = form
    · simp [h, Finding.isOutsideAsync, Problem.code_outsideAsync, -Problem.code]
    · have hcode : other.code ≠ form.code := fun heq => h (AsyncForm.code_injective heq)
      simp [h, Finding.isOutsideAsync, Problem.code_outsideAsync, hcode, -Problem.code]

/-- The reports of a check on a construct are those that the context asks for. -/
theorem Site.filter_placement_eq_outsideAsync (ctx : Context) (a : Arena)
    (types : Table NodeId Ty) {form : AsyncForm} {st : Site (Option Standing)}
    {site : Site AsyncContext} (h : Site.Related AsyncContext.Shows st site) :
    (st.placement ctx a types).filter (Finding.isOutsideAsync form) = site.outsideAsync form := by
  cases h with
  | @expr standing c e hc =>
    have hreached := hc.reached
    cases standing with
    | none => simp [Site.placement, Site.outsideAsync, hreached]
    | some s =>
      have hisAsync := hc.isAsync s rfl
      have hcallable := hc.callable s rfl
      simp only [Site.placement, Site.outsideAsync, hreached, hisAsync, hcallable,
        Option.isSome_some, true_and]
      cases e with
      | await node value => exact Check.filter_asyncFindings s.around form .await node.span
      | concurrent node bindings =>
        exact Check.filter_asyncFindings s.around form .concurrent node.span
      | race node body => exact Check.filter_asyncFindings s.around form .race node.span
      | timeout node duration body =>
        exact Check.filter_asyncFindings s.around form .timeout node.span
      | ident node name =>
        simp only [Expr.placement, Expr.asyncForm?]
        split <;> cases form <;> rfl
      | ret node value =>
        exact (Check.reports_returnFindings ..).filter_isOutsideAsync
          (by cases form <;> decide)
      | _ => rfl
  | _ => rfl

/-- The reports on all of them. -/
theorem SourceUnit.filter_placement_sites (u : SourceUnit) (table : SymbolTable) (ctx : Context)
    (a : Arena) (types : Table NodeId Ty) (form : AsyncForm) :
    ((u.sites (standingRules table) (some ⟨.global, {}⟩)).flatMap
      (Site.placement ctx a types)).filter (Finding.isOutsideAsync form) = u.outsideAsync form :=
  filter_flatMap_of_forall₂ (fun _ _ => Site.filter_placement_eq_outsideAsync ctx a types)
    (u.asyncContext_related table)

/-- The reports of the check of a unit on a form are those that the syntax asks for. -/
theorem SourceUnit.filter_findings_perm (options : Options) (intrinsics : List (String × TypeExpr))
    (u : SourceUnit) (hids : u.ids.Nodup) (form : AsyncForm) :
    let p := u.prepare options intrinsics
    ((((Check.unit p.context u).run p.session).2.findings).filter
      (Finding.isOutsideAsync form)).Perm (u.outsideAsync form) := by
  intro p
  obtain ⟨-, hfound⟩ := u.prepare_follows options intrinsics hids
  have hforms := hfound (Finding.isOutsideAsync form) fun _ hf =>
    Problem.isPlacement_of_async_code (of_decide_eq_true hf)
  rwa [u.filter_placement_sites, (reports_functions ..).filter_isOutsideAsync
    (by cases form <;> decide), List.nil_append] at hforms

/-- **Constructs of concurrency are reported exactly.** When no two nodes of a unit have the same
identity, the analysis shows a diagnostic with the code of a form once for each construct of that
form that is looked at and stands in code which is not asynchronous, at the place of the construct,
and for nothing else. The check of any expression, block or unit ends in the surroundings in which
it started, whatever they are. -/
theorem async_diagnostics_perm (config : Config) (u : SourceUnit) (hids : u.ids.Nodup) :
    (∀ form : AsyncForm,
      ((analyze config u).diagnostics.filter fun d => d.code = form.code.text).Perm
        ((u.outsideAsync form).map Finding.toDiagnostic)) ∧
    (∀ ctx scope e (s : Session), ((Check.inferExpr ctx scope e).run s).2.around = s.around) ∧
    (∀ ctx scope b (s : Session), ((Check.inferBlock ctx scope b).run s).2.around = s.around) ∧
    (∀ ctx v (s : Session), ((Check.unit ctx v).run s).2.around = s.around) := by
  refine ⟨fun form => ?_, fun ctx scope e s => ?_, fun ctx scope b s => ?_, fun ctx v s => ?_⟩
  · have hcode : ((fun d : Diagnostic => decide (d.code = form.code.text)) ∘
        Finding.toDiagnostic) = Finding.isOutsideAsync form := by
      funext f
      exact decide_eq_decide.2 f.toDiagnostic_code_eq_iff
    rw [Analysis.diagnostics, List.filter_map, hcode]
    exact (u.filter_findings_perm config.analysis config.readableIntrinsics hids form).map _
  · exact ((Check.inferExpr_follows {} {} ctx ⟨scope, s.around⟩ e).run s
      rfl).around
  · exact ((Check.inferBlock_follows {} {} ctx ⟨scope, s.around⟩ .block b).run s
      rfl).around
  · exact ((Check.unit_follows {} {} ctx s.around v).run s rfl).around

/-- A unit with constructs of concurrency in every kind of context. The script and the first value
of the field are not asynchronous. In `f` the asynchronous lambda is, with the plain lambda inside
it, and what comes after it is not; the target of the assignment is not looked at. In the
asynchronous `g` a plain lambda is asynchronous too, and in `h` it is not. -/
def nestedContexts : SourceUnit :=
  let node (n : UInt64) : Node := ⟨⟨n⟩, { line := n }⟩
  let one (n : UInt64) : Expr := .literal (node n) (.int 1)
  let body (n : UInt64) (e : Expr) : Block := ⟨node n, [], some e⟩
  { node := node 0
    decls :=
      [.script (.expr (node 1) (.await (node 2) (one 3))),
      .struct
        { node := node 4, name := "S",
          fields :=
            [{ node := node 5, name := "field", ty := .named {} "Int" [],
               initializer := some (.timeout (node 6) (one 7) (body 8 (one 9))) }] },
      .function
        { node := node 10, name := "f",
          body :=
            ⟨node 11,
              [.expr (node 12) (.lambda (node 13) [] true
                (body 14 (.lambda (node 15) [] false
                  (body 16 (.await (node 17) (one 18)))))),
              .expr (node 19) (.assign (node 20) (.await (node 21) (one 22)) (one 23)),
              .expr (node 24) (.concurrent (node 25) [⟨node 26, "r", one 27⟩])],
              none⟩ },
      .function
        { node := node 28, name := "g", isAsync := true,
          body := body 29 (.lambda (node 30) [] false (body 31 (.race (node 32)
            (body 33 (one 34))))) },
      .function
        { node := node 35, name := "h",
          body := body 36 (.lambda (node 37) [] false (body 38 (.race (node 39)
            (body 40 (one 41))))) }] }

/-- Nested contexts. -/
theorem async_diagnostics_nestedContexts :
    nestedContexts.ids.Nodup ∧
      nestedContexts.outsideAsync .await = [⟨.outsideAsync .await none, { line := 2 }⟩] ∧
      nestedContexts.outsideAsync .concurrent =
        [⟨.outsideAsync .concurrent (some "f"), { line := 25 }⟩] ∧
      nestedContexts.outsideAsync .race =
        [⟨.outsideAsync .race (some "<lambda>"), { line := 39 }⟩] ∧
      nestedContexts.outsideAsync .timeout = [⟨.outsideAsync .timeout none, { line := 6 }⟩] ∧
      ∀ form : AsyncForm,
        ((analyze {} nestedContexts).diagnostics.filter fun d => d.code = form.code.text).Perm
          ((nestedContexts.outsideAsync form).map Finding.toDiagnostic) :=
  ⟨by decide, by rfl, by rfl, by rfl, by rfl,
    (async_diagnostics_perm {} nestedContexts (by decide)).1⟩

end UnitAnalysis

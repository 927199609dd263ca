import UnitAnalysis.Proofs.Check.Mirror

/-!
# Whole bodies, checked twice

The walk through an expression, a block or a declaration mirrors itself in every comparison that
covers its nodes and constructs: `inferExpr_mirrors`, `inferBlock_mirrors` and `unit_mirrors`.
-/

set_option autoImplicit false

namespace UnitAnalysis

namespace Check

theorem endsDiverging_rename (f : NodeId → NodeId) (stmts : List Stmt) :
    endsDiverging (Stmt.renameAll f stmts) = endsDiverging stmts := by
  have hlast : (Stmt.renameAll f stmts).getLast? = stmts.getLast?.map (Stmt.rename f) := by
    have hmap : Stmt.renameAll f stmts = stmts.map (Stmt.rename f) := by
      induction stmts with
      | nil => rfl
      | cons stmt rest ih => cases stmt <;> simp [Stmt.renameAll, Stmt.rename, ih]
    rw [hmap, List.getLast?_map]
  unfold endsDiverging
  rw [hlast]
  cases stmts.getLast? with
  | none => rfl
  | some stmt =>
    cases stmt with
    | letBind _ _ _ _ _ => rfl
    | expr _ value =>
      cases value with
      | ifElse _ _ _ other => cases other <;> rfl
      | ret _ result => cases result <;> rfl
      | tryCatch _ _ _ cleanup => cases cleanup <;> rfl
      | _ => rfl

variable {ctx ctx' : Context} {C : Comparison ctx ctx'}

mutual

theorem inferExpr_mirrors (e : Expr) {a a' : ScopeId} (ha : C.scopes a a')
    (hc : C.Covers (e.sites blindRules ())) :
    Mirrors C Eq (inferExpr ctx a e) (inferExpr ctx' a' (e.rename C.rename)) := by
  unfold inferExpr walkExpr
  have hid : e.id ∈ C.ids := hc (.expr () e) (by unfold Expr.sites; exact List.mem_cons_self)
  rw [Expr.id_rename]
  refine .memo hid ?_
  match e with
  | .literal _ _ | .breakLoop _ | .continueLoop _ => exact .pure rfl
  | .ident node name => exact .name ha name node.span
  | .binary node op left right =>
    simp only [Expr.sites] at hc
    refine (inferExpr_mirrors left ha hc.tail.left).bind fun l =>
      (inferExpr_mirrors right ha hc.tail.right).bind fun r => ?_
    rw [binaryType_under ctx.options, binaryType_under ctx'.options]
    exact (Mirrors.report _).bind fun _ => .pure rfl
  | .unary _ op operand =>
    simp only [Expr.sites] at hc
    exact (inferExpr_mirrors operand ha hc.tail).bind fun _ =>
      .judge_of_codes (reports_unaryType ..) rfl
  | .call node callee args =>
    simp only [Expr.sites] at hc
    have hcallee := inferExpr_mirrors callee ha hc.tail.left
    refine (walkArgs_mirrors args ha hc.tail.right).bind fun args => ?_
    have hvalue := hcallee.bind fun t => .judge_of_codes (reports_callValue t node.span) rfl
    cases callee with
    | ident calleeNode name =>
      have hnode : calleeNode.id ∈ C.ids :=
        hc.tail.left (.expr () (.ident calleeNode name)) List.mem_cons_self
      exact .callee ha hnode name args node.span hcallee
    | ifElse _ _ _ other => cases other <;> exact hvalue
    | ret _ value => cases value <;> exact hvalue
    | tryCatch _ _ _ cleanup => cases cleanup <;> exact hvalue
    | _ => exact hvalue
  | .methodCall _ receiver _ _ args =>
    simp only [Expr.sites] at hc
    exact (inferExpr_mirrors receiver ha hc.tail.left).bind fun _ =>
      (walkArgs_mirrors args ha hc.tail.right).bind fun _ =>
        .judge_of_codes (reports_callMethod ..) (C.contexts.callMethod ..)
  | .fieldAccess _ object _ =>
    simp only [Expr.sites] at hc
    exact (inferExpr_mirrors object ha hc.tail).bind fun _ =>
      .judge_of_codes (reports_fieldType ..) (C.contexts.decls.fieldType ..)
  | .index _ object position =>
    simp only [Expr.sites] at hc
    exact (inferExpr_mirrors object ha hc.tail.left).bind fun _ =>
      (inferExpr_mirrors position ha hc.tail.right).bind fun _ =>
        .judge_of_codes (reports_indexType ..) rfl
  | .ifElse _ cond thenBranch none =>
    simp only [Expr.sites, Expr.rename, Expr.span_rename] at hc ⊢
    exact (inferExpr_mirrors cond ha hc.tail.left).bind fun _ =>
      (Mirrors.report_of_codes (reports_conditionFindings ..)).bind fun _ =>
        (inferBlock_mirrors thenBranch ha hc.tail.right).bind fun _ => .pure rfl
  | .ifElse _ cond thenBranch (some other) =>
    simp only [Expr.sites, Expr.rename, Expr.span_rename] at hc ⊢
    exact (inferExpr_mirrors cond ha hc.tail.left).bind fun _ =>
      (Mirrors.report_of_codes (reports_conditionFindings ..)).bind fun _ =>
        (inferBlock_mirrors thenBranch ha hc.tail.right.left).bind fun _ =>
          (inferExpr_mirrors other ha hc.tail.right.right).bind fun _ => .pure rfl
  | .matchOn node scrutinee arms =>
    simp only [Expr.sites] at hc
    refine (inferExpr_mirrors scrutinee ha hc.tail.left).bind fun t =>
      (walkArms_mirrors t arms ha hc.tail.right).bind fun _ => ?_
    rw [C.contexts.decls.matchFindings]
    exact (Mirrors.report_of_codes (Match.reports_findings ..)).bind fun _ => .pure rfl
  | .block _ body =>
    simp only [Expr.sites] at hc
    exact inferBlock_mirrors body ha hc.tail
  | .lambda node params isAsync body =>
    simp only [Expr.sites] at hc
    have hbody := inferBlock_mirrors body (C.enter hc.tail.opening ha) hc.tail.tail
    refine (hbody.inside fun _ => rfl).bind fun _ => .pure ?_
    have hparams : lambdaParamTypes ctx'.table (params.map (LambdaParam.rename C.rename)) =
        lambdaParamTypes ctx.table params := by
      simp only [lambdaParamTypes, List.map_map]
      refine List.map_congr_left fun p hp => ?_
      exact congrArg (Option.getD · Ty.void) (C.annotations _ (hc.tail.annotated _
        (List.mem_cons_of_mem _ (List.mem_map_of_mem hp))))
    rw [hparams]
  | .whileLoop _ cond body =>
    simp only [Expr.sites, Expr.rename, Expr.span_rename] at hc ⊢
    exact (inferExpr_mirrors cond ha hc.tail.left).bind fun _ =>
      (Mirrors.report_of_codes (reports_conditionFindings ..)).bind fun _ =>
        (inferBlock_mirrors body ha hc.tail.right).bind fun _ => .pure rfl
  | .forLoop node pattern iterable body =>
    simp only [Expr.sites] at hc
    have hinner := hc.tail.right
    have ha' := C.enter hinner.opening ha
    exact (inferExpr_mirrors iterable ha hc.tail.left).bind fun _ =>
      (Mirrors.judge_of_codes (reports_elementType ..) rfl).bind fun t =>
        (Mirrors.bindPattern ha' (C.owned hinner.opening a) pattern t).bind fun _ =>
          (inferBlock_mirrors body ha' hinner.tail.tail).bind fun _ => .pure rfl
  | .ret node none => exact (Mirrors.checkReturn .void node.span).bind fun _ => .pure rfl
  | .ret node (some value) =>
    simp only [Expr.sites] at hc
    exact (inferExpr_mirrors value ha hc.tail).bind fun t =>
      (Mirrors.checkReturn t node.span).bind fun _ => .pure rfl
  | .assign node target value =>
    simp only [Expr.sites] at hc
    have htarget := inferExpr_mirrors target ha hc.tail.left
    refine (inferExpr_mirrors value ha hc.tail.right).bind fun v => ?_
    have hassigned : ∀ t : Ty, Mirrors C Eq
        (report (assignedFindings t v node.span) >>= fun _ => Pure.pure v)
        (report (assignedFindings t v node.span) >>= fun _ => Pure.pure v) := fun t =>
      (Mirrors.report_of_codes (reports_assignedFindings ..)).bind fun _ => .pure rfl
    have hinvalid : ∀ span : Span, Mirrors C Eq
        (report [⟨.invalidTarget, span⟩] >>= fun _ => Pure.pure v)
        (report [⟨.invalidTarget, span⟩] >>= fun _ => Pure.pure v) := by
      intro span
      have hcode : Reports [.invalidAssignmentTarget] [⟨.invalidTarget, span⟩] :=
        .one List.mem_cons_self
      exact (Mirrors.report_of_codes hcode).bind fun _ => .pure rfl
    cases target with
    | ident _ name =>
      refine htarget.bind fun t => .get_bind fun s s' hs => ?_
      have hmutability : mutabilityFindings (s'.scopes.lookup a' name) node.span =
          mutabilityFindings (s.scopes.lookup a name) node.span := by
        rw [hs.lookup ha]
        cases s.scopes.lookup a name <;> rfl
      change Mirrors C Eq _
        (report (mutabilityFindings (s'.scopes.lookup a' name) node.span) >>= fun _ => _)
      rw [hmutability]
      exact (Mirrors.report_of_codes (reports_mutabilityFindings ..)).bind fun _ => hassigned t
    | fieldAccess _ _ _ => exact htarget.bind hassigned
    | index _ _ _ => exact htarget.bind hassigned
    | ifElse targetNode _ _ other => cases other <;> exact hinvalid targetNode.span
    | ret targetNode result => cases result <;> exact hinvalid targetNode.span
    | tryCatch targetNode _ _ cleanup => cases cleanup <;> exact hinvalid targetNode.span
    | _ => exact hinvalid _
  | .arrayLit _ elements =>
    simp only [Expr.sites] at hc
    refine (walkElements_mirrors none elements ha hc.tail).bind fun _ => ?_
    cases elements <;> exact .pure rfl
  | .tupleLit _ elements =>
    simp only [Expr.sites] at hc
    exact (walkArgs_mirrors elements ha hc.tail).bind fun _ => .pure rfl
  | .structLit _ _ fields =>
    simp only [Expr.sites] at hc
    exact (walkInits_mirrors fields ha hc.tail).bind fun _ =>
      .judge_of_codes (reports_structType ..) (C.contexts.decls.structType ..)
  | .tryCatch _ body catches none =>
    simp only [Expr.sites] at hc
    exact (inferBlock_mirrors body ha hc.tail.left).bind fun _ =>
      (walkCatches_mirrors catches ha hc.tail.right).bind fun _ => .pure rfl
  | .tryCatch _ body catches (some cleanup) =>
    simp only [Expr.sites] at hc
    exact (inferBlock_mirrors body ha hc.tail.left).bind fun _ =>
      (walkCatches_mirrors catches ha hc.tail.right.left).bind fun _ =>
        (inferBlock_mirrors cleanup ha hc.tail.right.right).bind fun _ => .pure rfl
  | .throw _ value =>
    simp only [Expr.sites] at hc
    exact (inferExpr_mirrors value ha hc.tail).bind fun _ => .pure rfl
  | .await node value =>
    simp only [Expr.sites] at hc
    exact (Mirrors.requireAsync .await node.span).bind fun _ =>
      (inferExpr_mirrors value ha hc.tail).bind fun _ => .pure rfl
  | .concurrent node bindings =>
    simp only [Expr.sites] at hc
    have hopening := hc.tail.right.opening
    exact (Mirrors.requireAsync .concurrent node.span).bind fun _ =>
      (walkBindings_mirrors [] bindings ha (C.enter hopening ha) (C.owned hopening a)
        hc.tail.left).bind fun _ => .pure rfl
  | .race node body =>
    simp only [Expr.sites] at hc
    exact (Mirrors.requireAsync .race node.span).bind fun _ => inferBlock_mirrors body ha hc.tail
  | .timeout node duration body =>
    simp only [Expr.sites, Expr.rename, Expr.span_rename] at hc ⊢
    exact (Mirrors.requireAsync .timeout node.span).bind fun _ =>
      (inferExpr_mirrors duration ha hc.tail.left).bind fun _ =>
        (Mirrors.report_of_codes (reports_durationFindings ..)).bind fun _ =>
          (inferBlock_mirrors body ha hc.tail.right).bind fun _ => .pure rfl

theorem walkArgs_mirrors (es : List Expr) {a a' : ScopeId} (ha : C.scopes a a')
    (hc : C.Covers (Expr.sitesAll blindRules () es)) :
    Mirrors C Eq (walkArgs direct ctx a es)
      (walkArgs direct ctx' a' (Expr.renameAll C.rename es)) := by
  match es with
  | [] => exact .pure rfl
  | e :: es =>
    simp only [Expr.sitesAll, Expr.renameAll, walkArgs, Expr.span_rename] at hc ⊢
    exact (inferExpr_mirrors e ha hc.left).bind fun _ =>
      (walkArgs_mirrors es ha hc.right).bind fun _ => .pure rfl

theorem walkElements_mirrors (expected : Option Ty) (es : List Expr) {a a' : ScopeId}
    (ha : C.scopes a a') (hc : C.Covers (Expr.sitesAll blindRules () es)) :
    Mirrors C Eq (walkElements direct ctx a expected es)
      (walkElements direct ctx' a' expected (Expr.renameAll C.rename es)) := by
  match es, expected with
  | [], _ => exact .pure rfl
  | e :: es, none =>
    simp only [Expr.sitesAll] at hc
    exact (inferExpr_mirrors e ha hc.left).bind fun _ => walkElements_mirrors _ es ha hc.right
  | e :: es, some wanted =>
    simp only [Expr.sitesAll, Expr.renameAll, walkElements, Expr.span_rename] at hc ⊢
    refine (inferExpr_mirrors e ha hc.left).bind fun t => ?_
    have hcode : Reports [.typeMismatch]
        (if wanted.compatible t then [] else [⟨.elementMismatch wanted t, e.span⟩]) :=
      .ite .nil (.one List.mem_cons_self)
    exact (Mirrors.report_of_codes hcode).bind fun _ =>
      walkElements_mirrors (some wanted) es ha hc.right

theorem walkInits_mirrors (fields : List FieldInit) {a a' : ScopeId} (ha : C.scopes a a')
    (hc : C.Covers (FieldInit.sitesAll blindRules () fields)) :
    Mirrors C Eq (walkInits direct ctx a fields)
      (walkInits direct ctx' a' (FieldInit.renameAll C.rename fields)) := by
  match fields with
  | [] => exact .pure rfl
  | ⟨_, _, value⟩ :: fields =>
    simp only [FieldInit.sitesAll] at hc
    exact (inferExpr_mirrors value ha hc.left).bind fun _ =>
      (walkInits_mirrors fields ha hc.right).bind fun _ => .pure rfl

theorem walkArms_mirrors (scrutinee : Ty) (arms : List MatchArm) {a a' : ScopeId}
    (ha : C.scopes a a') (hc : C.Covers (MatchArm.sitesAll blindRules () arms)) :
    Mirrors C Eq (walkArms direct ctx a scrutinee arms)
      (walkArms direct ctx' a' scrutinee (MatchArm.renameAll C.rename arms)) := by
  match arms with
  | [] => exact .pure rfl
  | ⟨node, pattern, none, body⟩ :: arms =>
    simp only [MatchArm.sitesAll] at hc
    have ha' := C.enter hc.opening ha
    exact (Mirrors.bindPattern ha' (C.owned hc.opening a) pattern scrutinee).bind fun _ =>
      (inferExpr_mirrors body ha' hc.tail.tail.left).bind fun _ =>
        (walkArms_mirrors scrutinee arms ha hc.tail.tail.right).bind fun _ => .pure rfl
  | ⟨node, pattern, some guard, body⟩ :: arms =>
    simp only [MatchArm.sitesAll, MatchArm.renameAll, walkArms, Expr.span_rename] at hc ⊢
    have ha' := C.enter hc.opening ha
    exact (Mirrors.bindPattern ha' (C.owned hc.opening a) pattern scrutinee).bind fun _ =>
      (inferExpr_mirrors guard ha' hc.tail.tail.left.left).bind fun _ =>
        (Mirrors.report_of_codes (reports_conditionFindings ..)).bind fun _ =>
          (inferExpr_mirrors body ha' hc.tail.tail.left.right).bind fun _ =>
            (walkArms_mirrors scrutinee arms ha hc.tail.tail.right).bind fun _ => .pure rfl

theorem walkCatches_mirrors (catches : List CatchClause) {a a' : ScopeId} (ha : C.scopes a a')
    (hc : C.Covers (CatchClause.sitesAll blindRules () catches)) :
    Mirrors C Eq (walkCatches direct ctx a catches)
      (walkCatches direct ctx' a' (CatchClause.renameAll C.rename catches)) := by
  match catches with
  | [] => exact .pure rfl
  | ⟨node, name, ty, body⟩ :: catches =>
    simp only [CatchClause.sitesAll] at hc
    exact (inferBlock_mirrors body (C.enter hc.opening ha) hc.tail.left).bind fun _ =>
      walkCatches_mirrors catches ha hc.tail.right

theorem walkBindings_mirrors (seen : List String) (bindings : List ConcurrentBinding)
    {a a' inner inner' : ScopeId} (ha : C.scopes a a') (hinner : C.scopes inner inner')
    (hown : inner ∈ C.own) (hc : C.Covers (ConcurrentBinding.sitesAll blindRules () bindings)) :
    Mirrors C Eq (walkBindings direct ctx a inner seen bindings)
      (walkBindings direct ctx' a' inner' seen (ConcurrentBinding.renameAll C.rename bindings)) := by
  match bindings with
  | [] => exact .pure rfl
  | ⟨node, name, value⟩ :: bindings =>
    simp only [ConcurrentBinding.sitesAll] at hc
    unfold walkBindings
    refine (inferExpr_mirrors value ha hc.left).bind fun t => ?_
    split
    · have hcode : Reports [.duplicateConcurrentBinding]
          [⟨.duplicateConcurrent name, node.span⟩] := .one List.mem_cons_self
      exact (Mirrors.report_of_codes hcode).bind fun _ =>
        walkBindings_mirrors seen bindings ha hinner hown hc.right
    · exact (Mirrors.resolveName hinner hown name t).bind fun _ =>
        walkBindings_mirrors (name :: seen) bindings ha hinner hown hc.right

theorem inferBlock_mirrors {kind : ScopeKind} (b : Block) {a a' : ScopeId} (ha : C.scopes a a')
    (hc : C.Covers (b.sites blindRules kind ())) :
    Mirrors C Eq (inferBlock ctx a b) (inferBlock ctx' a' (b.rename C.rename)) := by
  unfold inferBlock walkBlock
  have hid : b.id ∈ C.ids := hc (.block () b) (by unfold Block.sites; exact List.mem_cons_self)
  rw [Block.id_rename]
  refine .memo hid ?_
  match b with
  | ⟨node, stmts, none⟩ =>
    simp only [Block.sites, Block.rename, endsDiverging_rename] at hc ⊢
    exact (walkStmts_mirrors stmts (C.enter hc.tail.opening ha) hc.tail.tail).then_related
      fun _ _ _ => .pure rfl
  | ⟨node, stmts, some result⟩ =>
    simp only [Block.sites] at hc
    exact (walkStmts_mirrors stmts (C.enter hc.tail.opening ha) hc.tail.tail.left).then_related
      fun _ _ hlast => inferExpr_mirrors result hlast hc.tail.tail.right

theorem walkStmts_mirrors (stmts : List Stmt) {a a' : ScopeId} (ha : C.scopes a a')
    (hc : C.Covers (Stmt.sitesAll blindRules () stmts)) :
    Mirrors C C.scopes (walkStmts direct ctx a stmts)
      (walkStmts direct ctx' a' (Stmt.renameAll C.rename stmts)) := by
  match stmts with
  | [] => exact .pure ha
  | .letBind node pattern ty isMutable value :: rest =>
    simp only [Stmt.sitesAll, Stmt.renameAll, walkStmts, Expr.span_rename] at hc ⊢
    have hinner := hc.right
    have ha' := C.enter hinner.opening ha
    exact (inferExpr_mirrors value ha hc.left).bind fun t =>
      (Mirrors.bindLet ha' (C.owned hinner.opening a)
        (hinner.annotated _ List.mem_cons_self) pattern t value.span).bind fun _ =>
          walkStmts_mirrors rest ha' hinner.tail.tail
  | .expr node value :: rest =>
    have hafter : C.scopes (scopeAfter ctx.table a (.expr node value))
        (scopeAfter ctx'.table a' (.expr (node.rename C.rename) (value.rename C.rename))) := by
      simp only [Stmt.sitesAll] at hc
      cases value with
      | concurrent node' bindings =>
        have hvalue := hc.left
        simp only [Expr.sites] at hvalue
        exact C.enter hvalue.tail.right.opening ha
      | ifElse _ _ _ other => cases other <;> exact ha
      | ret _ result => cases result <;> exact ha
      | tryCatch _ _ _ cleanup => cases cleanup <;> exact ha
      | _ => exact ha
    simp only [Stmt.sitesAll] at hc
    exact (inferExpr_mirrors value ha hc.left).bind fun _ =>
      walkStmts_mirrors rest hafter hc.right

end

/-! ## Declarations -/

variable {a a' : ScopeId}

theorem function_mirrors {isMethod : Bool} (f : FunctionDecl)
    (ha : C.scopes a a') (hc : C.Covers (f.sites blindRules () isMethod)) :
    Mirrors C Eq (function ctx a f) (function ctx' a' (f.rename C.rename)) := by
  have hspan : resultSpan (f.rename C.rename) = resultSpan f := by
    obtain ⟨node, name, typeParams, params, returnType, isAsync, body⟩ := f
    obtain ⟨bodyNode, stmts, result⟩ := body
    cases result with
    | none => rfl
    | some e => exact e.span_rename C.rename
  unfold function walkFunction
  rw [C.contexts.frameOf, hspan]
  have hbody := inferBlock_mirrors f.body (C.enter hc.opening ha) hc.tail
  refine (hbody.inside fun _ => rfl).bind fun _ => ?_
  rw [resultFindings_under ctx.options, resultFindings_under ctx'.options]
  exact .report _

theorem initializer_mirrors (owner : String) (f : FieldDecl)
    (ha : C.scopes a a') (hf : f.node.id ∈ C.annotated) (hc : C.Covers (f.sites blindRules ())) :
    Mirrors C Eq (initializer ctx a owner f) (initializer ctx' a' owner (f.rename C.rename)) := by
  obtain ⟨node, name, ty, isMutable, value⟩ := f
  cases value with
  | none => exact .pure rfl
  | some e =>
    have hannotation : ctx'.table.annotations.get? (node.rename C.rename).id =
        ctx.table.annotations.get? node.id := C.annotations _ hf
    simp only [initializer, walkInitializer, FieldDecl.rename, Option.map_some, hannotation,
      Expr.span_rename]
    refine (inferExpr_mirrors e ha hc).bind fun found => ?_
    have hcode : ∀ declared : Ty, Reports [.fieldInitializerMismatch]
        (if declared.accepts found then []
          else [⟨.initializerMismatch owner name declared found, e.span⟩]) := fun _ =>
      .ite .nil (.one List.mem_cons_self)
    exact .report_of_codes (hcode _)

theorem initializers_mirrors (owner : String) (fields : List FieldDecl)
    (ha : C.scopes a a') (hids : ∀ id ∈ fields.flatMap FieldDecl.ids, id ∈ C.annotated)
    (hc : C.Covers (fields.flatMap (FieldDecl.sites blindRules ()))) :
    Mirrors C Eq (fields.forM (initializer ctx a owner))
      ((fields.map (FieldDecl.rename C.rename)).forM (initializer ctx' a' owner)) :=
  .forM fun f hf => initializer_mirrors owner f ha
    (hids _ (List.mem_flatMap.2 ⟨f, hf, List.mem_cons_self⟩)) (hc.of_mem_flatMap hf)

theorem functions_mirrors {isMethod : Bool} (fs : List FunctionDecl)
    (ha : C.scopes a a') (hc : C.Covers (fs.flatMap (FunctionDecl.sites blindRules () isMethod))) :
    Mirrors C Eq (fs.forM (function ctx a))
      ((fs.map (FunctionDecl.rename C.rename)).forM (function ctx' a')) :=
  .forM fun f hf => function_mirrors f ha (hc.of_mem_flatMap hf)

theorem declBodies_mirrors (d : Decl) (hids : ∀ id ∈ d.ids, id ∈ C.annotated)
    (hc : C.Covers (d.sites blindRules ())) :
    Mirrors C Eq (declBodies ctx d) (declBodies ctx' (d.rename C.rename)) := by
  cases d with
  | function f => exact function_mirrors f C.global hc
  | classLike c =>
    have ha := C.enter hc.opening C.global
    exact (initializers_mirrors c.name c.fields ha (fun id hid => hids id
      (List.mem_cons_of_mem _ (List.mem_append_left _ hid))) hc.tail.left).bind fun _ =>
        functions_mirrors c.methods ha hc.tail.right
  | struct s | spark s =>
    exact initializers_mirrors s.name s.fields C.global
      (fun id hid => hids id (List.mem_cons_of_mem _ hid)) hc
  | impl i => exact functions_mirrors i.methods C.global hc
  | data d | trait t | interface t | script s => exact .pure rfl

/-- A statement of the script writes to the global scope. -/
theorem declScript_mirrors (d : Decl) (hown : .global ∈ C.own)
    (hids : ∀ id ∈ d.ids, id ∈ C.annotated) (hc : C.Covers (d.sites blindRules ())) :
    Mirrors C Eq (declScript ctx d) (declScript ctx' (d.rename C.rename)) := by
  cases d with
  | script s =>
    cases s with
    | letBind node pattern ty isMutable value =>
      simp only [Decl.rename, Stmt.rename, declScript, walkDeclScript, walkScript,
        Expr.span_rename]
      exact (inferExpr_mirrors value C.global hc.left).bind fun t =>
        .bindLet C.global hown (hids _ List.mem_cons_self) pattern t value.span
    | expr node value =>
      exact (inferExpr_mirrors value C.global hc).bind fun _ => .pure rfl
  | _ => exact .pure rfl

theorem declScripts_mirrors (ds : List Decl) (hown : .global ∈ C.own)
    (hids : ∀ id ∈ ds.flatMap Decl.ids, id ∈ C.annotated)
    (hc : C.Covers (ds.flatMap (Decl.sites blindRules ()))) :
    Mirrors C Eq (ds.forM (declScript ctx))
      ((ds.map (Decl.rename C.rename)).forM (declScript ctx')) :=
  .forM fun d hd => declScript_mirrors d hown
    (fun id hid => hids id (List.mem_flatMap.2 ⟨d, hd, hid⟩)) (hc.of_mem_flatMap hd)

theorem declsBodies_mirrors (ds : List Decl) (hids : ∀ id ∈ ds.flatMap Decl.ids, id ∈ C.annotated)
    (hc : C.Covers (ds.flatMap (Decl.sites blindRules ()))) :
    Mirrors C Eq (ds.forM (declBodies ctx))
      ((ds.map (Decl.rename C.rename)).forM (declBodies ctx')) :=
  .forM fun d hd => declBodies_mirrors d
    (fun id hid => hids id (List.mem_flatMap.2 ⟨d, hd, hid⟩)) (hc.of_mem_flatMap hd)

theorem unit_mirrors (u : SourceUnit) (hown : .global ∈ C.own)
    (hids : ∀ id ∈ u.decls.flatMap Decl.ids, id ∈ C.annotated)
    (hc : C.Covers (u.sites blindRules ())) :
    Mirrors C Eq (unit ctx u) (unit ctx' (u.rename C.rename)) :=
  (declScripts_mirrors u.decls hown hids hc).bind fun _ => declsBodies_mirrors u.decls hids hc

end Check

end UnitAnalysis

import UnitAnalysis.Proofs.Check.Steps

/-!
# The check of bodies

The check of types follows the sites of what it checks: `inferExpr_follows` and its companions, one
for each kind of syntax, say so of every expression, block and list of statements, and
`unit_follows` of a whole unit. The check has an order of its own (arguments come before the
function that is called, and a value before its target), so the sites are listed up to their order.

The statements of a block go on in the scopes of its `let`s and `concurrent` blocks, which were
filled on the way, and the values of a `concurrent` block are checked outside the scope that
receives its names. The script writes to the global scope, which is around everything, so of its
names only the types of their nodes can be told, and not those of the symbols behind them.
-/

set_option autoImplicit false

namespace UnitAnalysis

namespace Check

/-! ## Statements -/

/-- The scope after statements does not depend on the session. -/
theorem walkStmts_value (ctx : Context) (scope : ScopeId) (stmts : List Stmt) (s : Session) :
    ((walkStmts direct ctx scope stmts).run s).1 = stmts.foldl (scopeAfter ctx.table) scope := by
  induction stmts generalizing scope s with
  | nil => rfl
  | cons stmt rest ih =>
    cases stmt with
    | letBind node pattern ty isMutable value => exact ih _ _
    | expr node value => exact ih _ _

/-- What stands after a statement stands in the scope after it. -/
theorem after_standing (t : SymbolTable) (scope : ScopeId) (w : Surroundings) (stmt : Stmt) :
    (standingRules t).after (some ⟨scope, w⟩) stmt = some ⟨scopeAfter t scope stmt, w⟩ := by
  cases stmt with
  | letBind node pattern ty isMutable value => rfl
  | expr node value => cases value <;> rfl

theorem foldl_after_standing (t : SymbolTable) (scope : ScopeId) (w : Surroundings)
    (stmts : List Stmt) :
    stmts.foldl (standingRules t).after (some ⟨scope, w⟩) =
      some ⟨stmts.foldl (scopeAfter t) scope, w⟩ := by
  induction stmts generalizing scope with
  | nil => rfl
  | cons stmt rest ih =>
    rw [List.foldl_cons, List.foldl_cons, after_standing]
    exact ih _

/-- After a statement the check goes on in the scope of the statement or where it was. -/
theorem chain_scopeAfter_subset {t : SymbolTable} (scope : ScopeId) (w : Surroundings) (stmt : Stmt)
    (h : t.Nested (Stmt.sitesAll (standingRules t) (some ⟨scope, w⟩) [stmt])) :
    t.chain (scopeAfter t scope stmt) ⊆ t.chain scope ++
      t.opened (Stmt.sitesAll (standingRules t) (some ⟨scope, w⟩) [stmt]) := by
  cases stmt with
  | letBind node pattern ty isMutable value =>
    refine h.chain_subset ⟨scope, w⟩ (.letBind node pattern) ?_
    exact List.mem_append_right _ List.mem_cons_self
  | expr node value =>
    cases value with
    | concurrent node' bindings =>
      refine h.chain_subset ⟨scope, w⟩ (.concurrent node' bindings) ?_
      refine List.mem_append_left _ (List.mem_cons_of_mem _ ?_)
      exact List.mem_append_right _ (List.mem_singleton_self _)
    | _ => exact List.subset_append_left _ _

/-- So it is after several statements. -/
theorem chain_foldl_subset {t : SymbolTable} (scope : ScopeId) (w : Surroundings)
    (stmts : List Stmt)
    (h : t.Nested (Stmt.sitesAll (standingRules t) (some ⟨scope, w⟩) stmts)) :
    t.chain (stmts.foldl (scopeAfter t) scope) ⊆ t.chain scope ++
      t.opened (Stmt.sitesAll (standingRules t) (some ⟨scope, w⟩) stmts) := by
  induction stmts generalizing scope with
  | nil => exact List.subset_append_left _ _
  | cons stmt rest ih =>
    have hsplit : Stmt.sitesAll (standingRules t) (some ⟨scope, w⟩) (stmt :: rest) =
        Stmt.sitesAll (standingRules t) (some ⟨scope, w⟩) [stmt] ++
          Stmt.sitesAll (standingRules t) (some ⟨scopeAfter t scope stmt, w⟩) rest := by
      rw [← after_standing]
      cases stmt with
      | letBind node pattern ty isMutable value =>
        simp only [Stmt.sitesAll, List.append_assoc, List.cons_append, List.nil_append]
        rfl
      | expr node value => simp only [Stmt.sitesAll, List.append_nil]
    rw [hsplit] at h ⊢
    rw [SymbolTable.opened_append, List.foldl_cons, ← List.append_assoc]
    have hfirst := chain_scopeAfter_subset scope w stmt (h.mono (List.subset_append_left _ _))
    refine List.Subset.trans (ih _ (h.mono (List.subset_append_right _ _))) ?_
    exact List.append_subset.2 ⟨List.Subset.trans hfirst (List.subset_append_left _ _),
      List.subset_append_right _ _⟩

/-! ## Expressions -/

variable {a : Arena} {final : Table NodeId Ty}

/-- An arm fills its scope from its pattern and goes into it, and the next arms follow outside. -/
theorem follows_arm {ctx : Context} {st : Standing} (node : Node) (pattern : Pattern)
    (scrutinee : Ty) {body : Check Ty} {rest : Check (List Ty)} {ids ids' : List NodeId}
    {sites sites' : List (Site (Option Standing))}
    (hbody : body.Follows ctx a final (st.into ctx.table node.id) [] ids [] sites)
    (hrest : rest.Follows ctx a final st [] ids' [] sites') :
    (bindPattern ctx (ctx.table.scopeFor node.id st.scope) pattern scrutinee >>= fun _ =>
      body >>= fun t => rest >>= fun ts => pure (t :: ts)).Follows ctx a final st [] (ids ++ ids')
      [] (.opening (some st) (.arm node pattern) ::
        .pattern (some (st.into ctx.table node.id)) pattern :: (sites ++ sites')) := by
  have hbind : (bindPattern ctx (ctx.table.scopeFor node.id st.scope) pattern scrutinee).Follows ctx
      a final st [ctx.table.scopeFor node.id st.scope] [] []
      [.pattern (some (st.into ctx.table node.id)) pattern] :=
    follows_bindPattern (st.into ctx.table node.id) (List.mem_singleton_self _) pattern scrutinee
  have harm := Follows.enter (.arm node pattern) hbind fun _ => hbody
  exact ⟨(harm.bind fun t => hrest.then_quiet fun ts => .pure (t :: ts)).run⟩

variable (a final) (ctx : Context)

mutual

/-- The check of an expression follows its sites. -/
theorem inferExpr_follows (st : Standing) (e : Expr) :
    (inferExpr ctx st.scope e).Follows ctx a final st [] e.ids []
      (e.sites (standingRules ctx.table) (some st)) := by
  unfold inferExpr walkExpr
  match e with
  | .literal _ _ | .breakLoop _ | .continueLoop _ =>
    exact follows_expr (.pure _) (.refl _) (.refl _)
  | .ident node name => exact follows_name node name
  | .binary _ op left right =>
    exact follows_expr ((inferExpr_follows st left).bind fun _ =>
      (inferExpr_follows st right).then_quiet fun _ =>
        follows_judge (reports_binaryType ..) (by split <;> decide)) (.refl _) (.refl _)
  | .unary _ op operand =>
    exact follows_expr ((inferExpr_follows st operand).then_quiet fun _ =>
      follows_judge (reports_unaryType ..) (by decide)) (.refl _) (.refl _)
  | .call node callee args =>
    have hargs := walkArgs_follows st args
    have hcallee := inferExpr_follows st callee
    refine follows_expr (hargs.bind fun args => ?_)
      (List.perm_append_comm.cons _).subperm (List.perm_append_comm.cons _)
    cases callee with
    | ident calleeNode name => exact follows_callee calleeNode name args node.span hcallee
    | _ => exact hcallee.then_quiet fun _ => follows_judge (reports_callValue ..) (by decide)
  | .methodCall _ receiver _ _ args =>
    exact follows_expr ((inferExpr_follows st receiver).bind fun _ =>
      (walkArgs_follows st args).then_quiet fun _ =>
        follows_judge (reports_callMethod ..) (by decide)) (.refl _) (.refl _)
  | .fieldAccess _ object _ =>
    exact follows_expr ((inferExpr_follows st object).then_quiet fun _ =>
      follows_judge (reports_fieldType ..) (by decide)) (.refl _) (.refl _)
  | .index _ object position =>
    exact follows_expr ((inferExpr_follows st object).bind fun _ =>
      (inferExpr_follows st position).then_quiet fun _ =>
        follows_judge (reports_indexType ..) (by decide)) (.refl _) (.refl _)
  | .ifElse _ cond thenBranch none =>
    exact follows_expr ((inferExpr_follows st cond).bind fun _ =>
      (follows_reports (reports_conditionFindings ..) (by decide)).bind fun _ =>
        (inferBlock_follows st .block thenBranch).then_quiet fun _ => .pure _)
      (.refl _) (.refl _)
  | .ifElse _ cond thenBranch (some other) =>
    exact follows_expr ((inferExpr_follows st cond).bind fun _ =>
      (follows_reports (reports_conditionFindings ..) (by decide)).bind fun _ =>
        (inferBlock_follows st .block thenBranch).bind fun _ =>
          (inferExpr_follows st other).then_quiet fun _ => .pure _) (.refl _) (.refl _)
  | .matchOn _ scrutinee arms =>
    exact follows_expr ((inferExpr_follows st scrutinee).bind fun t =>
      (walkArms_follows st t arms).then_quiet fun _ =>
        (follows_reports (Match.reports_findings ..) (by decide)).bind fun _ => .pure _)
      (.refl _) (.refl _)
  | .block _ body =>
    exact follows_expr (inferBlock_follows st .block body) (.refl _) (.refl _)
  | .lambda node params isAsync body =>
    have hbody := inferBlock_follows
      ⟨ctx.table.scopeFor node.id st.scope, st.around.enterLambda isAsync⟩ .block body
    exact follows_expr (.opening (.lambda node params isAsync)
      ((hbody.inside (st.into ctx.table node.id) rfl).then_quiet fun _ => .pure _))
      ((List.sublist_append_right _ body.ids).cons_cons node.id).subperm (.refl _)
  | .whileLoop _ cond body =>
    exact follows_expr ((inferExpr_follows st cond).bind fun _ =>
      (follows_reports (reports_conditionFindings ..) (by decide)).bind fun _ =>
        (inferBlock_follows st .loop body).then_quiet fun _ => .pure _)
      (.refl _) (.refl _)
  | .forLoop node pattern iterable body =>
    refine follows_expr ((inferExpr_follows st iterable).bind fun _ =>
      ((follows_judge (reports_elementType ..) (by decide)).bind fun _ =>
        .enter (.forLoop node pattern)
          (follows_bindPattern (st.into ctx.table node.id) (List.mem_singleton_self _)
            pattern _) fun _ =>
          (inferBlock_follows (st.into ctx.table node.id) .block body).then_quiet
            fun _ => .pure _)) ?_ (.refl _)
    exact (((List.sublist_append_right pattern.ids body.ids).append_left
      iterable.ids).cons_cons node.id).subperm
  | .ret node none =>
    exact follows_expr ((follows_return ctx.options .void node.span).own_then fun _ => .pure _)
      (.refl _) (.refl _)
  | .ret node (some value) =>
    exact follows_expr ((inferExpr_follows st value).bind_recorded
      (by unfold Expr.ids; exact List.mem_cons_self) (get?_inferExpr ctx st.scope value) fun t =>
      (follows_return ctx.options t node.span).own_then fun _ => .pure _) (.refl _) (.refl _)
      (fun _ => trivial) fun id hid => (List.mem_cons.1 hid).imp_right fun hid =>
      ⟨.expr (some st) value, by unfold Expr.sites; exact List.mem_cons_self, nofun,
        List.mem_cons.2 (.inl (List.mem_singleton.1 hid))⟩
  | .assign node target value =>
    have hvalue := inferExpr_follows st value
    have htarget := inferExpr_follows st target
    have hassigned : ∀ t v : Ty, (report (assignedFindings t v node.span) >>= fun _ =>
        Pure.pure v : Check Ty).Follows ctx a final st [] [] [] [] := fun t v =>
      (follows_reports (reports_assignedFindings ..) (by decide)).bind fun _ => .pure _
    cases target with
    | ident _ name =>
      exact follows_expr (hvalue.bind fun v => htarget.then_quiet fun t => .get_bind fun _ _ =>
        (follows_reports (reports_mutabilityFindings ..) (by decide)).bind fun _ =>
          hassigned t v)
        (List.perm_append_comm.cons _).subperm (List.perm_append_comm.cons _)
    | fieldAccess _ _ _ | index _ _ _ =>
      exact follows_expr (hvalue.bind fun v => htarget.then_quiet fun t => hassigned t v)
        (List.perm_append_comm.cons _).subperm (List.perm_append_comm.cons _)
    | _ =>
      refine follows_expr (.skipped (hvalue.then_quiet fun v =>
        (follows_report_of_nil rfl).bind fun _ => .pure v) (fun s => ?_) _) (.refl _) (.refl _)
      exact ⟨_, List.mem_append_right _ (List.mem_singleton_self _), rfl⟩
  | .arrayLit _ elements =>
    exact follows_expr ((walkElements_follows st none elements).then_quiet
      fun _ => .pure _) (.refl _) (.refl _)
  | .tupleLit _ elements =>
    exact follows_expr ((walkArgs_follows st elements).then_quiet fun _ => .pure _)
      (.refl _) (.refl _)
  | .structLit _ _ fields =>
    exact follows_expr ((walkInits_follows st fields).then_quiet fun _ =>
      follows_judge (reports_structType ..) (by decide)) (.refl _) (.refl _)
  | .tryCatch _ body catches none =>
    exact follows_expr ((inferBlock_follows st .block body).bind fun _ =>
      (walkCatches_follows st catches).then_quiet fun _ => .pure _) (.refl _) (.refl _)
  | .tryCatch _ body catches (some cleanup) =>
    exact follows_expr ((inferBlock_follows st .block body).bind fun _ =>
      (walkCatches_follows st catches).bind fun _ =>
        (inferBlock_follows st .block cleanup).then_quiet fun _ => .pure _)
      (.refl _) (.refl _)
  | .throw _ value =>
    exact follows_expr ((inferExpr_follows st value).then_quiet fun _ => .pure _)
      (.refl _) (.refl _)
  | .await node value =>
    exact follows_expr ((follows_async .await node.span).own_then fun _ =>
      (inferExpr_follows st value).then_quiet fun _ => .pure _) (.refl _) (.refl _)
  | .concurrent node bindings =>
    exact follows_expr ((follows_async .concurrent node.span).own_then fun _ =>
      .absorb (.concurrent node bindings)
        ((walkBindings_follows st (ctx.table.scopeFor node.id st.scope) []
          bindings).then_quiet fun _ => .pure _)) (.refl _)
      ((List.perm_append_singleton _ _).symm.cons _)
  | .race node body =>
    exact follows_expr ((follows_async .race node.span).own_then fun _ =>
      inferBlock_follows st .block body) (.refl _) (.refl _)
  | .timeout node duration body =>
    exact follows_expr ((follows_async .timeout node.span).own_then fun _ =>
      (inferExpr_follows st duration).bind fun _ =>
        (follows_reports (reports_durationFindings ..) (by decide)).bind fun _ =>
          (inferBlock_follows st .block body).then_quiet fun _ => .pure _)
      (.refl _) (.refl _)

theorem walkArgs_follows (st : Standing) (es : List Expr) :
    (walkArgs direct ctx st.scope es).Follows ctx a final st [] (Expr.idsAll es) []
      (Expr.sitesAll (standingRules ctx.table) (some st) es) := by
  match es with
  | [] => exact .pure _
  | e :: es =>
    exact (inferExpr_follows st e).bind fun _ =>
      (walkArgs_follows st es).then_quiet fun _ => .pure _

theorem walkElements_follows (st : Standing) (expected : Option Ty)
    (es : List Expr) :
    (walkElements direct ctx st.scope expected es).Follows ctx a final st [] (Expr.idsAll es) []
      (Expr.sitesAll (standingRules ctx.table) (some st) es) := by
  match es, expected with
  | [], _ => exact .pure _
  | e :: es, none =>
    exact (inferExpr_follows st e).bind fun _ => walkElements_follows st _ es
  | e :: es, some wanted =>
    refine (inferExpr_follows st e).bind fun t =>
      (follows_report_of_nil ?_).bind fun _ => walkElements_follows st (some wanted) es
    split <;> rfl

theorem walkInits_follows (st : Standing) (fields : List FieldInit) :
    (walkInits direct ctx st.scope fields).Follows ctx a final st [] (FieldInit.idsAll fields) []
      (FieldInit.sitesAll (standingRules ctx.table) (some st) fields) := by
  match fields with
  | [] => exact .pure _
  | ⟨_, _, value⟩ :: fields =>
    exact (inferExpr_follows st value).bind fun _ =>
      (walkInits_follows st fields).then_quiet fun _ => .pure _

theorem walkArms_follows (st : Standing) (scrutinee : Ty) (arms : List MatchArm) :
    (walkArms direct ctx st.scope scrutinee arms).Follows ctx a final st [] (MatchArm.idsAll arms) []
      (MatchArm.sitesAll (standingRules ctx.table) (some st) arms) := by
  match arms with
  | [] => exact .pure _
  | ⟨node, pattern, none, body⟩ :: arms =>
    have hbody := inferExpr_follows (st.into ctx.table node.id) body
    have harms := walkArms_follows st scrutinee arms
    exact Follows.weaken ⟨(follows_arm node pattern scrutinee hbody harms).run⟩
      ((List.sublist_append_right pattern.ids _).cons node.id).subperm
  | ⟨node, pattern, some guard, body⟩ :: arms =>
    have hbody := (inferExpr_follows (st.into ctx.table node.id) guard).bind fun c =>
      (follows_reports (reports_conditionFindings c guard.span) (by decide)).bind fun _ =>
        inferExpr_follows (st.into ctx.table node.id) body
    have harms := walkArms_follows st scrutinee arms
    exact Follows.weaken ⟨(follows_arm node pattern scrutinee hbody harms).run⟩
      ((List.sublist_append_right pattern.ids _).cons node.id).subperm

theorem walkCatches_follows (st : Standing) (catches : List CatchClause) :
    (walkCatches direct ctx st.scope catches).Follows ctx a final st []
      (CatchClause.idsAll catches) []
      (CatchClause.sitesAll (standingRules ctx.table) (some st) catches) := by
  match catches with
  | [] => exact .pure _
  | ⟨node, name, ty, body⟩ :: catches =>
    exact ((Follows.opening (.catchClause node name)
      (inferBlock_follows (st.into ctx.table node.id) .block body)).bind
      fun _ => walkCatches_follows st catches).weaken
      (List.sublist_cons_self node.id _).subperm

theorem walkBindings_follows (st : Standing) (inner : ScopeId)
    (seen : List String) (bindings : List ConcurrentBinding) :
    (walkBindings direct ctx st.scope inner seen bindings).Follows ctx a final st [inner]
      (ConcurrentBinding.idsAll bindings) []
      (ConcurrentBinding.sitesAll (standingRules ctx.table) (some st) bindings) := by
  match bindings with
  | [] => exact .pure _
  | ⟨node, name, value⟩ :: bindings =>
    unfold walkBindings
    refine ((inferExpr_follows st value).widen.bind fun t => ?_).weaken
      (List.sublist_cons_self node.id _).subperm
    split
    · exact (follows_report_of_nil rfl).bind fun _ =>
        walkBindings_follows st inner seen bindings
    · exact (follows_resolveName (List.mem_singleton_self inner) name t).bind fun _ =>
        walkBindings_follows st inner (name :: seen) bindings

theorem inferBlock_follows (st : Standing) (kind : ScopeKind) (b : Block) :
    (inferBlock ctx st.scope b).Follows ctx a final st [] b.ids []
      (b.sites (standingRules ctx.table) kind (some st)) := by
  unfold inferBlock walkBlock
  match b with
  | ⟨node, stmts, none⟩ =>
    exact follows_memo (.block (some st) ⟨node, stmts, none⟩)
      (.opening (.block kind ⟨node, stmts, none⟩)
        ((walkStmts_follows (st.into ctx.table node.id) stmts).then_quiet
          fun _ => .pure _)) rfl (fun _ h => .inl (List.mem_singleton.1 h)) rfl rfl
      fun _ _ _ _ _ => trivial
  | ⟨node, stmts, some result⟩ =>
    refine follows_memo (.block (some st) ⟨node, stmts, some result⟩)
      (.opening (.block kind ⟨node, stmts, some result⟩) ?_) rfl
      (fun _ h => .inl (List.mem_singleton.1 h)) rfl rfl fun _ _ _ _ _ => trivial
    have hlast := foldl_after_standing ctx.table (ctx.table.scopeFor node.id st.scope) st.around
      stmts
    have hresult := inferExpr_follows
      ⟨stmts.foldl (scopeAfter ctx.table) (ctx.table.scopeFor node.id st.scope), st.around⟩ result
    rw [← hlast] at hresult
    exact (walkStmts_follows (st.into ctx.table node.id) stmts).bind_value _
      (walkStmts_value ctx _ stmts) hresult (chain_foldl_subset _ _ stmts)

theorem walkStmts_follows (st : Standing) (stmts : List Stmt) :
    (walkStmts direct ctx st.scope stmts).Follows ctx a final st [] (Stmt.idsAll stmts) []
      (Stmt.sitesAll (standingRules ctx.table) (some st) stmts) := by
  match stmts with
  | [] => exact .pure _
  | .letBind node pattern ty isMutable value :: rest =>
    exact ((inferExpr_follows st value).bind fun t => .enter (.letBind node pattern)
      (follows_bindLet (st.into ctx.table node.id) (List.mem_singleton_self _) node
        pattern t value.span)
      fun _ => walkStmts_follows (st.into ctx.table node.id) rest).weaken
      (((List.sublist_append_right pattern.ids _).append_left value.ids).cons node.id).subperm
  | .expr node value :: rest =>
    have hrest := walkStmts_follows
      ⟨scopeAfter ctx.table st.scope (.expr node value), st.around⟩ rest
    have hscope := chain_scopeAfter_subset (t := ctx.table) st.scope st.around (.expr node value)
    simp only [Stmt.sitesAll, List.append_nil] at hscope
    rw [← after_standing] at hrest
    exact ((inferExpr_follows st value).bind_in (fun _ => hrest) hscope).weaken
      (List.sublist_cons_self node.id _).subperm

end

/-! ## Declarations -/

/-- The check of a function follows its sites, and reports a result of the wrong type. -/
theorem function_follows (st : Standing) (isMethod : Bool) (f : FunctionDecl) :
    (function ctx st.scope f).Follows ctx a final st [] f.ids (f.placement ctx final)
      (f.sites (standingRules ctx.table) (some st) isMethod) := by
  unfold function
  have hbody := inferBlock_follows a final ctx ⟨ctx.table.scopeFor f.node.id st.scope,
    st.around.enterFunction (frameOf ctx.table f)⟩ .block f.body
  refine Follows.weaken (.opening (.function f isMethod)
    ((hbody.inside (st.into ctx.table f.node.id) rfl).bind_recorded ?_ (fun s => ?_) fun t =>
      follows_report (placement_resultFindings ..))) ?_
  · unfold Block.ids
    exact List.mem_cons_self
  · exact get?_inferBlock ctx _ f.body _
  · exact ((List.sublist_append_right _ f.body.ids).cons f.node.id).subperm

theorem initializer_follows (st : Standing) (owner : String) (f : FieldDecl) :
    (initializer ctx st.scope owner f).Follows ctx a final st [] f.ids []
      (f.sites (standingRules ctx.table) (some st)) := by
  obtain ⟨node, name, ty, isMutable, value⟩ := f
  cases value with
  | none => exact (Follows.pure ()).weaken List.nil_subperm
  | some e =>
    refine ((inferExpr_follows a final ctx st e).then_quiet fun found =>
      follows_report_of_nil ?_).weaken (List.sublist_cons_self node.id _).subperm
    split <;> rfl

theorem initializers_follow (st : Standing) (owner : String) (fields : List FieldDecl) :
    (fields.forM (initializer ctx st.scope owner)).Follows ctx a final st []
      (fields.flatMap FieldDecl.ids) []
      (fields.flatMap (FieldDecl.sites (standingRules ctx.table) (some st))) := by
  have h := Follows.forM fields (initializer_follows a final ctx st owner)
  rwa [List.flatMap_eq_nil_iff.2 fun _ _ => rfl] at h

variable (w : Surroundings)

theorem classLike_follows (c : ClassDecl) :
    (classLike ctx c).Follows ctx a final ⟨.global, w⟩ [] (Decl.ids (.classLike c))
      (c.methods.flatMap (FunctionDecl.placement ctx final))
      (c.sites (standingRules ctx.table) (some ⟨.global, w⟩)) := by
  have hfields := initializers_follow a final ctx
    ⟨ctx.table.scopeFor c.node.id .global, w⟩ c.name c.fields
  have hmethods := Follows.forM c.methods
    (function_follows a final ctx ⟨ctx.table.scopeFor c.node.id .global, w⟩ true)
  refine Follows.weaken (.opening (.classBody c) (hfields.bind fun _ => hmethods)) ?_
  exact (List.sublist_cons_self c.node.id _).subperm

/-- What a declaration is listed with when statements of the script are meant. -/
def ifScript {γ : Type} (d : Decl) (l : List γ) : List γ :=
  match d with
  | .script _ => l
  | _ => []

/-- What a declaration is listed with when no statements of the script are meant. -/
def unlessScript {γ : Type} (d : Decl) (l : List γ) : List γ :=
  match d with
  | .script _ => []
  | _ => l

theorem ifScript_append_unlessScript {γ : Type} (d : Decl) (l : List γ) :
    ifScript d l ++ unlessScript d l = l := by
  cases d with
  | script s => exact List.append_nil l
  | _ => rfl

/-- The check of a statement of the script follows its sites and writes to the global scope. -/
theorem declScript_follows (d : Decl) :
    (declScript ctx d).Follows ctx a final ⟨.global, w⟩ [.global] (ifScript d d.ids) []
      (ifScript d (d.sites (standingRules ctx.table) (some ⟨.global, w⟩))) := by
  cases d with
  | script s =>
    cases s with
    | letBind node pattern ty isMutable value =>
      refine ((inferExpr_follows a final ctx ⟨.global, w⟩ value).widen.bind fun t =>
        follows_bindLet ⟨.global, w⟩ (List.mem_singleton_self _) node pattern t
          value.span).weaken ?_
      rw [List.append_nil]
      exact ((List.sublist_append_left value.ids _).cons node.id).subperm
    | expr node value =>
      exact ((inferExpr_follows a final ctx ⟨.global, w⟩ value).widen.then_quiet fun _ =>
        .pure _).weaken ((List.sublist_append_left value.ids _).cons node.id).subperm
  | _ => exact .pure _

theorem declBodies_follows (d : Decl) :
    (declBodies ctx d).Follows ctx a final ⟨.global, w⟩ [] (unlessScript d d.ids)
      (d.functions.flatMap (FunctionDecl.placement ctx final))
      (unlessScript d (d.sites (standingRules ctx.table) (some ⟨.global, w⟩))) := by
  cases d with
  | function f =>
    have h := function_follows a final ctx ⟨.global, w⟩ false f
    rwa [← List.flatMap_singleton (FunctionDecl.placement ctx final) f] at h
  | classLike c => exact classLike_follows a final ctx w c
  | struct s | spark s =>
    exact (initializers_follow a final ctx ⟨.global, w⟩ s.name s.fields).weaken
      (List.sublist_cons_self s.node.id _).subperm
  | impl i =>
    exact (Follows.forM i.methods (function_follows a final ctx ⟨.global, w⟩ true)).weaken
      (List.sublist_cons_self i.node.id _).subperm
  | data d | trait t | interface t => exact (Follows.pure ()).weaken List.nil_subperm
  | script s => exact .pure _

/-- What is listed for the script and then for all other declarations is what is listed for all
declarations, in another order. -/
theorem flatMap_ifScript_perm {γ : Type} (decls : List Decl) (f : Decl → List γ) :
    (decls.flatMap (fun d => ifScript d (f d)) ++
      decls.flatMap fun d => unlessScript d (f d)).Perm (decls.flatMap f) := by
  have h := List.flatMap_append_perm decls (fun d => ifScript d (f d))
    fun d => unlessScript d (f d)
  simpa only [ifScript_append_unlessScript] using h

/-- The check of a unit follows its sites, and reports the results of the wrong types. The script
comes before all bodies. -/
theorem unit_follows (u : SourceUnit) :
    (unit ctx u).Follows ctx a final ⟨.global, w⟩ [.global] (u.decls.flatMap Decl.ids)
      (u.functions.flatMap (FunctionDecl.placement ctx final))
      (u.sites (standingRules ctx.table) (some ⟨.global, w⟩)) := by
  have hscript := Follows.forM u.decls (declScript_follows a final ctx w)
  have hbodies := Follows.forM u.decls (declBodies_follows a final ctx w)
  rw [List.flatMap_eq_nil_iff.2 fun _ _ => rfl] at hscript
  rw [← List.flatMap_assoc] at hbodies
  exact ((hscript.bind fun _ => hbodies.widen).weaken
    (flatMap_ifScript_perm u.decls Decl.ids).subperm).relist (flatMap_ifScript_perm u.decls
      (Decl.sites (standingRules ctx.table) (some ⟨.global, w⟩)))

end Check

end UnitAnalysis

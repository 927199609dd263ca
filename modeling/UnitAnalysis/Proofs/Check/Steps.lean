import UnitAnalysis.Proofs.Check.Follow

/-!
# Steps of a check

`Check.Follows` says of a step of a check that it follows a list of sites, whatever session it
starts from. It is built along the step: `bind` puts two walks together, `enter` and `opening` go
into a construct, `inside` goes into a function, and `follows_memo` adds the node that is called on.
-/

set_option autoImplicit false

namespace UnitAnalysis

namespace Check

/-! ## Running a step -/

theorem run_bind {α β : Type} (x : Check α) (f : α → Check β) (s : Session) :
    (x >>= f).run s = (f (x.run s).1).run (x.run s).2 := rfl

theorem run_get (s : Session) : (get : Check Session).run s = (s, s) := rfl

section Memo

variable {v : Visit} {infer : Check Ty} {s : Session}

/-- A call on a node with a type only notes the call. -/
theorem memo_run_of_some {t : Ty} (h : s.types.get? v.id = some t) :
    (memo direct v infer).run s = (t, { s with visits := s.visits.push v }) := by
  have hvisit : (visit v).run s = ((), { s with visits := s.visits.push v }) := rfl
  simp only [memo, run_bind, hvisit, run_get, h]
  rfl

/-- A call on a node without a type looks into it and remembers the type. -/
theorem memo_run_of_none (h : s.types.get? v.id = none) :
    (memo direct v infer).run s =
      (infer >>= fun t => record v.id t >>= fun _ => Pure.pure t).run
        { s with visits := s.visits.push v } := by
  have hvisit : (visit v).run s = ((), { s with visits := s.visits.push v }) := rfl
  simp only [memo, run_bind, hvisit, run_get, h]

/-- The answer of a call is the type that the node has afterwards. -/
theorem get?_memo (v : Visit) (infer : Check Ty) (s : Session) :
    ((memo direct v infer).run s).2.types.get? v.id = some ((memo direct v infer).run s).1 := by
  cases h : s.types.get? v.id with
  | some t =>
    rw [memo_run_of_some h]
    exact h
  | none =>
    rw [memo_run_of_none h]
    exact Table.get?_insert_self _ _ _

end Memo

theorem get?_inferExpr (ctx : Context) (scope : ScopeId) (e : Expr) (s : Session) :
    ((inferExpr ctx scope e).run s).2.types.get? e.id =
      some ((inferExpr ctx scope e).run s).1 := by
  unfold inferExpr walkExpr
  exact get?_memo ..

theorem get?_inferBlock (ctx : Context) (scope : ScopeId) (b : Block) (s : Session) :
    ((inferBlock ctx scope b).run s).2.types.get? b.id =
      some ((inferBlock ctx scope b).run s).1 := by
  unfold inferBlock walkBlock
  exact get?_memo ..

/-! ## Steps that follow -/

/-- A step of a check walks through sites, whatever session it starts from that has the surroundings
of the given standing. -/
structure Follows {α : Type} (x : Check α) (ctx : Context) (a : Arena) (final : Table NodeId Ty)
    (st : Standing) (beside : List ScopeId) (ids : List NodeId) (own : List Finding)
    (sites : List (Site (Option Standing))) : Prop where
  run : ∀ s : Session, s.around = st.around →
    Session.Follows ctx a final st.scope beside ids own sites s (x.run s).2

variable {α β : Type} {ctx : Context} {a : Arena} {final : Table NodeId Ty} {st : Standing}
  {beside : List ScopeId} {ids ids' : List NodeId} {own own' : List Finding}
  {sites sites' : List (Site (Option Standing))}

namespace Follows

theorem pure (x : α) : Follows (Pure.pure x) ctx a final st beside [] [] [] :=
  ⟨fun s _ => .refl s⟩

variable {x : Check α} {f : α → Check β}

/-- A walk that goes on in the scope of a construct that it came by. -/
theorem bind_in {inner : ScopeId} (hx : x.Follows ctx a final st beside ids own sites)
    (hf : ∀ v, (f v).Follows ctx a final ⟨inner, st.around⟩ beside ids' own' sites')
    (hinner : ctx.table.Nested sites →
      ctx.table.chain inner ⊆ ctx.table.chain st.scope ++ ctx.table.opened sites) :
    (x >>= f).Follows ctx a final st beside (ids ++ ids') (own ++ own') (sites ++ sites') :=
  ⟨fun s hs => (hx.run s hs).trans ((hf _).run _ ((hx.run s hs).around.trans hs)) hinner⟩

theorem bind (hx : x.Follows ctx a final st beside ids own sites)
    (hf : ∀ v, (f v).Follows ctx a final st beside ids' own' sites') :
    (x >>= f).Follows ctx a final st beside (ids ++ ids') (own ++ own') (sites ++ sites') :=
  hx.bind_in hf fun _ => List.subset_append_left _ _

/-- A walk that goes on in the scope of a construct that it came by, which is known beforehand. -/
theorem bind_value {inner : ScopeId} (v : α)
    (hx : x.Follows ctx a final st beside ids own sites) (hv : ∀ s, (x.run s).1 = v)
    (hf : (f v).Follows ctx a final ⟨inner, st.around⟩ beside ids' own' sites')
    (hinner : ctx.table.Nested sites →
      ctx.table.chain inner ⊆ ctx.table.chain st.scope ++ ctx.table.opened sites) :
    (x >>= f).Follows ctx a final st beside (ids ++ ids') (own ++ own') (sites ++ sites') := by
  refine ⟨fun s hs => (hx.run s hs).trans ?_ hinner⟩
  change Session.Follows ctx a final inner beside ids' own' sites' _
    ((f (x.run s).1).run (x.run s).2).2
  rw [hv]
  exact hf.run _ ((hx.run s hs).around.trans hs)

/-- A walk after which problems are reported that hang on the type of a node of the walk. The node
keeps its type, so they can be told from the types in the end. -/
theorem bind_recorded {x : Check Ty} {f : Ty → Check β} {id : NodeId} {found : Ty → List Finding}
    (hx : x.Follows ctx a final st beside ids [] sites) (hid : id ∈ ids)
    (hrecorded : ∀ s, (x.run s).2.types.get? id = some (x.run s).1)
    (hf : ∀ t, (f t).Follows ctx a final st beside [] (found t) []) :
    (x >>= f).Follows ctx a final st beside ids (found (.ofNode final id)) sites := by
  refine ⟨fun s hs => ?_⟩
  have hlast := (hf (x.run s).1).run (x.run s).2 ((hx.run s hs).around.trans hs)
  have hwalk := (hx.run s hs).trans hlast fun _ => List.subset_append_left _ _
  rw [List.append_nil, List.append_nil, List.nil_append] at hwalk
  refine { hwalk with problems := fun hfresh hnames hfinal => ?_ }
  rw [Ty.ofNode, hfinal id hid, run_bind, hlast.types id List.not_mem_nil, hrecorded]
  exact hwalk.problems hfresh hnames hfinal

theorem weaken (hx : x.Follows ctx a final st beside ids own sites)
    (hids : ids.Subperm ids') : x.Follows ctx a final st beside ids' own sites :=
  ⟨fun s hs => (hx.run s hs).weaken hids⟩

theorem relist (hx : x.Follows ctx a final st beside ids own sites)
    (hsites : sites.Perm sites') : x.Follows ctx a final st beside ids own sites' :=
  ⟨fun s hs => (hx.run s hs).relist hsites⟩

theorem widen (hx : x.Follows ctx a final st [] ids own sites) :
    x.Follows ctx a final st beside ids own sites :=
  ⟨fun s hs => (hx.run s hs).widen⟩

theorem then_quiet (hx : x.Follows ctx a final st beside ids own sites)
    (hf : ∀ v, (f v).Follows ctx a final st beside [] [] []) :
    (x >>= f).Follows ctx a final st beside ids own sites := by
  have h := hx.bind hf
  rwa [List.append_nil, List.append_nil, List.append_nil] at h

/-- A walk before which the problems of the expression itself are reported. -/
theorem own_then (hx : x.Follows ctx a final st beside [] own [])
    (hf : ∀ v, (f v).Follows ctx a final st beside ids [] sites) :
    (x >>= f).Follows ctx a final st beside ids own sites := by
  have h := hx.bind hf
  rwa [List.append_nil] at h

theorem get_bind {f : Session → Check α}
    (hf : ∀ s : Session, s.around = st.around →
      (f s).Follows ctx a final st beside ids own sites) :
    (get >>= f).Follows ctx a final st beside ids own sites :=
  ⟨fun s hs => (hf s hs).run s hs⟩

theorem absorb (o : Opening)
    (hx : x.Follows ctx a final st [ctx.table.scopeFor o.id st.scope] ids own sites) :
    x.Follows ctx a final st [] ids own (.opening (some st) o :: sites) :=
  ⟨fun s hs => (hx.run s hs).absorb⟩

/-- A walk that first fills the scope of a construct and then goes into it. -/
theorem enter (o : Opening)
    (hx : x.Follows ctx a final st [ctx.table.scopeFor o.id st.scope] ids own sites)
    (hf : ∀ v, (f v).Follows ctx a final (st.into ctx.table o.id) [] ids'
      own' sites') :
    (x >>= f).Follows ctx a final st [] (ids ++ ids') (own ++ own')
      (.opening (some st) o :: (sites ++ sites')) :=
  ⟨fun s hs => (hx.run s hs).enter ((hf _).run _ ((hx.run s hs).around.trans hs))⟩

/-- A walk inside a construct whose scope has its types already. -/
theorem opening (o : Opening)
    (hx : x.Follows ctx a final (st.into ctx.table o.id) [] ids own sites) :
    x.Follows ctx a final st [] ids own (.opening (some st) o :: sites) :=
  ⟨fun s hs => (Session.Follows.refl s).enter (hx.run s hs)⟩

/-- A walk inside a function or lambda, after which the check is where it was: the innermost frame
is the one that was put there, and the depth was kept. -/
theorem inside {enter : Surroundings → Surroundings} (st : Standing)
    (hx : x.Follows ctx a final ⟨st.scope, enter st.around⟩ beside ids own sites)
    (hframes : (enter st.around).frames.tail = st.around.frames) :
    (Check.inside direct enter x).Follows ctx a final st beside ids own sites := by
  refine ⟨fun s hs => ?_⟩
  have hwalk := hx.run { s with around := enter s.around } (congrArg enter hs)
  refine ⟨hwalk.scopes, hwalk.symbols, hwalk.types, ?_, hwalk.findings, hwalk.calls,
    fun hfresh => hwalk.typed ⟨hfresh.nodup, hfresh.untyped⟩,
    fun hfresh => hwalk.problems ⟨hfresh.nodup, hfresh.untyped⟩,
    fun hready z hz => hwalk.agrees ⟨⟨hready.fresh.nodup, hready.fresh.untyped⟩, hready.framed,
      hready.opened, hready.around, hready.beside, hready.nested⟩ z
      ⟨hz.enclosing, hz.symbols, hz.types⟩⟩
  change (x.run { s with around := enter s.around }).2.around.leave s.around.asyncDepth = s.around
  rw [hwalk.around]
  unfold Surroundings.leave
  rw [← hs] at hframes
  rw [hframes]

theorem forM {ι : Type} {f : ι → Check Unit} {ids : ι → List NodeId} {own : ι → List Finding}
    {sites : ι → List (Site (Option Standing))} (xs : List ι)
    (h : ∀ x, (f x).Follows ctx a final st beside (ids x) (own x) (sites x)) :
    (xs.forM f).Follows ctx a final st beside (xs.flatMap ids) (xs.flatMap own)
      (xs.flatMap sites) := by
  induction xs with
  | nil => exact pure ()
  | cons x xs ih => exact (h x).bind fun _ => ih

/-- A target that cannot be assigned to may be listed as well, once it was reported. -/
theorem skipped (hx : x.Follows ctx a final st beside ids own sites)
    (hreports : ∀ s, (x.run s).2.ReportsTarget) (e : Expr) :
    x.Follows ctx a final st beside (e.ids ++ ids) own
      (e.sites (standingRules ctx.table) none ++ sites) :=
  ⟨fun s hs => (hx.run s hs).skipped (hreports s) e⟩

end Follows

/-! ## Reports -/

theorem follows_report {found : List Finding} (h : placement found = own) :
    (report found).Follows ctx a final st beside [] own [] :=
  ⟨fun _ _ => h ▸ .of_quiet found (.refl _ _) (fun _ _ _ => rfl) rfl rfl rfl rfl⟩

/-- A report of problems that are not about places. -/
theorem follows_report_of_nil {found : List Finding} (h : placement found = []) :
    (report found).Follows ctx a final st beside [] [] [] :=
  follows_report h

theorem follows_reports {codes : List Code} {found : List Finding} (h : Reports codes found)
    (hcodes : ∀ c ∈ codes, c ∉ Code.ofPlaces) :
    (report found).Follows ctx a final st beside [] [] [] :=
  follows_report (h.placement_eq_nil hcodes)

theorem follows_judge {codes : List Code} {j : Judged α} (h : Reports codes j.2)
    (hcodes : ∀ c ∈ codes, c ∉ Code.ofPlaces) :
    (judge j).Follows ctx a final st beside [] [] [] :=
  (follows_reports h hcodes).then_quiet fun _ => .pure _

theorem placement_asyncFindings (w : Surroundings) (form : AsyncForm) (span : Span) :
    placement (asyncFindings w form span) = asyncFindings w form span := by
  unfold asyncFindings
  split <;> rfl

theorem placement_resultFindings (options : Options) (f : Frame) (found : Ty) (span : Span) :
    placement (resultFindings options f found span) = resultFindings options f found span := by
  unfold resultFindings returnProblem
  split
  · split
    · rfl
    · split <;> rfl
  · rfl

theorem placement_returnFindings (options : Options) (w : Surroundings) (found : Ty)
    (span : Span) :
    placement (returnFindings options w found span) = returnFindings options w found span := by
  unfold returnFindings
  split
  · exact placement_resultFindings ..
  · rfl

/-- A construct of concurrency is reported where it may not stand. -/
theorem follows_async (form : AsyncForm) (span : Span) :
    (requireAsync form span).Follows ctx a final st beside []
      (asyncFindings st.around form span) [] := by
  refine .get_bind fun s hs => ?_
  rw [hs]
  exact follows_report (placement_asyncFindings ..)

/-- A `return` is reported where it may not stand, and where it gives back the wrong type. -/
theorem follows_return (options : Options) (found : Ty) (span : Span) :
    (checkReturn options found span).Follows ctx a final st beside []
      (returnFindings options st.around found span) [] := by
  refine .get_bind fun s hs => ?_
  rw [hs]
  exact follows_report (placement_returnFindings ..)

/-! ## Names and patterns -/

theorem follows_resolveName {inner : ScopeId} (hscope : inner ∈ beside) (name : String) (ty : Ty) :
    (resolveName inner name ty).Follows ctx a final st beside [] [] [] := by
  refine ⟨fun s _ => .of_quiet [] ?_ (fun c hc seen => ?_) rfl rfl rfl (List.append_nil _).symm⟩
  · exact (Arena.defines_resolveType s.scopes inner name ty).of_nil .global
  · have hne : c ≠ inner := fun heq => hc (heq ▸ hscope)
    exact (Arena.lookupLocal_modifySymbols ..).trans (if_neg hne)

theorem follows_bindPattern (inner : Standing) (hscope : inner.scope ∈ beside) (pattern : Pattern)
    (ty : Ty) :
    (bindPattern ctx inner.scope pattern ty).Follows ctx a final st beside [] []
      [.pattern (some inner) pattern] := by
  have hnames : ∀ typings,
      (resolveNames inner.scope typings).Follows ctx a final st beside [] [] [] := by
    intro typings
    induction typings with
    | nil => exact .pure _
    | cons p rest ih => exact (follows_resolveName hscope p.1 p.2).bind fun _ => ih
  have hvisit : (visitAll (pattern.visits inner.scope)).Follows ctx a final st beside [] []
      [.pattern (some inner) pattern] := by
    refine ⟨fun s _ => ⟨.refl _ _, fun _ _ _ _ => rfl, fun _ _ => rfl, rfl, List.Subset.refl _,
      fun v hv => ?_, fun _ => ?_, fun _ _ _ => ?_, fun _ _ _ => ?_⟩⟩
    · change v ∈ s.visits ++ pattern.visits inner.scope at hv
      rw [← Array.mem_toList_iff, Array.toList_appendList, List.mem_append,
        Array.mem_toList_iff] at hv
      rwa [List.flatMap_cons, List.flatMap_nil, List.append_nil]
    · simp [Site.typedIds]
    · exact .of_eq (List.append_nil _).symm
    · simp [Site.Agrees]
  exact hvisit.then_quiet fun _ => hnames _

theorem follows_bindLet (inner : Standing) (hscope : inner.scope ∈ beside) (node : Node)
    (pattern : Pattern) (value : Ty) (span : Span) :
    (bindLet ctx inner.scope node pattern value span).Follows ctx a final st beside [] []
      [.pattern (some inner) pattern] :=
  (follows_judge (reports_boundType ..) (by decide)).bind fun _ =>
    follows_bindPattern inner hscope pattern _

/-! ## Calls -/

/-- A node that is called on is new, so it is looked into and then gets its type. -/
theorem follows_memo (site : Site (Option Standing)) {v : Visit} {infer : Check Ty}
    (hinfer : infer.Follows ctx a final st beside ids own sites) (hcall : site.calls = [v])
    (htyped : ∀ id ∈ site.typedIds, id = v.id ∨
      ∃ part ∈ sites, part.place ≠ none ∧ id ∈ part.typedIds)
    (hopened : site.opened? ctx.table = none)
    (hown : site.placement ctx a final = own)
    (hagrees : ∀ s, (∀ c, s.scopes.enclosing c = ctx.table.scopes.enclosing c) →
      ∀ z : Session, z.types.get? v.id = some (infer.run s).1 →
        Session.Retains (ctx.table.chain st.scope) [] (infer.run s).2 z → site.Agrees z) :
    (memo direct v infer).Follows ctx a final st beside (v.id :: ids) [] (site :: sites) := by
  refine ⟨fun s hs => ?_⟩
  cases hold : s.types.get? v.id with
  | some t =>
    rw [memo_run_of_some hold]
    -- The node has a type, so it is none of the new ones.
    have hnew : ¬ s.Fresh (v.id :: ids) := fun hfresh => by
      rw [hfresh.untyped v.id List.mem_cons_self] at hold
      cases hold
    exact ⟨.refl _ _, fun _ _ _ _ => rfl, fun _ _ => rfl, rfl, List.Subset.refl _,
      fun call hmem => (Array.mem_push.1 hmem).imp_right fun heq => List.mem_append_left _
        (hcall ▸ List.mem_singleton.2 heq), fun hfresh => absurd hfresh hnew,
      fun hfresh => absurd hfresh hnew, fun hready => absurd hready.fresh hnew⟩
  | none =>
    rw [memo_run_of_none hold]
    have hwalk := hinfer.run { s with visits := s.visits.push v } hs
    refine (hwalk.record _ htyped hopened (fun _ => hown) (hagrees _)).after_visit ?_
    exact List.mem_append_left _ (hcall ▸ List.mem_singleton_self v)

/-- The check of an expression looks into the expression and gives it its type. -/
theorem follows_expr {e : Expr} {infer : Check Ty}
    (h : infer.Follows ctx a final st [] ids (e.placement ctx a final st) sites)
    (hids : (e.id :: ids).Subperm e.ids)
    (hsites : (.expr (some st) e :: sites).Perm (e.sites (standingRules ctx.table) (some st)))
    (hagrees : ∀ z, Site.Agrees z (.expr (some st) e) := by exact fun _ => trivial)
    (htyped : ∀ id ∈ Site.typedIds (.expr (some st) e), id = e.id ∨
      ∃ part ∈ sites, part.place ≠ none ∧ id ∈ part.typedIds := by
        exact fun _ h => .inl (List.mem_singleton.1 h)) :
    (memo direct ⟨.expr, e.id, st.scope⟩ infer).Follows ctx a final st [] e.ids []
      (e.sites (standingRules ctx.table) (some st)) :=
  ((follows_memo (.expr (some st) e) h rfl htyped rfl rfl fun _ _ z _ _ =>
    hagrees z).weaken hids).relist hsites

/-- While no scope around a place changes, a name has the same type there. -/
theorem typeOf_eq_of_retains {t : SymbolTable} {place : ScopeId} {s z : Session}
    (h : Session.Retains (t.chain place) ids s z)
    (hframed : ∀ c, s.scopes.enclosing c = t.scopes.enclosing c) (name : String) :
    z.scopes.typeOf place name = s.scopes.typeOf place name := by
  unfold Arena.typeOf
  rw [Arena.lookup_congr (h.enclosing place) fun c hc => ?_]
  rw [hframed] at hc
  exact h.symbols c hc name

/-- A name is reported when it cannot be seen. -/
theorem follows_nameType (node : Node) (name : String) :
    (direct.search st.scope name >>= fun found => judge (nameType found name node.span)).Follows
      ctx a final st beside [] ((Expr.ident node name).placement ctx a final st) [] := by
  refine ⟨fun s hs => ?_⟩
  have hreport : Session.Follows ctx a final st.scope beside [] _ [] s { s with findings :=
      s.findings ++ (nameType (s.scopes.lookupWithScope st.scope name) name node.span).2 } :=
    (follows_report rfl).run s hs
  refine { hreport with problems := fun hfresh hnames hfinal => ?_ }
  have hown : placement (nameType (s.scopes.lookupWithScope st.scope name) name node.span).2 =
      (Expr.ident node name).placement ctx a final st := by
    have hsees := hnames.sees_iff st.scope name
    unfold Arena.Sees Arena.lookup at hsees
    unfold nameType Expr.placement Arena.Sees
    cases hlookup : s.scopes.lookupWithScope st.scope name with
    | none =>
      rw [hlookup] at hsees
      exact (if_neg fun h => Bool.false_ne_true (hsees.2 h)).symm
    | some symbol =>
      rw [hlookup] at hsees
      exact (if_pos (hsees.1 rfl)).symm
  rw [← hown]
  exact hreport.problems hfresh hnames hfinal

/-- A name gets the type of the symbol that it stands for. -/
theorem follows_name (node : Node) (name : String) :
    (memo direct ⟨.expr, node.id, st.scope⟩ (do
      judge (nameType (← direct.search st.scope name) name node.span))).Follows ctx a final st []
      [node.id] [] [.expr (some st) (.ident node name)] := by
  refine follows_memo (.expr (some st) (.ident node name)) (follows_nameType node name) rfl
    (fun _ h => .inl (List.mem_singleton.1 h)) rfl rfl fun s hframed z hz hkept => ?_
  change z.types.get? node.id = some (z.scopes.typeOf st.scope name)
  rw [hz, typeOf_eq_of_retains hkept hframed]
  change some (nameType (s.scopes.lookupWithScope st.scope name) name node.span).1 =
    some (s.scopes.typeOf st.scope name)
  unfold nameType Arena.typeOf Arena.lookup
  cases s.scopes.lookupWithScope st.scope name <;> rfl

/-- A name that is called is looked up once. When it can be seen it is not called on, has no problem
of place and gets the type of the symbol that it stands for. -/
theorem follows_callee (node : Node) (name : String) (args : List Argument) (span : Span)
    (hname : (inferExpr ctx st.scope (.ident node name)).Follows ctx a final st [] [node.id] []
      [.expr (some st) (.ident node name)]) :
    (do
      match ← direct.search st.scope name with
      | some (owner, symbol) =>
        record node.id symbol.ty
        judge (callSymbol ctx owner symbol args span)
      | none =>
        let _ ← inferExpr ctx st.scope (.ident node name)
        return .any : Check Ty).Follows ctx a final st [] [node.id] []
      [.expr (some st) (.ident node name)] := by
  refine ⟨fun s hs => ?_⟩
  change Session.Follows ctx a final st.scope [] _ _ _ s
    ((match s.scopes.lookupWithScope st.scope name with
      | some (owner, symbol) => do
        record node.id symbol.ty
        judge (callSymbol ctx owner symbol args span)
      | none => do
        let _ ← inferExpr ctx st.scope (.ident node name)
        return .any : Check Ty).run s).2
  cases hlookup : s.scopes.lookupWithScope st.scope name with
  | none => exact (hname.then_quiet fun _ => .pure _).run s hs
  | some found =>
    have htype : s.scopes.typeOf st.scope name = found.2.ty := by
      rw [Arena.typeOf, Arena.lookup, hlookup]
      rfl
    have hrecord : Session.Follows ctx a final st.scope [] [node.id] []
        [.expr (some st) (.ident node name)] s
        { s with types := s.types.insert node.id found.2.ty } := by
      refine (Session.Follows.refl s).record found.2.ty (fun _ h => .inl (List.mem_singleton.1 h))
        rfl (fun hnames => if_pos ?_) fun hframed z hz hkept => ?_
      · rw [← hnames.sees_iff, Arena.Sees, Arena.lookup, hlookup]
        rfl
      · change z.types.get? node.id = some (z.scopes.typeOf st.scope name)
        rw [hz, typeOf_eq_of_retains hkept hframed, htype]
    exact hrecord.trans ((follows_judge (reports_callSymbol ctx found.1 found.2 args span)
      (by decide)).run _ hs) fun _ => List.subset_append_left _ _

end Check

end UnitAnalysis

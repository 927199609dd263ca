import UnitAnalysis.Proofs.Scope.Agreement
import UnitAnalysis.Proofs.Scope.GuardedBuild

/-!
# A guarded check

The check of a unit, with every index of a scope asked for before it is used: a name is searched for
in one scope after the other, and gets its type in a scope that has to be there. The check opens no
scope and moves none. It takes the scopes of nodes from the table, so it stays among the scopes of
the construction.

The main result puts the construction and the check together: the guarded analysis of a unit raises
no fault and gives what the analysis gives, also when identities occur more than once.
-/

set_option autoImplicit false

namespace UnitAnalysis

/-- A step of a guarded check. -/
abbrev GuardedCheck := Guarded Session

namespace GuardedCheck

open Guarded (plain ask)

/-- A scope has to be there when it is used, and a name is searched for in one scope after the
other. -/
def steps : Check.Steps GuardedCheck where
  plain := plain
  inScope scope x := do
    ask fun s => s.scopes.require scope
    plain x
  search scope name := ask fun s => s.scopes.search scope name

/-- Checks a unit, with these steps. -/
def unit : Context → SourceUnit → GuardedCheck Unit :=
  Check.walkUnit steps

end GuardedCheck

/-! ## What the check keeps -/

/-- The scopes of a session are those of `a`, in which names may have received types. -/
def Session.Over (a : Arena) (s : Session) : Prop :=
  Arena.Defines .global [] a s.scopes

/-- The scopes that a context has for nodes are among those of `a`, which are in order. -/
structure Context.Fits (a : Arena) (ctx : Context) : Prop where
  ordered : a.Ordered
  bounded : ∀ id scope, ctx.table.scopeMap.get? id = some scope → scope.index < a.size

namespace Context.Fits

variable {a : Arena} {ctx : Context} {scope : ScopeId}

/-- Scopes of nodes. -/
theorem scopeFor_lt (h : ctx.Fits a) (hscope : scope.index < a.size) (id : NodeId) :
    (ctx.table.scopeFor id scope).index < a.size := by
  unfold SymbolTable.scopeFor
  cases hid : ctx.table.scopeMap.get? id with
  | none => exact hscope
  | some inner => exact h.bounded id inner hid

/-- Scopes after statements. -/
theorem scopeAfter_lt (h : ctx.Fits a) (hscope : scope.index < a.size) (stmt : Stmt) :
    (Check.scopeAfter ctx.table scope stmt).index < a.size := by
  cases stmt with
  | letBind node pattern ty isMutable value => exact h.scopeFor_lt hscope node.id
  | expr node value =>
    cases value with
    | concurrent node' bindings => exact h.scopeFor_lt hscope node'.id
    | _ => exact hscope

end Context.Fits

namespace GuardedCheck

open Check
open Session (Over)

variable {α β : Type} {a : Arena} {scope : ScopeId}

/-- A guarded step of the check raises no fault and does what the plain step does. -/
def Safe (a : Arena) (x : GuardedCheck α) (y : Check α) : Prop :=
  Faultless (Over a) x y fun _ => Over a

/-- Doing nothing. -/
theorem Safe.pure (v : α) : Safe a (Pure.pure v) (Pure.pure v) :=
  Faultless.pure fun _ h => h

/-- A step that leaves the scopes alone. -/
theorem safe_plain {y : Check α} (hy : ∀ s, (y.run s).2.scopes = s.scopes) :
    Safe a (steps.plain y) y := by
  refine Faultless.plain ⟨fun s hs => ?_⟩
  unfold Session.Over
  rwa [hy s]

/-- Reports. -/
theorem safe_report (found : List Finding) :
    Safe a (steps.plain (report found)) (report found) :=
  safe_plain fun _ => rfl

/-- Judgements. -/
theorem safe_judge (j : Judged α) : Safe a (steps.plain (judge j)) (judge j) :=
  safe_plain fun _ => rfl

/-- Asking for async. -/
theorem safe_requireAsync (form : AsyncForm) (span : Span) :
    Safe a (steps.plain (requireAsync form span)) (requireAsync form span) :=
  safe_plain fun _ => rfl

/-- Returns. -/
theorem safe_checkReturn (options : Options) (found : Ty) (span : Span) :
    Safe a (steps.plain (checkReturn options found span)) (checkReturn options found span) :=
  safe_plain fun _ => rfl

/-- Types once found. -/
theorem Safe.memo {x : GuardedCheck Ty} {y : Check Ty} (h : Safe a x y) (v : Visit) :
    Safe a (memo steps v x) (memo direct v y) := by
  refine Faultless.bind (safe_plain fun _ => rfl) fun _ => .look fun s hs => ?_
  refine Faultless.from_state ?_ hs
  cases s.types.get? v.id with
  | some t => exact Safe.pure t
  | none =>
    exact Faultless.bind h fun t => Faultless.bind (safe_plain fun _ => rfl) fun _ => Safe.pure t

/-- A change of surroundings. -/
theorem Safe.inside {x : GuardedCheck α} {y : Check α} (h : Safe a x y)
    (enter : Surroundings → Surroundings) :
    Safe a (inside steps enter x) (inside direct enter y) := by
  have hmodify (f : Session → Surroundings) : Safe a
      (modify fun s => { s with around := f s }) (modify fun s => { s with around := f s }) :=
    ⟨fun _ _ => rfl, .modify fun _ hs => hs⟩
  refine .look fun s hs => Faultless.from_state ?_ hs
  exact Faultless.bind (hmodify _) fun _ => Faultless.bind h fun v =>
    Faultless.bind (hmodify _) fun _ => Safe.pure v

/-- A step in a scope. -/
theorem safe_inScope {x : Check α} (hscope : scope.index < a.size) (hx : Keeps (Over a) x) :
    Safe a (steps.inScope scope x) x := by
  refine Faultless.asked (fun s hs => if_pos ?_) (Faultless.plain hx)
  rwa [hs.size]

/-- Giving a name its type. -/
theorem keeps_resolveName (scope : ScopeId) (name : String) (t : Ty) :
    Keeps (Over a) (Check.resolveName scope name t) :=
  .modify fun s hs => hs.trans ((s.scopes.defines_resolveType scope name t).of_nil .global)

/-- Patterns. -/
theorem keeps_bindPattern (ctx : Context) (scope : ScopeId) (pattern : Pattern) (t : Ty) :
    Keeps (Over a) (bindPattern ctx scope pattern t) := by
  have hnames (typings : List (String × Ty)) :
      Keeps (Over a) (resolveNames scope typings) := by
    induction typings with
    | nil => exact Keeps.pure ()
    | cons typing typings ih => exact (keeps_resolveName scope typing.1 typing.2).bind fun _ => ih
  exact Keeps.bind (.modify fun _ hs => hs) fun _ => hnames _

/-- Bindings. -/
theorem keeps_bindLet (ctx : Context) (scope : ScopeId) (node : Node) (pattern : Pattern)
    (value : Ty) (span : Span) : Keeps (Over a) (bindLet ctx scope node pattern value span) :=
  Keeps.bind (safe_judge _).meets fun _ => keeps_bindPattern ctx scope pattern _

/-- A search one scope at a time finds what a look-up finds. -/
theorem safe_search (ha : a.Ordered) (hscope : scope.index < a.size) (name : String) :
    Safe a (steps.search scope name) (direct.search scope name) :=
  .ask (fun _ hs => (ha.defines hs).search_eq (hs.size ▸ hscope) name) fun _ hs => hs

/-! ## The check of bodies -/

section Bodies

variable {ctx : Context} (hctx : ctx.Fits a)

include hctx

-- The theorems on lists use the hypothesis through the others alone.
set_option linter.unusedSectionVars false

mutual

/-- Expressions. -/
theorem walkExpr_safe {scope : ScopeId} (hscope : scope.index < a.size)
    (e : Expr) : Safe a (walkExpr steps ctx scope e) (walkExpr direct ctx scope e) := by
  unfold walkExpr
  refine Safe.memo ?_ _
  match e with
  | .literal _ _ | .breakLoop _ | .continueLoop _ => exact Safe.pure _
  | .ident _ name => exact (safe_search hctx.ordered hscope name).bind fun _ => safe_judge _
  | .binary _ _ left right | .index _ left right =>
    exact (walkExpr_safe hscope left).bind fun _ =>
      (walkExpr_safe hscope right).bind fun _ => safe_judge _
  | .unary _ _ e | .fieldAccess _ e _ =>
    exact (walkExpr_safe hscope e).bind fun _ => safe_judge _
  | .call node callee args =>
    have hcallee := walkExpr_safe hscope callee
    refine (walkArgs_safe hscope args).bind fun args => ?_
    cases callee with
    | ident _ name =>
      -- the name is called on only if it stands for nothing
      refine (safe_search hctx.ordered hscope name).bind fun found => ?_
      cases found with
      | none => exact hcallee.bind fun _ => Safe.pure _
      | some found => exact (safe_plain fun _ => rfl).bind fun _ => safe_judge _
    | _ => exact hcallee.bind fun _ => safe_judge _
  | .methodCall _ receiver _ _ args =>
    exact (walkExpr_safe hscope receiver).bind fun _ =>
      (walkArgs_safe hscope args).bind fun _ => safe_judge _
  | .ifElse _ cond thenBranch none =>
    exact (walkExpr_safe hscope cond).bind fun _ => (safe_report _).bind fun _ =>
      (walkBlock_safe hscope thenBranch).bind fun _ => Safe.pure _
  | .ifElse _ cond thenBranch (some other) =>
    exact (walkExpr_safe hscope cond).bind fun _ => (safe_report _).bind fun _ =>
      (walkBlock_safe hscope thenBranch).bind fun _ =>
        (walkExpr_safe hscope other).bind fun _ => Safe.pure _
  | .matchOn _ scrutinee arms =>
    exact (walkExpr_safe hscope scrutinee).bind fun t =>
      (walkArms_safe hscope t arms).bind fun _ => (safe_report _).bind fun _ => Safe.pure _
  | .block _ body => exact walkBlock_safe hscope body
  | .lambda node _ isAsync body =>
    exact ((walkBlock_safe (hctx.scopeFor_lt hscope node.id) body).inside _).bind fun _ =>
      Safe.pure _
  | .whileLoop _ cond body =>
    exact (walkExpr_safe hscope cond).bind fun _ => (safe_report _).bind fun _ =>
      (walkBlock_safe hscope body).bind fun _ => Safe.pure _
  | .forLoop node pattern iterable body =>
    have hinner := hctx.scopeFor_lt hscope node.id
    exact (walkExpr_safe hscope iterable).bind fun _ => (safe_judge _).bind fun _ =>
      (safe_inScope hinner (keeps_bindPattern ..)).bind fun _ =>
        (walkBlock_safe hinner body).bind fun _ => Safe.pure _
  | .ret _ none => exact (safe_checkReturn ..).bind fun _ => Safe.pure _
  | .ret _ (some value) =>
    exact (walkExpr_safe hscope value).bind fun _ =>
      (safe_checkReturn ..).bind fun _ => Safe.pure _
  | .assign node target value =>
    have hvalue := walkExpr_safe hscope value
    have htarget := walkExpr_safe hscope target
    refine hvalue.bind fun v => ?_
    cases target with
    | ident _ name =>
      exact htarget.bind fun _ => (safe_search hctx.ordered hscope name).bind fun _ =>
        (safe_report _).bind fun _ => (safe_report _).bind fun _ => Safe.pure _
    | fieldAccess _ _ _ | index _ _ _ =>
      exact htarget.bind fun _ => (safe_report _).bind fun _ => Safe.pure _
    | _ => exact (safe_report _).bind fun _ => Safe.pure _
  | .arrayLit _ elements =>
    exact (walkElements_safe hscope none elements).bind fun _ => Safe.pure _
  | .tupleLit _ elements => exact (walkArgs_safe hscope elements).bind fun _ => Safe.pure _
  | .structLit _ _ fields => exact (walkInits_safe hscope fields).bind fun _ => safe_judge _
  | .tryCatch _ body catches none =>
    exact (walkBlock_safe hscope body).bind fun _ =>
      (walkCatches_safe hscope catches).bind fun _ => Safe.pure _
  | .tryCatch _ body catches (some cleanup) =>
    exact (walkBlock_safe hscope body).bind fun _ =>
      (walkCatches_safe hscope catches).bind fun _ =>
        (walkBlock_safe hscope cleanup).bind fun _ => Safe.pure _
  | .throw _ value => exact (walkExpr_safe hscope value).bind fun _ => Safe.pure _
  | .await _ value =>
    exact (safe_requireAsync ..).bind fun _ =>
      (walkExpr_safe hscope value).bind fun _ => Safe.pure _
  | .concurrent node bindings =>
    exact (safe_requireAsync ..).bind fun _ =>
      (walkBindings_safe hscope (hctx.scopeFor_lt hscope node.id) [] bindings).bind fun _ =>
        Safe.pure _
  | .race _ body => exact (safe_requireAsync ..).bind fun _ => walkBlock_safe hscope body
  | .timeout _ duration body =>
    exact (safe_requireAsync ..).bind fun _ => (walkExpr_safe hscope duration).bind fun _ =>
      (safe_report _).bind fun _ => (walkBlock_safe hscope body).bind fun _ => Safe.pure _

/-- Arguments. -/
theorem walkArgs_safe {scope : ScopeId} (hscope : scope.index < a.size)
    (es : List Expr) : Safe a (walkArgs steps ctx scope es) (walkArgs direct ctx scope es) := by
  match es with
  | [] => exact Safe.pure _
  | e :: es =>
    exact (walkExpr_safe hscope e).bind fun _ =>
      (walkArgs_safe hscope es).bind fun _ => Safe.pure _

/-- Elements. -/
theorem walkElements_safe {scope : ScopeId} (hscope : scope.index < a.size)
    (expected : Option Ty) (es : List Expr) :
    Safe a (walkElements steps ctx scope expected es)
      (walkElements direct ctx scope expected es) := by
  match es, expected with
  | [], _ => exact Safe.pure _
  | e :: es, none =>
    exact (walkExpr_safe hscope e).bind fun _ => walkElements_safe hscope _ es
  | e :: es, some wanted =>
    exact (walkExpr_safe hscope e).bind fun _ => (safe_report _).bind fun _ =>
      walkElements_safe hscope _ es

/-- Initializers. -/
theorem walkInits_safe {scope : ScopeId} (hscope : scope.index < a.size)
    (fields : List FieldInit) :
    Safe a (walkInits steps ctx scope fields) (walkInits direct ctx scope fields) := by
  match fields with
  | [] => exact Safe.pure _
  | ⟨_, _, value⟩ :: fields =>
    exact (walkExpr_safe hscope value).bind fun _ =>
      (walkInits_safe hscope fields).bind fun _ => Safe.pure _

/-- Match arms. -/
theorem walkArms_safe {scope : ScopeId} (hscope : scope.index < a.size)
    (t : Ty) (arms : List MatchArm) :
    Safe a (walkArms steps ctx scope t arms) (walkArms direct ctx scope t arms) := by
  match arms with
  | [] => exact Safe.pure _
  | ⟨node, pattern, none, body⟩ :: arms =>
    have hinner := hctx.scopeFor_lt hscope node.id
    exact (safe_inScope hinner (keeps_bindPattern ..)).bind fun _ =>
      (walkExpr_safe hinner body).bind fun _ =>
        (walkArms_safe hscope t arms).bind fun _ => Safe.pure _
  | ⟨node, pattern, some guard, body⟩ :: arms =>
    have hinner := hctx.scopeFor_lt hscope node.id
    exact (safe_inScope hinner (keeps_bindPattern ..)).bind fun _ =>
      (walkExpr_safe hinner guard).bind fun _ => (safe_report _).bind fun _ =>
        (walkExpr_safe hinner body).bind fun _ =>
          (walkArms_safe hscope t arms).bind fun _ => Safe.pure _

/-- Handlers. -/
theorem walkCatches_safe {scope : ScopeId} (hscope : scope.index < a.size)
    (catches : List CatchClause) :
    Safe a (walkCatches steps ctx scope catches) (walkCatches direct ctx scope catches) := by
  match catches with
  | [] => exact Safe.pure _
  | ⟨node, _, _, body⟩ :: catches =>
    exact (walkBlock_safe (hctx.scopeFor_lt hscope node.id) body).bind fun _ =>
      walkCatches_safe hscope catches

/-- Concurrent bindings. -/
theorem walkBindings_safe {scope inner : ScopeId}
    (hscope : scope.index < a.size) (hinner : inner.index < a.size) (seen : List String)
    (bs : List ConcurrentBinding) :
    Safe a (walkBindings steps ctx scope inner seen bs)
      (walkBindings direct ctx scope inner seen bs) := by
  match bs with
  | [] => exact Safe.pure _
  | ⟨node, name, value⟩ :: bs =>
    unfold walkBindings
    refine (walkExpr_safe hscope value).bind fun t => ?_
    by_cases hseen : name ∈ seen
    · rw [if_pos hseen, if_pos hseen]
      exact (safe_report _).bind fun _ => walkBindings_safe hscope hinner seen bs
    · rw [if_neg hseen, if_neg hseen]
      exact (safe_inScope hinner (keeps_resolveName ..)).bind fun _ =>
        walkBindings_safe hscope hinner (name :: seen) bs

/-- Blocks. -/
theorem walkBlock_safe {parent : ScopeId} (hparent : parent.index < a.size)
    (b : Block) : Safe a (walkBlock steps ctx parent b) (walkBlock direct ctx parent b) := by
  unfold walkBlock
  refine Safe.memo ?_ _
  match b with
  | ⟨node, stmts, none⟩ =>
    have hscope := hctx.scopeFor_lt hparent node.id
    refine (walkStmts_faultless hscope stmts).bind fun last => ?_
    exact .of_states fun s hs => (Safe.pure _).from_state hs.1
  | ⟨node, stmts, some e⟩ =>
    have hscope := hctx.scopeFor_lt hparent node.id
    refine (walkStmts_faultless hscope stmts).bind fun last => ?_
    exact .of_states fun s hs => (walkExpr_safe hs.2 e).from_state hs.1

/-- The scope after some statements is there. -/
theorem walkStmts_faultless {scope : ScopeId} (hscope : scope.index < a.size)
    (stmts : List Stmt) :
    Faultless (Over a) (walkStmts steps ctx scope stmts) (walkStmts direct ctx scope stmts)
      fun last s => s.Over a ∧ last.index < a.size := by
  match stmts with
  | [] => exact .pure fun s hs => ⟨hs, hscope⟩
  | .letBind node pattern ty isMutable value :: rest =>
    have hinner := hctx.scopeFor_lt hscope node.id
    exact (walkExpr_safe hscope value).bind fun _ =>
      (safe_inScope hinner (keeps_bindLet ..)).bind fun _ => walkStmts_faultless hinner rest
  | .expr node value :: rest =>
    exact (walkExpr_safe hscope value).bind fun _ =>
      walkStmts_faultless (hctx.scopeAfter_lt hscope (.expr node value)) rest

end

end Bodies

/-! ## Declarations -/

section Declarations

variable {ctx : Context} (hctx : ctx.Fits a)

include hctx

/-- Scripts. -/
theorem walkScript_safe (s : Stmt) : Safe a (walkScript steps ctx s) (walkScript direct ctx s) := by
  have hglobal := hctx.ordered.global_lt
  cases s with
  | letBind node pattern ty isMutable value =>
    exact (walkExpr_safe hctx hglobal value).bind fun _ =>
      safe_inScope hglobal (keeps_bindLet ..)
  | expr _ value => exact (walkExpr_safe hctx hglobal value).bind fun _ => Safe.pure _

/-- Functions. -/
theorem walkFunction_safe (hscope : scope.index < a.size) (f : FunctionDecl) :
    Safe a (walkFunction steps ctx scope f) (walkFunction direct ctx scope f) :=
  ((walkBlock_safe hctx (hctx.scopeFor_lt hscope f.node.id) f.body).inside _).bind fun _ =>
    safe_report _

/-- Fields. -/
theorem walkInitializer_safe (hscope : scope.index < a.size) (owner : String) (f : FieldDecl) :
    Safe a (walkInitializer steps ctx scope owner f)
      (walkInitializer direct ctx scope owner f) := by
  unfold walkInitializer
  cases f.initializer with
  | none => exact Safe.pure _
  | some e => exact (walkExpr_safe hctx hscope e).bind fun _ => safe_report _

/-- Classes. -/
theorem walkClass_safe (c : ClassDecl) :
    Safe a (walkClass steps ctx c) (walkClass direct ctx c) := by
  have hscope := hctx.scopeFor_lt hctx.ordered.global_lt c.node.id
  exact (Faultless.forM fun f _ => walkInitializer_safe hctx hscope c.name f).bind fun _ =>
    .forM fun f _ => walkFunction_safe hctx hscope f

/-- The script. -/
theorem walkDeclScript_safe (d : Decl) :
    Safe a (walkDeclScript steps ctx d) (walkDeclScript direct ctx d) := by
  cases d with
  | script s => exact walkScript_safe hctx s
  | _ => exact Safe.pure _

/-- The bodies. -/
theorem walkDeclBodies_safe (d : Decl) :
    Safe a (walkDeclBodies steps ctx d) (walkDeclBodies direct ctx d) := by
  have hglobal := hctx.ordered.global_lt
  cases d with
  | function f => exact walkFunction_safe hctx hglobal f
  | classLike c => exact walkClass_safe hctx c
  | struct s | spark s => exact .forM fun f _ => walkInitializer_safe hctx hglobal s.name f
  | impl i => exact .forM fun f _ => walkFunction_safe hctx hglobal f
  | data _ | trait _ | interface _ | script _ => exact Safe.pure _

/-- Units. -/
theorem unit_safe (u : SourceUnit) : Safe a (unit ctx u) (Check.unit ctx u) :=
  (Faultless.forM fun d _ => walkDeclScript_safe hctx d).bind fun _ =>
    .forM fun d _ => walkDeclBodies_safe hctx d

end Declarations

end GuardedCheck

/-! ## The analysis -/

/-- The analysis of a unit by a guarded construction and a guarded check. -/
def guardedAnalyze (config : Config) (u : SourceUnit) : Except ScopeFault Analysis := do
  let (_, b) ← (GuardedBuild.unit config.readableIntrinsics u).run {}
  let r := Registry.ofLists b.traits b.impls
  let ctx : Context := { table := b.table, registry := r.1, options := config.analysis }
  let (_, s) ← (GuardedCheck.unit ctx u).run
    { scopes := b.table.scopes, findings := b.findings ++ r.2 }
  return { table := { b.table with scopes := s.scopes }, types := s.types, registry := r.1,
           findings := s.findings }

/-- Scopes can be handled by their indices. -/
structure SymbolTable.Sound (t : SymbolTable) : Prop where
  /-- A scope that is remembered for a node is there. -/
  remembered : ∀ id scope, t.scopeMap.get? id = some scope → scope.index < t.scopes.size
  /-- Every scope but the global one has one directly around it, which comes before it. -/
  parent : ∀ scope s, t.scopes.get? scope = some s → scope ≠ .global →
    ∃ parent, s.parent? = some parent ∧ parent.index < scope.index

/-- A bounded table is sound. -/
theorem SymbolTable.Bounded.sound {t : SymbolTable} (h : t.Bounded) (hscopes : t.scopes.Ordered) :
    t.Sound where
  remembered := h
  parent scope s hs hne := by
    obtain ⟨hlt, -⟩ := Array.getElem?_eq_some_iff.1 hs
    obtain ⟨parent, hbelow, hparent⟩ := hscopes.inner scope hlt hne
    rw [Arena.enclosing, hs] at hparent
    exact ⟨parent, congrArg List.head? hparent, hbelow⟩

/-- **Scopes are handled without fault.** Whatever identities the nodes of a unit have, also
repeated ones, its guarded analysis raises no fault and gives what the analysis gives: every scope
that is named is there, and every scope that is left leads to the one that it is left for. After the
construction and after the check, the scopes that nodes remember are there and every scope but the
global one lies directly below an earlier one. -/
theorem analysis_raises_no_scope_fault (config : Config) (u : SourceUnit) :
    guardedAnalyze config u = .ok (analyze config u) ∧
      (Builder.ofUnit config.readableIntrinsics u).table.Sound ∧
      (analyze config u).table.Sound := by
  obtain ⟨hbuild, habove⟩ := GuardedBuild.ofUnit_faultless config.readableIntrinsics u
  rw [analyze_eq]
  unfold guardedAnalyze
  rw [hbuild]
  generalize Builder.ofUnit config.readableIntrinsics u = b at habove ⊢
  let r := Registry.ofLists b.traits b.impls
  let ctx : Context := { table := b.table, registry := r.1, options := config.analysis }
  let start : Session := { scopes := b.table.scopes, findings := b.findings ++ r.2 }
  have hctx : ctx.Fits b.table.scopes := ⟨habove.ordered, habove.rooted.bounded⟩
  have hcheck := GuardedCheck.unit_safe hctx u
  have hstart : start.Over b.table.scopes := .refl _ _
  have hrun : (GuardedCheck.unit ctx u).run start = .ok ((Check.unit ctx u).run start) :=
    hcheck.run start hstart
  have hend : ((Check.unit ctx u).run start).2.Over b.table.scopes :=
    hcheck.meets.run start hstart
  refine ⟨?_, habove.rooted.bounded.sound habove.ordered,
    SymbolTable.Bounded.sound (fun id scope hid => ?_) (habove.ordered.defines hend)⟩
  · change ((GuardedCheck.unit ctx u).run start >>= _) = _
    rw [hrun]
    rfl
  · exact hend.size ▸ habove.rooted.bounded id scope hid

end UnitAnalysis
